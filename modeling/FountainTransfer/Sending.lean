import FountainTransfer.Metadata
import FountainTransfer.Roundtrip
import FountainTransfer.Sender

/-!
# What a sender puts on the wire

Results:
1. `sendObject_wire`: whatever the socket does, the wire holds a prefix of the planned
   datagrams, each within the datagram limit.
2. `plan_packets_sent`: every planned packet carries a symbol of the object.
3. `sendObject_fits` and `sendObject_too_large`: with a socket that never fails, a planned
   transfer is sent entirely if `T` is at most 65478, and otherwise leaves its metadata on
   the wire. The size of a packet is checked after the metadata was sent.
-/

namespace FountainTransfer

variable {eng : Engines} {encode : EncodingMap}

/-! ## The planned datagrams -/

/-- The datagram of a packet. -/
def packetFrame (sessionId : UInt64) (packet : TransferPacket) : Bytes :=
  wireCode.encode (packetMessage sessionId packet)

/-- The datagram of the metadata. -/
def metaFrame (session : SessionParams) : Bytes :=
  wireCode.encode (sessionMetaFromSpec session.sessionId session.spec)

/-- The whole sequence: metadata, source packets, repair packets. -/
def SendPlan.datagrams (plan : SendPlan) (session : SessionParams) : List Bytes :=
  metaFrame session :: plan.packets.map (packetFrame session.sessionId)

theorem metaFrame_length (session : SessionParams) : (metaFrame session).length = 24 :=
  encode_sessionMeta_length _ _ _ _ _

theorem packetFrame_length (sessionId : UInt64) (packet : TransferPacket) :
    (packetFrame sessionId packet).length = 29 + packet.symbol.length :=
  encode_packet_length _ _ _ _ _

/-- The encoder behind a plan. -/
theorem sendPlan_eq_ok {object : Bytes} {session : SessionParams} {config : SendConfig}
    {plan : SendPlan} (h : sendPlan eng object session config = .ok (.ok plan)) :
    ∃ enc enc', TransferEncoderImpl.new eng session.spec object = .ok (.ok enc) ∧
      plan.source = enc.sourcePackets ∧
      repairRounds config.repairCount.toNat enc [] (List.range config.repairRounds.toNat) =
        .ok (enc', plan.repair) := by
  rw [sendPlan, bind_eq_ok] at h
  obtain ⟨result, hnew, h⟩ := h
  match result, hnew, h with
  | .error _, _, h => cases h
  | .ok enc, hnew, h =>
    simp only [bind_eq_ok, pure_eq_ok, Except.ok.injEq] at h
    obtain ⟨⟨enc', repair⟩, hrepair, rfl⟩ := h
    exact ⟨enc, enc', hnew, rfl, hrepair⟩

theorem repairRounds_produces {count : Nat} :
    ∀ {rounds : List Nat} {enc enc' : TransferEncoderImpl eng} {repair packets : List TransferPacket},
      repairRounds count enc repair rounds = .ok (enc', packets) →
      ∀ packet ∈ packets, packet ∈ repair ∨ enc.Produces packet
  | [], _, _, _, _, h => by
    cases h
    exact fun _ hmem => .inl hmem
  | round :: rounds, enc, enc', repair, packets, h => by
    simp only [repairRounds, bind_eq_ok] at h
    obtain ⟨start, _, ⟨next, first⟩, hfirst, _, _, hmore⟩ := h
    intro packet hmem
    rcases repairRounds_produces hmore packet hmem with hmem | hlater
    · rcases List.mem_append.mp hmem with hmem | hmem
      · exact .inl hmem
      · exact .inr (.repair hfirst hmem)
    · exact .inr (.later hfirst hlater)

/-- Every planned packet carries a symbol of the object. -/
theorem plan_packets_sent (faithful : eng.Faithful encode) {object : Bytes}
    {session : SessionParams} {config : SendConfig} {plan : SendPlan}
    (h : sendPlan eng object session config = .ok (.ok plan)) :
    session.spec.Carries object ∧
      (∀ packet ∈ plan.packets, session.spec.Sent eng encode object packet) ∧
      plan.source = (List.range session.spec.sourceK).map fun i =>
        session.spec.packet encode object ⟨i, i⟩ := by
  obtain ⟨enc, enc', hnew, hsource, hrepair⟩ := sendPlan_eq_ok h
  obtain ⟨hspec, hserves⟩ := (TransferEncoderImpl.Constructed.new hnew).serves
  rw [← hspec]
  refine ⟨hserves.1, fun packet hmem => ?_, ?_⟩
  · have hproduces : enc.Produces packet := by
      rcases List.mem_append.mp hmem with hmem | hmem
      · exact .source (hsource ▸ hmem)
      · rcases repairRounds_produces hrepair packet hmem with hnone | hproduces
        · cases hnone
        · exact hproduces
    exact hproduces.sent faithful hserves
  · rw [hsource]
    exact TransferEncoderImpl.sourcePackets_eq faithful hserves

/-! ## The send loops -/

/-- Sent so far from `frames`: a prefix within the limit, all of them on success. -/
structure SentFrom (frames sent : List Bytes) (result : Result NetError Unit) : Prop where
  isPrefix : sent <+: frames
  within : ∀ datagram ∈ sent, datagram.length ≤ maxDatagram
  all : result = .ok () → sent = frames

theorem send_eq_ok {sendTo : SendTo} {progress : Bool} {st st' : SendState}
    {message : WireMessage} (h : st.send sendTo progress message = .ok st') :
    st'.wire = st.wire ++ [wireCode.encode message] ∧
      (wireCode.encode message).length ≤ maxDatagram := by
  simp only [SendState.send, bind_eq_ok, sendMessageCounted_eq_ok, pure_eq_ok,
    Except.ok.injEq] at h
  obtain ⟨_, ⟨rfl, hsize, _⟩, rfl⟩ := h
  exact ⟨rfl, hsize⟩

theorem sendPackets_wire {sendTo : SendTo} {progress : Bool} {sessionId : UInt64}
    {report : Nat → Nat → ProgressEvent} :
    ∀ {packets : List TransferPacket} {st st' : SendState} {index : Nat}
      {result : Result NetError Unit},
      sendPackets sendTo progress sessionId report st index packets = (st', result) →
      ∃ sent, st'.wire = st.wire ++ sent ∧
        SentFrom (packets.map (packetFrame sessionId)) sent result
  | [], st, _, _, _, h => by
    cases h
    exact ⟨[], (List.append_nil _).symm, List.prefix_refl _, (fun _ h => nomatch h), fun _ => rfl⟩
  | packet :: rest, st, st', index, result, h => by
    rw [sendPackets] at h
    split at h
    · cases h
      exact ⟨[], (List.append_nil _).symm, List.nil_prefix, (fun _ h => nomatch h),
        (fun h => nomatch h)⟩
    · next st₁ hst₁ =>
      obtain ⟨hwire, hsize⟩ := send_eq_ok hst₁
      obtain ⟨sent, hsent, hprefix, hwithin, hall⟩ := sendPackets_wire h
      have hnext : st'.wire = st₁.wire ++ sent := by
        rw [hsent]
        split <;> rfl
      refine ⟨packetFrame sessionId packet :: sent, ?_, ?_, ?_, ?_⟩
      · rw [hnext, hwire, List.append_assoc]
        rfl
      · exact List.cons_prefix_cons.mpr ⟨rfl, hprefix⟩
      · intro datagram hmem
        rcases List.mem_cons.mp hmem with rfl | hmem
        · exact hsize
        · exact hwithin datagram hmem
      · intro hok
        rw [hall hok, List.map_cons]

theorem SentFrom.append {frames more sent sent' : List Bytes} {result : Result NetError Unit}
    (h : SentFrom frames sent (.ok ())) (h' : SentFrom more sent' result) :
    SentFrom (frames ++ more) (sent ++ sent') result where
  isPrefix := by
    rw [h.all rfl]
    exact (List.prefix_append_right_inj _).mpr h'.isPrefix
  within datagram hmem := by
    rcases List.mem_append.mp hmem with hmem | hmem
    · exact h.within datagram hmem
    · exact h'.within datagram hmem
  all hok := by rw [h.all rfl, h'.all hok]

theorem SentFrom.stopped {frames more sent : List Bytes} {e : NetError}
    (h : SentFrom frames sent (.error e)) : SentFrom (frames ++ more) sent (.error e) where
  isPrefix := h.isPrefix.trans (List.prefix_append _ _)
  within := h.within
  all hok := nomatch hok

/-- A send loop that starts after `frames` were sent. -/
theorem SentFrom.loop {frames : List Bytes} {sendTo : SendTo} {progress : Bool}
    {sessionId : UInt64} {report : Nat → Nat → ProgressEvent} {packets : List TransferPacket}
    {st st' : SendState} {index : Nat} {result : Result NetError Unit}
    (h : SentFrom frames st.wire (.ok ()))
    (hloop : sendPackets sendTo progress sessionId report st index packets = (st', result)) :
    SentFrom (frames ++ packets.map (packetFrame sessionId)) st'.wire result := by
  obtain ⟨sent, hsent, hfrom⟩ := sendPackets_wire hloop
  rw [hsent]
  exact h.append hfrom

theorem datagrams_eq (plan : SendPlan) (session : SessionParams) :
    plan.datagrams session = [metaFrame session] ++
      plan.source.map (packetFrame session.sessionId) ++
      plan.repair.map (packetFrame session.sessionId) := by
  simp [SendPlan.datagrams, SendPlan.packets]

theorem sendPlanned_wire (sendTo : SendTo) (progress : Bool) (session : SessionParams)
    (plan : SendPlan) (planned : Nat) :
    ∃ result, (sendPlanned sendTo progress session plan planned).result = .ok result ∧
      SentFrom (plan.datagrams session) (sendPlanned sendTo progress session plan planned).wire
        result := by
  unfold sendPlanned
  dsimp only
  split
  · exact ⟨_, rfl, List.nil_prefix, (fun _ h => nomatch h), (fun h => nomatch h)⟩
  · next st hmeta =>
    obtain ⟨hwire, hsize⟩ := send_eq_ok hmeta
    have hfirst : SentFrom [metaFrame session] st.wire (.ok ()) := by
      rw [hwire]
      exact ⟨List.prefix_refl _, fun _ hmem => List.mem_singleton.mp hmem ▸ hsize, fun _ => rfl⟩
    rw [datagrams_eq]
    split
    · next st₁ e hsource => exact ⟨_, rfl, (hfirst.loop hsource).stopped⟩
    · next st₁ hsource =>
      have hsources := hfirst.loop hsource
      split
      · next st₂ e hrepair => exact ⟨_, rfl, hsources.loop hrepair⟩
      · next st₂ hrepair => exact ⟨_, rfl, hsources.loop hrepair⟩

theorem messagesBytes_ok (messages : List WireMessage) : ∃ n, messagesBytes messages = .ok n := by
  induction messages with
  | nil => exact ⟨0, rfl⟩
  | cons message rest ih =>
    obtain ⟨n, hn⟩ := ih
    exact ⟨(wireCode.encode message).length + n, by
      simp only [messagesBytes, encodeMessage, hn, ok_bind, pure_eq_ok]⟩

/-- Encoding the plan to count its bytes does not fail. -/
theorem plannedBytes_ok (session : SessionParams) (plan : SendPlan) (progress : Bool) :
    ∃ n, plannedBytes session plan progress = .ok n := by
  unfold plannedBytes
  split
  · exact messagesBytes_ok _
  · exact ⟨0, rfl⟩

/-- The wire holds a prefix of the planned datagrams, whatever the socket does. -/
theorem sendObject_wire {object : Bytes} {session : SessionParams} {config : SendConfig}
    {plan : SendPlan} (sendTo : SendTo) (progress : Bool)
    (h : sendPlan eng object session config = .ok (.ok plan)) :
    ∃ result,
      (sendObjectWithSocketImpl eng sendTo object session config progress).result = .ok result ∧
      SentFrom (plan.datagrams session)
        (sendObjectWithSocketImpl eng sendTo object session config progress).wire result := by
  obtain ⟨planned, hplanned⟩ := plannedBytes_ok session plan progress
  simp only [sendObjectWithSocketImpl, h, hplanned]
  exact sendPlanned_wire sendTo progress session plan planned

/-- A datagram on the wire is a planned one within the limit. -/
theorem planned_of_wire {object : Bytes} {session : SessionParams} {config : SendConfig}
    {sendTo : SendTo} {progress : Bool} {datagram : Bytes}
    (h : datagram ∈ (sendObjectWithSocketImpl eng sendTo object session config progress).wire) :
    ∃ plan, sendPlan eng object session config = .ok (.ok plan) ∧
      datagram ∈ plan.datagrams session ∧ datagram.length ≤ maxDatagram := by
  match hplan : sendPlan eng object session config with
  | .error _ => simp [sendObjectWithSocketImpl, hplan] at h
  | .ok (.error _) => simp [sendObjectWithSocketImpl, hplan] at h
  | .ok (.ok plan) =>
    obtain ⟨_, _, hsent⟩ := sendObject_wire sendTo progress hplan
    exact ⟨plan, rfl, hsent.isPrefix.subset h, hsent.within datagram h⟩

/-! ## A socket that never fails -/

/-- Every `send_to` succeeds. -/
def sendAlways : SendTo := fun _ => none

theorem send_always (progress : Bool) (st : SendState) {message : WireMessage}
    (h : (wireCode.encode message).length ≤ maxDatagram) :
    ∃ st', st.send sendAlways progress message = .ok st' := by
  have hsend : sendAlways st.wire.length = none := rfl
  simp only [SendState.send, sendMessageCounted_eq hsend, if_pos h, ok_bind]
  exact ⟨_, rfl⟩

theorem send_too_large {progress : Bool} {st : SendState} {message : WireMessage}
    (h : maxDatagram < (wireCode.encode message).length) :
    st.send sendAlways progress message =
      .error (.datagramTooLarge (wireCode.encode message).length) := by
  have hsend : sendAlways st.wire.length = none := rfl
  simp only [SendState.send, sendMessageCounted_eq hsend,
    if_neg (Nat.not_le.mpr h)]
  rfl

theorem sendPackets_always (progress : Bool) (sessionId : UInt64)
    (report : Nat → Nat → ProgressEvent) :
    ∀ {packets : List TransferPacket} (st : SendState) (index : Nat),
      (∀ packet ∈ packets, (packetFrame sessionId packet).length ≤ maxDatagram) →
      ∃ st', sendPackets sendAlways progress sessionId report st index packets = (st', .ok ())
  | [], st, _, _ => ⟨st, rfl⟩
  | packet :: rest, st, index, h => by
    obtain ⟨st', hst'⟩ := send_always progress st (h packet List.mem_cons_self)
    simp only [sendPackets, hst']
    exact sendPackets_always _ _ _ _ _ fun p hp => h p (List.mem_cons_of_mem _ hp)

theorem sendPlanned_always (progress : Bool) {session : SessionParams} {plan : SendPlan}
    (planned : Nat) (h : ∀ datagram ∈ plan.datagrams session, datagram.length ≤ maxDatagram) :
    (sendPlanned sendAlways progress session plan planned).result = .ok (.ok ()) := by
  have hpackets : ∀ packet ∈ plan.packets,
      (packetFrame session.sessionId packet).length ≤ maxDatagram := fun packet hmem =>
    h _ (List.mem_cons_of_mem _ (List.mem_map_of_mem hmem))
  obtain ⟨st, hst⟩ := send_always progress ⟨[], if progress then
    [.senderStarted session.sessionId session.spec.transferLengthF session.spec.symbolSizeT
      plan.source.length plan.repair.length planned] else [], 0⟩ (h _ List.mem_cons_self)
  obtain ⟨st₁, hst₁⟩ := sendPackets_always progress session.sessionId
    (fun sent bytesSent => .senderSourcePacketSent sent plan.source.length bytesSent planned) st 0
    fun packet hmem => hpackets packet (List.mem_append_left _ hmem)
  obtain ⟨st₂, hst₂⟩ := sendPackets_always progress session.sessionId
    (fun sent bytesSent => .senderRepairPacketSent sent plan.repair.length bytesSent planned) st₁ 0
    fun packet hmem => hpackets packet (List.mem_append_right _ hmem)
  simp only [sendPlanned, hst, hst₁, hst₂]

/-- The metadata is on the wire before the first packet turns out to be too large. -/
theorem sendPlanned_too_large (progress : Bool) {session : SessionParams} {plan : SendPlan}
    (planned : Nat) {packet : TransferPacket} {rest : List TransferPacket}
    (hsource : plan.source = packet :: rest)
    (h : maxDatagram < (packetFrame session.sessionId packet).length) :
    (sendPlanned sendAlways progress session plan planned).wire = [metaFrame session] ∧
      (sendPlanned sendAlways progress session plan planned).result =
        .ok (.error (.datagramTooLarge (packetFrame session.sessionId packet).length)) := by
  obtain ⟨source, repair⟩ := plan
  subst hsource
  have hmeta : (metaFrame session).length ≤ maxDatagram := by
    rw [metaFrame_length]
    decide
  obtain ⟨st, hst⟩ := send_always progress ⟨[], if progress then
    [.senderStarted session.sessionId session.spec.transferLengthF session.spec.symbolSizeT
      (packet :: rest).length repair.length planned] else [], 0⟩ hmeta
  have hwire := (send_eq_ok hst).1
  -- the first source packet is refused, so the loop stops where it starts
  have hlarge : st.send sendAlways progress (packetMessage session.sessionId packet) =
      .error (.datagramTooLarge (packetFrame session.sessionId packet).length) := send_too_large h
  have hloop : ∀ report, sendPackets sendAlways progress session.sessionId report st 0
      (packet :: rest) =
        (st, .error (.datagramTooLarge (packetFrame session.sessionId packet).length)) :=
    fun report => by simp only [sendPackets, hlarge]
  simp only [sendPlanned, hst, hloop]
  exact ⟨hwire, trivial⟩

/-! ## How a planned transfer ends -/

/-- A planned packet takes `29 + T` bytes. -/
theorem planned_packetFrame_length (faithful : eng.Faithful encode) {object : Bytes}
    {session : SessionParams} {config : SendConfig} {plan : SendPlan}
    (h : sendPlan eng object session config = .ok (.ok plan)) {packet : TransferPacket}
    (hmem : packet ∈ plan.packets) :
    (packetFrame session.sessionId packet).length = 29 + session.spec.symbolSizeT.toNat := by
  obtain ⟨hcarries, hsent, _⟩ := plan_packets_sent faithful h
  obtain ⟨_, ids, _, _, rfl⟩ := hsent packet hmem
  have hlength : (encode session.spec.codec session.spec.sourceK ids.codedId
      (session.spec.block object)).length = session.spec.symbolSizeT.toNat :=
    faithful.symbol_length hcarries.sourceK_pos hcarries.isBlock
  rw [packetFrame_length]
  exact congrArg (29 + ·) hlength

theorem plan_source_cons (faithful : eng.Faithful encode) {object : Bytes}
    {session : SessionParams} {config : SendConfig} {plan : SendPlan}
    (h : sendPlan eng object session config = .ok (.ok plan)) :
    ∃ packet rest, plan.source = packet :: rest := by
  obtain ⟨hcarries, _, hsource⟩ := plan_packets_sent faithful h
  obtain ⟨n, hn⟩ : ∃ n, session.spec.sourceK = n + 1 :=
    ⟨_, (Nat.succ_pred_eq_of_pos hcarries.sourceK_pos).symm⟩
  rw [hn, List.range_succ_eq_map, List.map_cons] at hsource
  exact ⟨_, _, hsource⟩

/-- A valid session and a matching object are not refused. -/
theorem sendPlan_not_refused {object : Bytes} {session : SessionParams} {config : SendConfig}
    (hvalid : validateSpec session.spec = .ok ())
    (hobject : object.length = session.spec.transferLengthF.toNat) (e : TransferError) :
    sendPlan eng object session config ≠ .ok (.error e) := by
  intro h
  simp only [sendPlan, bind_eq_ok] at h
  obtain ⟨result, hnew, h⟩ := h
  match result, hnew, h with
  | .error _, hnew, _ => simp [TransferEncoderImpl.new, hvalid, hobject, bind_eq_ok] at hnew
  | .ok enc, _, h =>
    simp only [bind_eq_ok, pure_eq_ok, Except.ok.injEq] at h
    obtain ⟨_, _, h⟩ := h
    cases h

theorem planned_within (faithful : eng.Faithful encode) {object : Bytes}
    {session : SessionParams} {config : SendConfig} {plan : SendPlan}
    (h : sendPlan eng object session config = .ok (.ok plan))
    (hsmall : session.spec.symbolSizeT.toNat ≤ 65478) :
    ∀ datagram ∈ plan.datagrams session, datagram.length ≤ maxDatagram := by
  intro datagram hmem
  rcases List.mem_cons.mp hmem with rfl | hmem
  · rw [metaFrame_length]
    decide
  · obtain ⟨packet, hpacket, rfl⟩ := List.mem_map.mp hmem
    rw [planned_packetFrame_length faithful h hpacket, maxDatagram]
    omega

/-- A planned transfer with larger symbols leaves its metadata on the wire. -/
theorem sendObject_too_large (faithful : eng.Faithful encode) {object : Bytes}
    {session : SessionParams} {config : SendConfig} {plan : SendPlan} (progress : Bool)
    (h : sendPlan eng object session config = .ok (.ok plan))
    (hlarge : 65478 < session.spec.symbolSizeT.toNat) :
    (sendObjectWithSocketImpl eng sendAlways object session config progress).wire =
        [metaFrame session] ∧
      (sendObjectWithSocketImpl eng sendAlways object session config progress).result =
        .ok (.error (.datagramTooLarge (29 + session.spec.symbolSizeT.toNat))) := by
  obtain ⟨planned, hplanned⟩ := plannedBytes_ok session plan progress
  obtain ⟨packet, rest, hsource⟩ := plan_source_cons faithful h
  have hfirst := planned_packetFrame_length faithful h
    (List.mem_append_left plan.repair (hsource ▸ List.mem_cons_self (a := packet)))
  have hrun := sendPlanned_too_large progress planned hsource
    (by rw [hfirst, maxDatagram]; omega)
  rw [hfirst] at hrun
  simp only [sendObjectWithSocketImpl, h, hplanned]
  exact hrun

/-- A planned transfer with symbols that fit is sent entirely. -/
theorem sendObject_fits (faithful : eng.Faithful encode) {object : Bytes}
    {session : SessionParams} {config : SendConfig} {plan : SendPlan} (progress : Bool)
    (h : sendPlan eng object session config = .ok (.ok plan))
    (hsmall : session.spec.symbolSizeT.toNat ≤ 65478) :
    (sendObjectWithSocketImpl eng sendAlways object session config progress).result = .ok (.ok ()) ∧
      (sendObjectWithSocketImpl eng sendAlways object session config progress).wire =
        plan.datagrams session := by
  obtain ⟨planned, hplanned⟩ := plannedBytes_ok session plan progress
  have hresult := sendPlanned_always progress planned
    (planned_within faithful h hsmall)
  obtain ⟨result, hresult', hsent⟩ := sendPlanned_wire sendAlways progress session plan planned
  cases hresult.symm.trans hresult'
  simp only [sendObjectWithSocketImpl, h, hplanned]
  exact ⟨hresult, hsent.all rfl⟩

end FountainTransfer
