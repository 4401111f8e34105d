import FountainTransfer.Padding
import FountainTransfer.Transmission

/-!
# Progress of a sender

The planned bytes are counted in a pass of their own before the first send; the bytes sent
are added up by the send loops, through one of two send functions. `progress_exact` says
that the two agree: with a callback, every event carries the size of what is on the wire,
and the events stop where the sends stop. Without a callback the same datagrams are sent,
and the result is the same.

The last event of a complete transfer, `SenderFinished`, repeats the count of the last
packet, so the counts increase only from packet to packet (`finished_repeats_bytes`).
-/

namespace FountainTransfer

open Layout

variable {eng : Engines} {encode : EncodingMap}

/-! ## Where sending stops -/

/-- How many of `messages` are sent until a send fails, and how sending them ends. -/
def sendAll (sendTo : SendTo) : Nat → List WireMessage → Nat × Result NetError Unit
  | _, [] => (0, .ok ())
  | alreadySent, message :: rest =>
    match sendMessageCounted sendTo alreadySent message with
    | .error e => (0, .error e)
    | .ok _ =>
      let out := sendAll sendTo (alreadySent + 1) rest
      (out.1 + 1, out.2)

theorem sendAll_le (sendTo : SendTo) (messages : List WireMessage) :
    ∀ alreadySent, (sendAll sendTo alreadySent messages).1 ≤ messages.length := by
  induction messages with
  | nil => exact fun _ => Nat.le_refl _
  | cons message rest ih =>
    intro alreadySent
    rw [sendAll]
    split
    · exact Nat.zero_le _
    · exact Nat.succ_le_succ (ih _)

/-- Sending ends well exactly when everything was sent. -/
theorem sendAll_eq_ok (sendTo : SendTo) (messages : List WireMessage) :
    ∀ alreadySent, (sendAll sendTo alreadySent messages).2 = .ok () ↔
      (sendAll sendTo alreadySent messages).1 = messages.length := by
  induction messages with
  | nil => exact fun _ => iff_of_true rfl rfl
  | cons message rest ih =>
    intro alreadySent
    rw [sendAll]
    split
    · exact iff_of_false (fun h => nomatch h) (fun h => nomatch h)
    · exact (ih _).trans Nat.succ_inj.symm

theorem sendAll_append_error {sendTo : SendTo} {e : NetError} (more : List WireMessage) :
    ∀ {messages : List WireMessage} {alreadySent : Nat},
      (sendAll sendTo alreadySent messages).2 = .error e →
      sendAll sendTo alreadySent (messages ++ more) = sendAll sendTo alreadySent messages
  | [], _, h => nomatch h
  | message :: rest, alreadySent, h => by
    rw [sendAll] at h
    rw [List.cons_append, sendAll, sendAll]
    split at h
    · rfl
    · rw [sendAll_append_error more h]

theorem sendAll_append_ok {sendTo : SendTo} (more : List WireMessage) :
    ∀ {messages : List WireMessage} {alreadySent : Nat},
      (sendAll sendTo alreadySent messages).2 = .ok () →
      sendAll sendTo alreadySent (messages ++ more) =
        (messages.length + (sendAll sendTo (alreadySent + messages.length) more).1,
          (sendAll sendTo (alreadySent + messages.length) more).2)
  | [], alreadySent, _ => by
    rw [List.nil_append, List.length_nil, Nat.zero_add, Nat.add_zero]
  | message :: rest, alreadySent, h => by
    rw [sendAll] at h
    rw [List.cons_append, sendAll]
    split at h
    · cases h
    · rw [sendAll_append_ok more h, List.length_cons, Nat.add_assoc, Nat.add_comm 1 rest.length,
        Nat.add_right_comm rest.length 1]

/-- The socket took everything that was sent. -/
theorem sendAll_sent {sendTo : SendTo} :
    ∀ {messages : List WireMessage} {alreadySent i : Nat},
      i < (sendAll sendTo alreadySent messages).1 → sendTo (alreadySent + i) = none
  | [], _, _, hi => nomatch hi
  | message :: rest, alreadySent, i, hi => by
    rw [sendAll] at hi
    split at hi
    · cases hi
    · next bytes hsent =>
      cases i with
      | zero => exact (sendMessageCounted_eq_ok.mp hsent).2.2
      | succ i =>
        rw [Nat.add_comm i 1, ← Nat.add_assoc]
        exact sendAll_sent (Nat.lt_of_succ_lt_succ hi)

/-- The message whose send failed. -/
theorem sendAll_failed {sendTo : SendTo} {e : NetError} :
    ∀ {messages : List WireMessage} {alreadySent : Nat},
      (sendAll sendTo alreadySent messages).2 = .error e →
      ∃ message, messages[(sendAll sendTo alreadySent messages).1]? = some message ∧
        sendMessageCounted sendTo (alreadySent + (sendAll sendTo alreadySent messages).1) message =
          .error e
  | [], _, h => nomatch h
  | message :: rest, alreadySent, h => by
    rw [sendAll] at h ⊢
    split at h
    · next e' he =>
      cases h
      exact ⟨message, rfl, he⟩
    · obtain ⟨failed, hget, herror⟩ := sendAll_failed h
      refine ⟨failed, hget, ?_⟩
      rw [Nat.add_assoc, Nat.add_comm 1] at herror
      exact herror

/-! ## What is reported -/

/-- The bytes of the metadata and of `packets` packets. -/
def TransferSpec.bytesAfter (spec : TransferSpec) (packets : Nat) : Nat :=
  24 + packets * (29 + spec.symbolSizeT.toNat)

/-- The event for packet `i`, in a transfer of `source` and `repair` packets. -/
def TransferSpec.packetEvent (spec : TransferSpec) (source repair i : Nat) : ProgressEvent :=
  if i < source then
    .senderSourcePacketSent (i + 1) source (spec.bytesAfter (i + 1)) (spec.bytesAfter (source + repair))
  else
    .senderRepairPacketSent (i - source + 1) repair (spec.bytesAfter (i + 1))
      (spec.bytesAfter (source + repair))

/-- The events of a transfer that stopped after `sent` datagrams. -/
def SessionParams.sendEvents (session : SessionParams) (source repair sent : Nat) :
    List ProgressEvent :=
  .senderStarted session.sessionId session.spec.transferLengthF session.spec.symbolSizeT source repair
      (session.spec.bytesAfter (source + repair)) ::
    ((List.range (sent - 1)).map (session.spec.packetEvent source repair) ++
      if sent = 1 + (source + repair) then
        [.senderFinished source repair (session.spec.bytesAfter (source + repair))
          (session.spec.bytesAfter (source + repair))]
      else [])

/-- The messages of a plan, in the order in which they are sent. -/
def SendPlan.messages (plan : SendPlan) (session : SessionParams) : List WireMessage :=
  sessionMetaFromSpec session.sessionId session.spec ::
    plan.packets.map (packetMessage session.sessionId)

theorem messages_eq (plan : SendPlan) (session : SessionParams) :
    plan.messages session = sessionMetaFromSpec session.sessionId session.spec ::
      (plan.source.map (packetMessage session.sessionId) ++
        plan.repair.map (packetMessage session.sessionId)) := by
  rw [SendPlan.messages, SendPlan.packets, List.map_append]

theorem messagesBytes_eq (messages : List WireMessage) :
    messagesBytes messages = .ok (messages.map wireCode.encode).flatten.length := by
  induction messages with
  | nil => rfl
  | cons message rest ih =>
    simp only [messagesBytes, encodeMessage, ih, ok_bind, pure_eq_ok, List.map_cons,
      List.flatten_cons, List.length_append]

section

variable {session : SessionParams} {plan : SendPlan}

theorem planned_bytes {n : Nat}
    (hsize : ∀ packet ∈ plan.packets, (packetFrame session.sessionId packet).length =
      29 + session.spec.symbolSizeT.toNat) (hn : n ≤ plan.source.length + plan.repair.length) :
    ((plan.datagrams session).take (n + 1)).flatten.length = session.spec.bytesAfter n := by
  have hblock : IsBlock n (29 + session.spec.symbolSizeT.toNat)
      ((plan.packets.take n).map (packetFrame session.sessionId)) := by
    refine ⟨?_, fun frame hmem => ?_⟩
    · rw [List.length_map, List.length_take, SendPlan.packets, List.length_append]
      exact Nat.min_eq_left hn
    · obtain ⟨packet, hpacket, rfl⟩ := List.mem_map.mp hmem
      exact hsize packet (List.mem_of_mem_take hpacket)
  rw [SendPlan.datagrams, List.take_succ_cons, ← List.map_take, List.flatten_cons,
    List.length_append, metaFrame_length, flatten_length_of_isBlock hblock]
  rfl

theorem plannedBytes_eq (progress : Bool)
    (hsize : ∀ packet ∈ plan.packets, (packetFrame session.sessionId packet).length =
      29 + session.spec.symbolSizeT.toNat) :
    plannedBytes session plan progress = .ok
      (if progress then session.spec.bytesAfter (plan.source.length + plan.repair.length) else 0) := by
  cases progress with
  | false => rfl
  | true =>
    have hall : (plan.datagrams session).length = plan.source.length + plan.repair.length + 1 := by
      rw [SendPlan.datagrams, List.length_cons, List.length_map, SendPlan.packets, List.length_append]
    have hbytes := planned_bytes hsize (Nat.le_refl (plan.source.length + plan.repair.length))
    rw [List.take_of_length_le (Nat.le_of_eq hall)] at hbytes
    have hmessages : (plan.messages session).map wireCode.encode = plan.datagrams session := by
      rw [SendPlan.messages, List.map_cons, List.map_map]
      rfl
    have hplanned := messagesBytes_eq (plan.messages session)
    rw [hmessages, hbytes] at hplanned
    exact hplanned

/-! ## The send loops -/

/-- The state of the send loops after the metadata and `n` packets. -/
def SendPlan.stateAfter (plan : SendPlan) (session : SessionParams) (progress : Bool) (n : Nat) :
    SendState :=
  ⟨(plan.datagrams session).take (n + 1),
    if progress then
      .senderStarted session.sessionId session.spec.transferLengthF session.spec.symbolSizeT
          plan.source.length plan.repair.length
          (session.spec.bytesAfter (plan.source.length + plan.repair.length)) ::
        (List.range n).map (session.spec.packetEvent plan.source.length plan.repair.length)
    else [],
    if progress then session.spec.bytesAfter n else 0⟩

theorem bytesAfter_succ (spec : TransferSpec) (n : Nat) :
    spec.bytesAfter n + (29 + spec.symbolSizeT.toNat) = spec.bytesAfter (n + 1) := by
  rw [TransferSpec.bytesAfter, TransferSpec.bytesAfter, Nat.succ_mul, Nat.add_assoc]

/-- What sending and reporting the next packet makes of the state. -/
theorem stateAfter_succ {progress : Bool} {n index : Nat} {packet : TransferPacket}
    {report : Nat → Nat → ProgressEvent} (hpacket : plan.packets[n]? = some packet)
    (hsize : (packetFrame session.sessionId packet).length = 29 + session.spec.symbolSizeT.toNat)
    (hreport : progress = true → report index (session.spec.bytesAfter (n + 1)) =
      session.spec.packetEvent plan.source.length plan.repair.length n) :
    (let st : SendState := ⟨(plan.stateAfter session progress n).wire ++
          [packetFrame session.sessionId packet], (plan.stateAfter session progress n).events,
        (plan.stateAfter session progress n).bytesSent +
          if progress then (packetFrame session.sessionId packet).length else 0⟩
      if progress then { st with events := st.events ++ [report index st.bytesSent] } else st) =
      plan.stateAfter session progress (n + 1) := by
  have hwire : (plan.datagrams session).take (n + 1 + 1) =
      (plan.datagrams session).take (n + 1) ++ [packetFrame session.sessionId packet] := by
    rw [List.take_add_one, SendPlan.datagrams, List.getElem?_cons_succ, List.getElem?_map, hpacket]
    rfl
  cases progress with
  | false =>
    simp only [SendPlan.stateAfter, hwire, Bool.false_eq_true, if_false, Nat.add_zero]
  | true =>
    simp only [SendPlan.stateAfter, hwire, if_true, hsize, bytesAfter_succ, hreport, List.range_succ,
      List.map_append, List.cons_append, List.map_cons, List.map_nil]

theorem stateAfter_wire_length {progress : Bool} {n : Nat} (hn : n ≤ plan.packets.length) :
    (plan.stateAfter session progress n).wire.length = n + 1 := by
  rw [SendPlan.stateAfter, List.length_take, SendPlan.datagrams, List.length_cons, List.length_map]
  exact Nat.min_eq_left (Nat.succ_le_succ hn)

/-- A loop over packets that follow the first `n`: it goes as far as the sends do. -/
theorem sendPackets_eq {sendTo : SendTo} {progress : Bool} {report : Nat → Nat → ProgressEvent}
    (hsize : ∀ packet ∈ plan.packets, (packetFrame session.sessionId packet).length =
      29 + session.spec.symbolSizeT.toNat) :
    ∀ {packets rest : List TransferPacket} {n index : Nat},
      plan.packets.drop n = packets ++ rest →
      (progress = true → ∀ i < packets.length,
        report (index + i + 1) (session.spec.bytesAfter (n + i + 1)) =
          session.spec.packetEvent plan.source.length plan.repair.length (n + i)) →
      sendPackets sendTo progress session.sessionId report (plan.stateAfter session progress n) index
          packets =
        (plan.stateAfter session progress
            (n + (sendAll sendTo (n + 1) (packets.map (packetMessage session.sessionId))).1),
          (sendAll sendTo (n + 1) (packets.map (packetMessage session.sessionId))).2)
  | [], _, _, _, _, _ => rfl
  | packet :: packets, rest, n, index, hdrop, hreport => by
    have hpacket : plan.packets[n]? = some packet := by
      rw [← List.head?_drop, hdrop]
      rfl
    have hlt : n < plan.packets.length := (List.getElem?_eq_some_iff.mp hpacket).1
    have hnext : plan.packets.drop (n + 1) = packets ++ rest := by
      rw [← List.tail_drop, hdrop]
      rfl
    have hframe := hsize packet (List.mem_of_getElem? hpacket)
    rw [List.map_cons, sendAll, sendPackets, SendState.send,
      stateAfter_wire_length (Nat.le_of_lt hlt)]
    cases hsent : sendMessageCounted sendTo (n + 1) (packetMessage session.sessionId packet) with
    | error e => rfl
    | ok bytes =>
      obtain ⟨rfl, _, _⟩ := sendMessageCounted_eq_ok.mp hsent
      have hrest : progress = true → ∀ i < packets.length,
          report (index + 1 + i + 1) (session.spec.bytesAfter (n + 1 + i + 1)) =
            session.spec.packetEvent plan.source.length plan.repair.length (n + 1 + i) := by
        intro hprogress i hi
        rw [Nat.add_right_comm index, Nat.add_right_comm n]
        exact hreport hprogress (i + 1) (Nat.succ_lt_succ hi)
      have hnow := @stateAfter_succ session plan progress n (index + 1) packet report hpacket hframe
        (fun hprogress => hreport hprogress 0 (Nat.succ_pos _))
      have hlater := @sendPackets_eq sendTo progress report hsize packets rest (n + 1) (index + 1)
        hnext hrest
      rw [← hnow, Nat.add_right_comm n 1] at hlater
      exact hlater

theorem sendEvents_complete (source repair : Nat) :
    session.sendEvents source repair (source + repair + 1) =
      .senderStarted session.sessionId session.spec.transferLengthF session.spec.symbolSizeT source
          repair (session.spec.bytesAfter (source + repair)) ::
        ((List.range (source + repair)).map (session.spec.packetEvent source repair) ++
          [.senderFinished source repair (session.spec.bytesAfter (source + repair))
            (session.spec.bytesAfter (source + repair))]) := by
  rw [SessionParams.sendEvents, if_pos (Nat.add_comm _ _), Nat.add_sub_cancel]

theorem stateAfter_events {progress : Bool} {n : Nat}
    (h : n ≠ plan.source.length + plan.repair.length) :
    (plan.stateAfter session progress n).events =
      if progress then session.sendEvents plan.source.length plan.repair.length (n + 1) else [] := by
  have hnone : ¬ n + 1 = 1 + (plan.source.length + plan.repair.length) := by omega
  rw [SessionParams.sendEvents, if_neg hnone, List.append_nil, Nat.add_sub_cancel]
  rfl

theorem sourceLoop_eq (sendTo : SendTo) (progress : Bool)
    (hsize : ∀ packet ∈ plan.packets, (packetFrame session.sessionId packet).length =
      29 + session.spec.symbolSizeT.toNat) :
    sendPackets sendTo progress session.sessionId
        (fun sent bytesSent => .senderSourcePacketSent sent plan.source.length bytesSent
          (if progress then session.spec.bytesAfter (plan.source.length + plan.repair.length) else 0))
        (plan.stateAfter session progress 0) 0 plan.source =
      (plan.stateAfter session progress
          (sendAll sendTo 1 (plan.source.map (packetMessage session.sessionId))).1,
        (sendAll sendTo 1 (plan.source.map (packetMessage session.sessionId))).2) := by
  have hloop := @sendPackets_eq session plan sendTo progress
    (fun sent bytesSent => .senderSourcePacketSent sent plan.source.length bytesSent
      (if progress then session.spec.bytesAfter (plan.source.length + plan.repair.length) else 0))
    hsize plan.source plan.repair 0 0 rfl fun hprogress i hi => by
      rw [if_pos hprogress, Nat.zero_add, TransferSpec.packetEvent, if_pos hi]
  rw [Nat.zero_add, Nat.zero_add] at hloop
  exact hloop

theorem repairLoop_eq (sendTo : SendTo) (progress : Bool)
    (hsize : ∀ packet ∈ plan.packets, (packetFrame session.sessionId packet).length =
      29 + session.spec.symbolSizeT.toNat) :
    sendPackets sendTo progress session.sessionId
        (fun sent bytesSent => .senderRepairPacketSent sent plan.repair.length bytesSent
          (if progress then session.spec.bytesAfter (plan.source.length + plan.repair.length) else 0))
        (plan.stateAfter session progress plan.source.length) 0 plan.repair =
      (plan.stateAfter session progress (plan.source.length + (sendAll sendTo (1 + plan.source.length)
          (plan.repair.map (packetMessage session.sessionId))).1),
        (sendAll sendTo (1 + plan.source.length)
          (plan.repair.map (packetMessage session.sessionId))).2) := by
  have hdrop : plan.packets.drop plan.source.length = plan.repair ++ [] := by
    rw [SendPlan.packets, List.drop_left, List.append_nil]
  rw [Nat.add_comm 1]
  refine sendPackets_eq hsize hdrop fun hprogress i _ => ?_
  have hnot : ¬ plan.source.length + i < plan.source.length := by omega
  rw [if_pos hprogress, Nat.zero_add, TransferSpec.packetEvent, if_neg hnot, Nat.add_sub_cancel_left]

theorem sendMeta_eq {sendTo : SendTo} {progress : Bool} {bytes : Bytes} {started : List ProgressEvent}
    (hsent : sendMessageCounted sendTo 0 (sessionMetaFromSpec session.sessionId session.spec) = .ok bytes)
    (hstarted : (plan.stateAfter session progress 0).events = started) :
    SendState.send sendTo progress ⟨[], started, 0⟩
        (sessionMetaFromSpec session.sessionId session.spec) =
      .ok (plan.stateAfter session progress 0) := by
  have hmeta := metaFrame_length session
  obtain ⟨rfl, _, _⟩ := sendMessageCounted_eq_ok.mp hsent
  subst hstarted
  rw [metaFrame] at hmeta
  rw [SendState.send, List.length_nil, hsent]
  simp only [ok_bind, pure_eq_ok, hmeta]
  have hbytes : session.spec.bytesAfter 0 = 24 := by rw [TransferSpec.bytesAfter, Nat.zero_mul]
  cases progress with
  | false => rfl
  | true =>
    simp only [SendPlan.stateAfter, hbytes, if_true, Nat.zero_add]
    rfl

/-- The metadata and both loops, from where sending stops. -/
theorem sendPlanned_eq (sendTo : SendTo) (progress : Bool)
    (hsize : ∀ packet ∈ plan.packets, (packetFrame session.sessionId packet).length =
      29 + session.spec.symbolSizeT.toNat) :
    sendPlanned sendTo progress session plan
        (if progress then session.spec.bytesAfter (plan.source.length + plan.repair.length) else 0) =
      ⟨(plan.datagrams session).take (sendAll sendTo 0 (plan.messages session)).1,
        if progress then session.sendEvents plan.source.length plan.repair.length
          (sendAll sendTo 0 (plan.messages session)).1 else [],
        .ok (sendAll sendTo 0 (plan.messages session)).2⟩ := by
  rw [messages_eq, sendAll]
  unfold sendPlanned
  cases hmeta : sendMessageCounted sendTo 0 (sessionMetaFromSpec session.sessionId session.spec) with
  | error e =>
    have hnone : ¬ (0 : Nat) = 1 + (plan.source.length + plan.repair.length) := by omega
    dsimp only
    rw [SendState.send, List.length_nil, hmeta]
    cases progress <;> simp [SessionParams.sendEvents, hnone] <;> rfl
  | ok bytes =>
    dsimp only
    rw [@sendMeta_eq session plan sendTo progress bytes _ hmeta (by cases progress <;> rfl)]
    dsimp only
    rw [sourceLoop_eq sendTo progress hsize, Nat.zero_add]
    have hall := sendAll_eq_ok sendTo (plan.source.map (packetMessage session.sessionId)) 1
    have hle := sendAll_le sendTo (plan.source.map (packetMessage session.sessionId)) 1
    cases hsource : sendAll sendTo 1 (plan.source.map (packetMessage session.sessionId)) with
    | mk n result =>
      rw [hsource, List.length_map] at hall hle
      cases result with
      | error e =>
        have hcut : n ≠ plan.source.length + plan.repair.length := by
          have hless : n ≠ plan.source.length := by
            intro h
            cases hall.mpr h
          omega
        rw [sendAll_append_error _ (congrArg Prod.snd hsource), hsource]
        dsimp only
        rw [stateAfter_events hcut]
        rfl
      | ok u =>
        have hcount : n = plan.source.length := hall.mp rfl
        subst hcount
        rw [sendAll_append_ok _ (congrArg Prod.snd hsource), List.length_map]
        dsimp only
        rw [repairLoop_eq sendTo progress hsize]
        have hdone := sendAll_eq_ok sendTo (plan.repair.map (packetMessage session.sessionId))
          (1 + plan.source.length)
        cases hrepair : sendAll sendTo (1 + plan.source.length)
            (plan.repair.map (packetMessage session.sessionId)) with
        | mk m result =>
          rw [hrepair, List.length_map] at hdone
          cases result with
          | error e =>
            have hcut : plan.source.length + m ≠ plan.source.length + plan.repair.length := by
              intro h
              cases hdone.mpr (Nat.add_left_cancel h)
            dsimp only
            rw [stateAfter_events hcut]
            rfl
          | ok u =>
            have hcount : m = plan.repair.length := hdone.mp rfl
            subst hcount
            dsimp only
            rw [sendEvents_complete]
            cases progress <;> rfl

end

/-! ## Exact progress -/

/-- The bytes-sent count an event carries. -/
def ProgressEvent.bytesSent : ProgressEvent → Option Nat
  | .senderSourcePacketSent _ _ bytesSent _ => some bytesSent
  | .senderRepairPacketSent _ _ bytesSent _ => some bytesSent
  | .senderFinished _ _ bytesSent _ => some bytesSent
  | _ => none

/-- What stops the send after `sent` datagrams: a packet that is too large, or the socket. -/
inductive SendStops (sendTo : SendTo) (spec : TransferSpec) (sent : Nat) : NetError → Prop
  | tooLarge : 0 < sent → 65478 < spec.symbolSizeT.toNat →
      SendStops sendTo spec sent (.datagramTooLarge (29 + spec.symbolSizeT.toNat))
  | socket {error : IoError} : sendTo sent = some error → SendStops sendTo spec sent (.io error)

/-- The transfer of `source` and `repair` packets that stops after `sent` datagrams, seen
by its callback: `session.sendEvents` are the events, with the sizes of what is on the wire. -/
structure ExactProgress (eng : Engines) (sendTo : SendTo) (object : Bytes)
    (session : SessionParams) (config : SendConfig) (source repair sent : Nat) : Prop where
  within : sent ≤ 1 + (source + repair)
  wire : ∃ plan, sendPlan eng object session config = .ok (.ok plan) ∧
    plan.source.length = source ∧ plan.repair.length = repair ∧
    (sendObjectWithSocketImpl eng sendTo object session config true).wire =
      (plan.datagrams session).take sent
  events : (sendObjectWithSocketImpl eng sendTo object session config true).events =
    session.sendEvents source repair sent
  socket : ∀ i < sent, sendTo i = none
  completes : sent = 1 + (source + repair) →
    (sendObjectWithSocketImpl eng sendTo object session config true).result = .ok (.ok ()) ∧
    (sendObjectWithSocketImpl eng sendTo object session config true).wire.flatten.length =
      session.spec.bytesAfter (source + repair)
  stops : sent < 1 + (source + repair) → ∃ e, SendStops sendTo session.spec sent e ∧
    (sendObjectWithSocketImpl eng sendTo object session config true).result = .ok (.error e)
  bytesSent : ∀ i < sent - 1, (session.spec.packetEvent source repair i).bytesSent =
    some ((sendObjectWithSocketImpl eng sendTo object session config true).wire.take
      (i + 2)).flatten.length
  increasing : (((List.range (sent - 1)).map (session.spec.packetEvent source repair)).filterMap
    (·.bytesSent)).Pairwise (· < ·)
  bounded : ∀ event ∈ (sendObjectWithSocketImpl eng sendTo object session config true).events,
    ∀ bytesSent, event.bytesSent = some bytesSent →
      bytesSent ≤ session.spec.bytesAfter (source + repair)
  transparent : sendObjectWithSocketImpl eng sendTo object session config false =
    ⟨(sendObjectWithSocketImpl eng sendTo object session config true).wire, [],
      (sendObjectWithSocketImpl eng sendTo object session config true).result⟩

theorem packetEvent_bytesSent (spec : TransferSpec) (source repair i : Nat) :
    (spec.packetEvent source repair i).bytesSent = some (spec.bytesAfter (i + 1)) := by
  unfold TransferSpec.packetEvent
  split <;> rfl

theorem bytesAfter_le {spec : TransferSpec} {m n : Nat} (h : m ≤ n) :
    spec.bytesAfter m ≤ spec.bytesAfter n :=
  Nat.add_le_add_left (Nat.mul_le_mul_right _ h) 24

theorem bytesAfter_lt {spec : TransferSpec} {m n : Nat} (h : m < n) :
    spec.bytesAfter m < spec.bytesAfter n :=
  Nat.add_lt_add_left (Nat.mul_lt_mul_of_pos_right h (by omega)) 24

theorem sendEvents_increasing (spec : TransferSpec) (source repair n : Nat) :
    (((List.range n).map (spec.packetEvent source repair)).filterMap (·.bytesSent)).Pairwise
      (· < ·) := by
  have hcounts : ((List.range n).map (spec.packetEvent source repair)).filterMap (·.bytesSent) =
      (List.range n).map fun i => spec.bytesAfter (i + 1) := by
    rw [List.filterMap_map, ← List.filterMap_eq_map]
    refine congrArg (List.filterMap · (List.range n)) (funext fun i => ?_)
    exact packetEvent_bytesSent spec source repair i
  rw [hcounts]
  exact List.Pairwise.map _ (fun _ _ h => bytesAfter_lt (Nat.succ_lt_succ h)) List.pairwise_lt_range

theorem sendEvents_bounded {session : SessionParams} {source repair sent : Nat}
    (h : sent ≤ 1 + (source + repair)) {event : ProgressEvent}
    (hmem : event ∈ session.sendEvents source repair sent) {bytesSent : Nat}
    (hbytes : event.bytesSent = some bytesSent) :
    bytesSent ≤ session.spec.bytesAfter (source + repair) := by
  rcases List.mem_cons.mp hmem with rfl | hmem
  · cases hbytes
  · rcases List.mem_append.mp hmem with hpacket | hfinished
    · obtain ⟨i, hi, rfl⟩ := List.mem_map.mp hpacket
      have hi := List.mem_range.mp hi
      rw [packetEvent_bytesSent] at hbytes
      cases hbytes
      exact bytesAfter_le (by omega)
    · split at hfinished
      · cases List.mem_singleton.mp hfinished
        cases hbytes
        exact Nat.le_refl _
      · cases hfinished

theorem sendObject_eq (faithful : eng.Faithful encode) (sendTo : SendTo) (progress : Bool)
    {object : Bytes} {session : SessionParams} {config : SendConfig} {plan : SendPlan}
    (h : sendPlan eng object session config = .ok (.ok plan)) :
    sendObjectWithSocketImpl eng sendTo object session config progress =
      ⟨(plan.datagrams session).take (sendAll sendTo 0 (plan.messages session)).1,
        if progress then session.sendEvents plan.source.length plan.repair.length
          (sendAll sendTo 0 (plan.messages session)).1 else [],
        .ok (sendAll sendTo 0 (plan.messages session)).2⟩ := by
  have hsize : ∀ packet ∈ plan.packets, (packetFrame session.sessionId packet).length =
      29 + session.spec.symbolSizeT.toNat := fun _ hmem => planned_packetFrame_length faithful h hmem
  simp only [sendObjectWithSocketImpl, h, plannedBytes_eq progress hsize]
  exact sendPlanned_eq sendTo progress hsize

/-- What stops a planned transfer. -/
theorem sendStops_of_plan (faithful : eng.Faithful encode) {sendTo : SendTo} {object : Bytes}
    {session : SessionParams} {config : SendConfig} {plan : SendPlan} {e : NetError}
    (h : sendPlan eng object session config = .ok (.ok plan))
    (hfailed : (sendAll sendTo 0 (plan.messages session)).2 = .error e) :
    SendStops sendTo session.spec (sendAll sendTo 0 (plan.messages session)).1 e := by
  obtain ⟨message, hget, herror⟩ := sendAll_failed hfailed
  rw [Nat.zero_add] at herror
  generalize (sendAll sendTo 0 (plan.messages session)).1 = sent at hget herror
  simp only [sendMessageCounted, encodeMessage, ok_mapError, ok_bind] at herror
  split at herror
  · next hlarge =>
    cases herror
    cases sent with
    | zero =>
      cases hget
      have hmeta := metaFrame_length session
      rw [metaFrame] at hmeta
      rw [hmeta] at hlarge
      exact absurd hlarge (by decide)
    | succ sent =>
      obtain ⟨packet, hpacket, rfl⟩ := List.mem_map.mp (List.mem_of_getElem? hget)
      have hlength := planned_packetFrame_length faithful h hpacket
      rw [packetFrame] at hlength
      rw [hlength, maxDatagram] at hlarge
      rw [hlength]
      exact .tooLarge (Nat.succ_pos _) (by omega)
  · split at herror
    · next hsocket =>
      cases herror
      exact .socket hsocket
    · cases herror

theorem exactProgress_of_plan (faithful : eng.Faithful encode) (sendTo : SendTo) {object : Bytes}
    {session : SessionParams} {config : SendConfig} {plan : SendPlan}
    (h : sendPlan eng object session config = .ok (.ok plan)) :
    ExactProgress eng sendTo object session config plan.source.length plan.repair.length
      (sendAll sendTo 0 (plan.messages session)).1 := by
  have hsize : ∀ packet ∈ plan.packets, (packetFrame session.sessionId packet).length =
      29 + session.spec.symbolSizeT.toNat := fun _ hmem => planned_packetFrame_length faithful h hmem
  have hcount : (plan.messages session).length = 1 + (plan.source.length + plan.repair.length) := by
    rw [SendPlan.messages, List.length_cons, List.length_map, SendPlan.packets, List.length_append,
      Nat.add_comm]
  have hle := sendAll_le sendTo (plan.messages session) 0
  have hok := sendAll_eq_ok sendTo (plan.messages session) 0
  rw [hcount] at hle hok
  have hwith := sendObject_eq faithful sendTo true h
  have hwithout := sendObject_eq faithful sendTo false h
  refine {
    within := hle
    wire := ⟨plan, h, rfl, rfl, by rw [hwith]⟩
    events := by rw [hwith]; rfl
    socket := fun i hi => Nat.zero_add i ▸ sendAll_sent hi
    completes := fun hall => ?_
    stops := fun hcut => ?_
    bytesSent := fun i hi => ?_
    increasing := sendEvents_increasing _ _ _ _
    bounded := fun event hmem bytesSent hbytes => ?_
    transparent := by rw [hwith, hwithout]; rfl }
  · rw [hwith, hok.mpr hall, hall, Nat.add_comm 1]
    exact ⟨rfl, planned_bytes hsize (Nat.le_refl _)⟩
  · rw [hwith]
    cases hresult : (sendAll sendTo 0 (plan.messages session)).2 with
    | ok u => exact absurd (hok.mp hresult) (Nat.ne_of_lt hcut)
    | error e => exact ⟨e, sendStops_of_plan faithful h hresult, rfl⟩
  · have hfirst : i + 1 ≤ plan.source.length + plan.repair.length := by omega
    have hsent : i + 2 ≤ (sendAll sendTo 0 (plan.messages session)).1 := by omega
    rw [packetEvent_bytesSent, hwith, List.take_take, Nat.min_eq_left hsent, planned_bytes hsize hfirst]
  · rw [hwith] at hmem
    exact sendEvents_bounded hle hmem hbytes

/-- For every valid session that can be planned, matching object, configuration and socket,
wherever it fails: the progress is exact, and without a callback the same datagrams are
sent to the same result. -/
theorem progress_exact {limits : BuildLimits} (faithful : eng.Faithful encode)
    (encodes : eng.Encodes) (builds : eng.Builds limits) (totals : eng.TotalsFit) (sendTo : SendTo)
    {object : Bytes} {session : SessionParams} {config : SendConfig}
    (hvalid : validateSpec session.spec = .ok ())
    (hlength : object.length = session.spec.transferLengthF.toNat)
    (hplannable : session.Plannable limits config) :
    ∃ sent, ExactProgress eng sendTo object session config session.spec.sourceK
      (config.repairRounds.toNat * config.repairCount.toNat) sent := by
  obtain ⟨hencodable, hpadded, hroom⟩ := hplannable
  obtain ⟨hf, ht⟩ := validateSpec_eq_ok.mp hvalid
  have hbuilds := (builds.encoder_iff ht hlength).mpr hencodable
  obtain ⟨numTotal, htotal⟩ := hbuilds.exists_numTotal
  have hplan := sendPlan_eq faithful encodes totals ⟨hf, ht, hlength, hpadded⟩ hbuilds htotal hroom
  have hexact := exactProgress_of_plan faithful sendTo hplan
  rw [List.length_map, List.length_range, List.length_map, List.length_range] at hexact
  exact ⟨_, hexact⟩

open Repetition in
/-- Four Raptor10 symbols and two rounds of three repair symbols, over a socket that fails
at the sixth datagram. -/
theorem progress_exact_four :
    ∃ sent, ExactProgress engines (fun n => if n = 5 then some 101 else none) [1, 2, 3, 4]
      ⟨7, spec10⟩ ⟨3, 2⟩ spec10.sourceK 6 sent :=
  progress_exact engines_faithful engines_encodes engines_builds engines_totals _ rfl rfl
    ⟨⟨rfl, rfl, by decide⟩, by decide, by decide⟩

open Repetition in
/-- One RaptorQ symbol of one byte: `SenderFinished` carries the 54 bytes that the event
of the only packet carried, so the counts do not increase strictly over all events. -/
theorem finished_repeats_bytes :
    (sendObjectWithSocketImpl engines sendAlways [42] ⟨7, specQ⟩ ⟨0, 0⟩ true).events =
      [.senderStarted 7 1 1 1 0 54, .senderSourcePacketSent 1 1 54 54, .senderFinished 1 0 54 54] ∧
    ¬ ((sendObjectWithSocketImpl engines sendAlways [42] ⟨7, specQ⟩ ⟨0, 0⟩ true).events.filterMap
      (·.bytesSent)).Pairwise (· < ·) := by
  have hevents : (sendObjectWithSocketImpl engines sendAlways [42] ⟨7, specQ⟩ ⟨0, 0⟩ true).events =
      [.senderStarted 7 1 1 1 0 54, .senderSourcePacketSent 1 1 54 54, .senderFinished 1 0 54 54] :=
    rfl
  refine ⟨hevents, ?_⟩
  rw [hevents]
  decide

end FountainTransfer
