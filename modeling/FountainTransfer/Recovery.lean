import FountainTransfer.Construction
import FountainTransfer.Delivery

/-!
# Recovery from any state

What a receiver went through before does not matter: once it gets the metadata of a
transmission and then all its source packets, it returns the object.

1. `Took.takes`, `Took.decoded_of_sources`: a decoder that holds symbols of one object
   takes every further packet of it, and is done once it took all source ids.
2. `Gathers.step`: what one arrival after the metadata does.
3. `recovery`: the run, from every reachable state that admits the session.
-/

namespace FountainTransfer

open ErasureCode HaltingMachine

variable {eng : Engines} {encode : EncodingMap} {Again : Prop}

/-- RFC 6330 ends at 56403 source symbols and RFC 5053 at 8192, so that no scheme has
source ids beyond `u32`. -/
structure Engines.SourceIdsFit (eng : Engines) : Prop where
  raptorQ : ∀ {k config scheme}, eng.raptorQ.sysCode k config = .ok scheme → k ≤ 2 ^ 32
  raptor10 : ∀ {k config scheme}, eng.raptor10.sysCode k config = .ok scheme → k ≤ 2 ^ 32

/-! ## Schemes -/

section Schemes

variable {spec : TransferSpec} {numTotal : Nat}

theorem Engines.SourceIdsFit.sourceK_le (hsmall : eng.SourceIdsFit)
    (h : eng.numTotal spec = .ok numTotal) : spec.sourceK ≤ 2 ^ 32 := by
  cases hcodec : spec.codec with
  | raptorQ dmax ldpcType =>
    obtain ⟨scheme, hscheme, _⟩ := (numTotal_raptorQ_eq_ok hcodec).mp h
    exact hsmall.raptorQ hscheme
  | raptor10 dmax =>
    obtain ⟨scheme, hscheme, _⟩ := (numTotal_raptor10_eq_ok hcodec).mp h
    exact hsmall.raptor10 hscheme

end Schemes

/-! ## Decoders that make progress -/

section Progress

variable {dec : TransferDecoderImpl eng} {object : Bytes} {fed : List (Nat × Bytes)}
  {reports : List DecodeStatus} {numTotal : Nat}

/-- A decoder that holds symbols of one object takes one more, and reports no more than
it can give. -/
theorem TransferDecoderImpl.Holds.takes (prompt : eng.PromptWhere Again encode)
    (h : dec.Holds encode object fed reports) (hcarries : dec.spec.Carries object)
    (htotal : eng.numTotal dec.spec = .ok numTotal)
    (hids : ∀ x ∈ fed, Engine.Emittable dec.spec.sourceK numTotal x.1) {c : Nat}
    (hc : Engine.Emittable dec.spec.sourceK numTotal c) (hagain : Again ∨ ∀ x ∈ fed, x.1 ≠ c) :
    ∃ dec' status,
      dec.feed c (encode dec.spec.codec dec.spec.sourceK c (dec.spec.block object)) =
        .ok (dec', status) ∧ (status = .decoded → dec'.decodeStatus = .decoded) := by
  obtain ⟨⟨_, _, hbuilt, htook⟩, hfed⟩ := h
  have hk := hcarries.sourceK_pos
  have hblock := hcarries.isBlock
  cases dec with
  | raptorQ dec spec =>
    obtain ⟨dmax, ldpcType, hcodec, hparams, _⟩ := hbuilt
    obtain ⟨scheme, hscheme, rfl⟩ := (numTotal_raptorQ_eq_ok hcodec).mp htotal
    simp only [TransferDecoderImpl.spec, hcodec] at *
    obtain ⟨⟨decoder, params⟩, total⟩ := dec
    subst hparams
    obtain ⟨dec', status, hadd, hdone⟩ :=
      htook.takes prompt.raptorQ hk hscheme hblock hfed hids hc hagain
    exact ⟨_, status, bind_eq_ok.mpr ⟨_, hadd, rfl⟩, hdone⟩
  | raptor10 dec spec =>
    obtain ⟨dmax, hcodec, hparams, _⟩ := hbuilt
    obtain ⟨scheme, hscheme, rfl⟩ := (numTotal_raptor10_eq_ok hcodec).mp htotal
    simp only [TransferDecoderImpl.spec, hcodec] at *
    obtain ⟨decoder, params⟩ := dec
    subst hparams
    obtain ⟨dec', status, hadd, hdone⟩ :=
      htook.takes prompt.raptor10 hk hscheme hblock hfed hids hc hagain
    exact ⟨_, status, bind_eq_ok.mpr ⟨_, hadd, rfl⟩, hdone⟩

/-- It has reported `Decoded` by the time it took every source id. -/
theorem TransferDecoderImpl.Holds.decoded_of_sources (prompt : eng.PromptWhere Again encode)
    (h : dec.Holds encode object fed reports) (hcarries : dec.spec.Carries object)
    (htotal : eng.numTotal dec.spec = .ok numTotal)
    (hall : ∀ c < dec.spec.sourceK, ∃ v, (c, v) ∈ fed) : .decoded ∈ reports := by
  obtain ⟨⟨_, _, hbuilt, htook⟩, hfed⟩ := h
  have hk := hcarries.sourceK_pos
  have hblock := hcarries.isBlock
  cases dec with
  | raptorQ dec spec =>
    obtain ⟨dmax, ldpcType, hcodec, hparams, _⟩ := hbuilt
    obtain ⟨scheme, hscheme, _⟩ := (numTotal_raptorQ_eq_ok hcodec).mp htotal
    simp only [TransferDecoderImpl.spec, hcodec] at *
    obtain ⟨⟨decoder, params⟩, total⟩ := dec
    subst hparams
    exact htook.decoded_of_sources prompt.raptorQ hk hscheme hblock hfed hall
  | raptor10 dec spec =>
    obtain ⟨dmax, hcodec, hparams, _⟩ := hbuilt
    obtain ⟨scheme, hscheme, _⟩ := (numTotal_raptor10_eq_ok hcodec).mp htotal
    simp only [TransferDecoderImpl.spec, hcodec] at *
    obtain ⟨decoder, params⟩ := dec
    subst hparams
    exact htook.decoded_of_sources prompt.raptor10 hk hscheme hblock hfed hall

/-- The same through `add_packet`. -/
theorem TransferDecoderImpl.Holds.takesPacket (faithful : eng.Faithful encode)
    (prompt : eng.PromptWhere Again encode) (h : dec.Holds encode object fed reports)
    (hcarries : dec.spec.Carries object) (htotal : eng.numTotal dec.spec = .ok numTotal)
    (hids : ∀ x ∈ fed, Engine.Emittable dec.spec.sourceK numTotal x.1) {packet : TransferPacket}
    (hsent : dec.spec.Sent eng encode object packet)
    (hagain : Again ∨ ∀ x ∈ fed,
      dec.spec.codecKind.codedId dec.spec.sourceK numTotal packet.esi.toNat ≠ .ok x.1) :
    ∃ dec' status c, dec.addPacket packet = .ok (.ok (dec', status)) ∧
      (status = .decoded → dec'.decodeStatus = .decoded) ∧ dec'.spec = dec.spec ∧
      dec.spec.codecKind.codedId dec.spec.sourceK numTotal packet.esi.toNat = .ok c ∧
      Engine.Emittable dec.spec.sourceK numTotal c ∧
      dec'.Holds encode object (fed ++ [(c, packet.symbol)]) (reports ++ [status]) := by
  obtain ⟨hwell, c, total, hc, hsymbol, htotal', hemittable⟩ :=
    hsent.handed faithful hcarries h.1.2.2.1 rfl
  cases htotal.symm.trans htotal'
  have hcoded := h.1.2.2.1.codedId_eq htotal packet.esi.toNat
  rw [hc] at hcoded
  have hnew : Again ∨ ∀ x ∈ fed, x.1 ≠ c :=
    hagain.imp id fun hnew x hx heq => hnew x hx (heq ▸ hcoded.symm)
  obtain ⟨dec', status, hfeed, hdone⟩ := h.takes prompt hcarries htotal hids hemittable hnew
  rw [← hsymbol] at hfeed
  have hadd := TransferDecoderImpl.addPacket_eq_ok.mpr ⟨hwell, c, hc, hfeed⟩
  obtain ⟨hspec, c', hc', hholds⟩ := h.addPacket faithful hcarries hsent hadd
  cases hc.symm.trans hc'
  exact ⟨dec', status, c, hadd, hdone, hspec, hcoded.symm, hemittable, hholds⟩

end Progress

/-! ## After the metadata -/

/-- A datagram of one of the planned packets: a source packet, or a repair packet whose
ESI is below `2^32`. -/
def SendPlan.Frame (plan : SendPlan) (sessionId : UInt64) (bytes : Bytes) : Prop :=
  ∃ packet, (packet ∈ plan.source ∨ (packet ∈ plan.repair ∧ packet.esi.toNat < 2 ^ 32)) ∧
    bytes = packetFrame sessionId packet

/-- What one arrival after the metadata may be: such a datagram, or one that is not of the
session. -/
def SendPlan.Next (plan : SendPlan) (sessionId : UInt64) (arrival : Arrival) : Prop :=
  ∃ bytes peer, arrival = .datagram bytes peer ∧
    (plan.Frame sessionId bytes ∨ Foreign sessionId bytes)

/-- The coded id a packet of the session reaches the engine under. -/
def SessionParams.codedId (session : SessionParams) (numTotal : Nat) (packet : TransferPacket) :
    Call Nat :=
  session.spec.codecKind.codedId session.spec.sourceK numTotal packet.esi.toNat

/-- No two arrivals are packets of the session under one coded id. -/
def Unrepeated (session : SessionParams) (numTotal : Nat) (arrivals : List Arrival) : Prop :=
  arrivals.Pairwise fun earlier later => ∀ packet packet' peer peer',
    Delivers earlier session packet peer → Delivers later session packet' peer' →
      session.codedId numTotal packet ≠ session.codedId numTotal packet'

/-- The decoder was fed the packets of the session among the arrivals `seen`, and has not
reported that it is done. -/
structure TransferDecoderImpl.Absorbed (dec : TransferDecoderImpl eng) (encode : EncodingMap)
    (session : SessionParams) (object : Bytes) (numTotal : Nat) (seen : List Arrival)
    (fed : List (Nat × Bytes)) (reports : List DecodeStatus) : Prop where
  holds : dec.Holds encode object fed reports
  undecided : .decoded ∉ reports
  emittable : ∀ x ∈ fed, Engine.Emittable session.spec.sourceK numTotal x.1
  all : ∀ arrival ∈ seen, ∀ packet peer, Delivers arrival session packet peer →
    ∃ c v, session.codedId numTotal packet = .ok c ∧
      (c, v) ∈ fed
  only : ∀ x ∈ fed, ∃ arrival ∈ seen, ∃ packet peer, Delivers arrival session packet peer ∧
    session.codedId numTotal packet = .ok x.1

section

variable {dec dec' : TransferDecoderImpl eng} {session : SessionParams} {object : Bytes}
  {numTotal : Nat} {seen : List Arrival} {fed : List (Nat × Bytes)} {reports : List DecodeStatus}
  {arrival : Arrival}

/-- An arrival that is no packet of the session. -/
theorem TransferDecoderImpl.Absorbed.skip
    (h : dec.Absorbed encode session object numTotal seen fed reports)
    (hnone : ∀ packet peer, ¬ Delivers arrival session packet peer) :
    dec.Absorbed encode session object numTotal (seen ++ [arrival]) fed reports where
  holds := h.holds
  undecided := h.undecided
  emittable := h.emittable
  all arrival' hmem packet peer hdelivers := by
    rcases List.mem_append.mp hmem with hmem | hmem
    · exact h.all arrival' hmem packet peer hdelivers
    · rw [List.mem_singleton.mp hmem] at hdelivers
      exact absurd hdelivers (hnone packet peer)
  only x hx := by
    obtain ⟨arrival', hmem, hdelivers⟩ := h.only x hx
    exact ⟨arrival', List.mem_append_left _ hmem, hdelivers⟩

/-- An arrival whose packet was fed to the decoder under the id `c`. -/
theorem TransferDecoderImpl.Absorbed.take
    (h : dec.Absorbed encode session object numTotal seen fed reports) {c : Nat} {symbol : Bytes}
    (hholds : dec'.Holds encode object (fed ++ [(c, symbol)]) (reports ++ [.pending]))
    (hc : Engine.Emittable session.spec.sourceK numTotal c) {packet : TransferPacket}
    {peer : SocketAddr} (hdelivers : Delivers arrival session packet peer)
    (hone : ∀ packet peer, Delivers arrival session packet peer →
      session.codedId numTotal packet = .ok c) :
    dec'.Absorbed encode session object numTotal (seen ++ [arrival]) (fed ++ [(c, symbol)])
      (reports ++ [.pending]) where
  holds := hholds
  undecided := by simpa using h.undecided
  emittable x hx := by
    rcases List.mem_append.mp hx with hx | hx
    · exact h.emittable x hx
    · rw [List.mem_singleton.mp hx]
      exact hc
  all arrival' hmem packet peer hdelivers := by
    rcases List.mem_append.mp hmem with hmem | hmem
    · obtain ⟨c', v, hc', hv⟩ := h.all arrival' hmem packet peer hdelivers
      exact ⟨c', v, hc', List.mem_append_left _ hv⟩
    · rw [List.mem_singleton.mp hmem] at hdelivers
      exact ⟨c, symbol, hone packet peer hdelivers, List.mem_append_right _ List.mem_cons_self⟩
  only x hx := by
    rcases List.mem_append.mp hx with hx | hx
    · obtain ⟨arrival', hmem, hdelivers'⟩ := h.only x hx
      exact ⟨arrival', List.mem_append_left _ hmem, hdelivers'⟩
    · rw [List.mem_singleton.mp hx]
      exact ⟨arrival, List.mem_append_right _ List.mem_cons_self, packet, peer, hdelivers,
        hone packet peer hdelivers⟩

/-- What no earlier arrival stood for was not fed. -/
theorem TransferDecoderImpl.Absorbed.new_id
    (h : dec.Absorbed encode session object numTotal seen fed reports)
    (hnew : Unrepeated session numTotal (seen ++ [arrival]))
    {packet : TransferPacket} {peer : SocketAddr} (hdelivers : Delivers arrival session packet peer) :
    ∀ x ∈ fed, session.codedId numTotal packet ≠ .ok x.1 := by
  intro x hx hcoded
  obtain ⟨arrival', hmem, packet', peer', hdelivers', hcoded'⟩ := h.only x hx
  have hapart := (List.pairwise_append.mp hnew).2.2 arrival' hmem arrival List.mem_cons_self
  exact hapart packet' packet peer' peer hdelivers' hdelivers (hcoded'.trans hcoded.symm)

end

/-- The receiver waits in the session, after it has seen `seen`. -/
structure Gathers (encode : EncodingMap) (task : RecvTask) (session : SessionParams)
    (object : Bytes) (numTotal : Nat) (seen : List Arrival) (s : RecvState eng) : Prop where
  inv : RecvInv task s
  active : s.session = some session
  absorbed : ∃ decoder fed reports, s.decoder = some decoder ∧
    decoder.Absorbed encode session object numTotal seen fed reports

section

variable {task : RecvTask} {s : RecvState eng} {session : SessionParams} {object : Bytes}
  {numTotal : Nat} {seen : List Arrival}

theorem foreign_delivers {bytes : Bytes} {peer : SocketAddr}
    (hforeign : Foreign session.sessionId bytes) (packet : TransferPacket) (sender : SocketAddr) :
    ¬ Delivers (.datagram bytes peer) session packet sender := by
  rintro ⟨message, hheard, hpacket⟩
  obtain ⟨_, rfl, _⟩ := transferPacketFromMessage_eq_ok.mp hpacket
  exact hforeign _ (decodeMessage_of_heard hheard) rfl

theorem foreign_ignorable {bytes : Bytes} {peer : SocketAddr} {sessionId : UInt64}
    (hforeign : Foreign sessionId bytes) :
    Ignorable (some sessionId) s (.datagram bytes peer) := by
  match hheard : heard (.datagram bytes peer) with
  | none => exact .malformed hheard
  | some (message, sender) =>
    refine .foreign hheard fun heq => ?_
    exact hforeign message (decodeMessage_of_heard hheard) (Option.some.inj heq)

/-- A datagram of another session changes nothing. -/
theorem Gathers.foreign (h : Gathers encode task session object numTotal seen s) {bytes : Bytes}
    {peer : SocketAddr} (hforeign : Foreign session.sessionId bytes) :
    (step task s (.datagram bytes peer)).halt = none ∧
      Gathers encode task session object numTotal (seen ++ [.datagram bytes peer])
        (step task s (.datagram bytes peer)).state := by
  have hpinned := Pinned.of_active h.inv h.active [.datagram bytes peer]
  obtain ⟨reason, hstep⟩ := (foreign_ignorable hforeign).ignored h.inv hpinned
  obtain ⟨decoder, fed, reports, hdecoder, habsorbed⟩ := h.absorbed
  rw [hstep]
  exact ⟨rfl, h.inv.ignored reason, h.active, decoder, fed, reports, hdecoder,
    habsorbed.skip (foreign_delivers hforeign)⟩

/-- A packet of the transmission is accepted. It completes the object, or the receiver
goes on with its symbol. -/
theorem Gathers.packet (faithful : eng.Faithful encode) (prompt : eng.PromptWhere Again encode)
    (h : Gathers encode task session object numTotal seen s)
    (hcarries : session.spec.Carries object) (htotal : eng.numTotal session.spec = .ok numTotal)
    {packet : TransferPacket} {peer : SocketAddr} {arrival : Arrival}
    (hsent : session.spec.Sent eng encode object packet)
    (hheard : heard arrival = some (packetMessage session.sessionId packet, peer))
    (hesi : packet.esi.toNat < 2 ^ 32)
    (hagain : Again ∨ Unrepeated session numTotal (seen ++ [arrival])) :
    ((step task s arrival).halt = none →
      Gathers encode task session object numTotal (seen ++ [arrival]) (step task s arrival).state) ∧
    (∀ r, (step task s arrival).halt = some r →
      ∃ outcome, r = .ok (.ok outcome) ∧ outcome.object = object) := by
  obtain ⟨decoder, fed, reports, hdecoder, habsorbed⟩ := h.absorbed
  have hspec := h.inv.spec h.active hdecoder
  have ht := (h.inv.dimensions h.active).2.1
  have hcarries' : decoder.spec.Carries object := hspec ▸ hcarries
  have hlength : packet.symbol.length = session.spec.symbolSizeT.toNat := by
    obtain ⟨_, ids, _, _, rfl⟩ := hsent
    exact faithful.symbol_length hcarries.sourceK_pos hcarries.isBlock
  have hread : transferPacketFromMessage (packetMessage session.sessionId packet) session.sessionId
      session.spec.symbolSizeT.toNat = .ok packet := read_packetMessage hlength hesi
  have hdelivers : Delivers arrival session packet peer := ⟨_, hheard, hread⟩
  have hnew : Again ∨ ∀ x ∈ fed, session.codedId numTotal packet ≠ .ok x.1 :=
    hagain.imp id fun hnew => habsorbed.new_id hnew hdelivers
  obtain ⟨decoder', status, c, hadd, hdone, hspec', hc, hemittable, hholds'⟩ :=
    habsorbed.holds.takesPacket faithful prompt hcarries' (hspec ▸ htotal)
      (hspec ▸ habsorbed.emittable) (hspec ▸ hsent) (hspec ▸ hnew)
  rw [hspec] at hc hemittable
  have hadmits := (Pinned.of_active h.inv h.active []).admits rfl
  have hstep : step task s arrival = accept task s session decoder' status packet peer := by
    rw [step_of_heard hheard]
    show onPacket task s (packetMessage session.sessionId packet) session.sessionId peer = _
    rw [onPacket_admitted hadmits h.active hdecoder, hread]
    simp only [hadd]
  have hinv' : RecvInv task (step task s arrival).state := (step_effect task s arrival).preserves h.inv
  rw [hstep] at hinv' ⊢
  rw [accept_state ht] at hinv' ⊢
  rw [accept_halt ht]
  cases hstatus : status with
  | decoded =>
    refine ⟨(fun hgo => nomatch hgo), fun r hr => ?_⟩
    obtain ⟨htook, hagrees⟩ := hholds'
    rw [if_pos rfl, htook.recoverObject_eq faithful (hspec' ▸ hcarries') hagrees (hdone hstatus)] at hr
    exact ⟨_, (Option.some.inj hr).symm, rfl⟩
  | pending =>
    rw [hstatus] at hholds'
    have hone : ∀ packet' sender, Delivers arrival session packet' sender →
        session.codedId numTotal packet' = .ok c := by
      -- the arrival delivers the packet that was accepted and no other
      rintro packet' sender ⟨message, hheard', hpacket⟩
      cases hheard.symm.trans hheard'
      cases hread.symm.trans hpacket
      exact hc
    exact ⟨fun _ => ⟨hinv', h.active, decoder', _, _, rfl, habsorbed.take hholds' hemittable
      hdelivers hone⟩,
      (fun _ hr => nomatch hr)⟩

/-- Source packet `i` stands for the coded id `i`. -/
theorem source_codedId {i : Nat} (hi : i < session.spec.sourceK) :
    session.codedId numTotal (session.spec.packet encode object ⟨i, i⟩) = .ok i := by
  rw [SessionParams.codedId, source_esi hi]
  exact codedId_of_emitted (.source hi)

theorem source_esi_lt (hsmall : eng.SourceIdsFit) (htotal : eng.numTotal session.spec = .ok numTotal)
    {i : Nat} (hi : i < session.spec.sourceK) :
    (session.spec.packet encode object ⟨i, i⟩).esi.toNat < 2 ^ 32 := by
  rw [source_esi hi]
  exact Nat.lt_of_lt_of_le hi (hsmall.sourceK_le htotal)

theorem heard_fitting (faithful : eng.Faithful encode) {config : SendConfig} {plan : SendPlan}
    (hplan : sendPlan eng object session config = .ok (.ok plan))
    (hsize : session.spec.symbolSizeT.toNat ≤ 65478) {packet : TransferPacket}
    (hmem : packet ∈ plan.packets) (peer : SocketAddr) :
    heard (.datagram (packetFrame session.sessionId packet) peer) =
      some (packetMessage session.sessionId packet, peer) :=
  heard_packetFrame faithful hplan hmem (planned_within faithful hplan hsize _
    (List.mem_cons_of_mem _ (List.mem_map_of_mem hmem))) peer

/-- A datagram of a planned packet delivers this packet and no other. -/
theorem delivers_fitting (faithful : eng.Faithful encode) {config : SendConfig} {plan : SendPlan}
    (hplan : sendPlan eng object session config = .ok (.ok plan))
    (hsize : session.spec.symbolSizeT.toNat ≤ 65478) {packet packet' : TransferPacket}
    (hmem : packet ∈ plan.packets) (hesi : packet.esi.toNat < 2 ^ 32) {peer peer' : SocketAddr} :
    Delivers (.datagram (packetFrame session.sessionId packet) peer) session packet' peer' ↔
      packet' = packet ∧ peer' = peer := by
  have hheard := heard_fitting faithful hplan hsize hmem peer
  have hread : transferPacketFromMessage (packetMessage session.sessionId packet) session.sessionId
      session.spec.symbolSizeT.toNat = .ok packet :=
    read_packetMessage (planned_symbol_length faithful hplan hmem) hesi
  constructor
  · rintro ⟨message, hheard', hread'⟩
    cases hheard.symm.trans hheard'
    cases hread.symm.trans hread'
    exact ⟨rfl, rfl⟩
  · rintro ⟨rfl, rfl⟩
    exact ⟨_, hheard, hread⟩

/-- The step lemma. -/
theorem Gathers.next (faithful : eng.Faithful encode) (prompt : eng.PromptWhere Again encode)
    (hsmall : eng.SourceIdsFit) {config : SendConfig} {plan : SendPlan}
    (hplan : sendPlan eng object session config = .ok (.ok plan))
    (hsize : session.spec.symbolSizeT.toNat ≤ 65478)
    (htotal : eng.numTotal session.spec = .ok numTotal)
    (h : Gathers encode task session object numTotal seen s) {arrival : Arrival}
    (hnext : plan.Next session.sessionId arrival)
    (hagain : Again ∨ Unrepeated session numTotal (seen ++ [arrival])) :
    ((step task s arrival).halt = none →
      Gathers encode task session object numTotal (seen ++ [arrival]) (step task s arrival).state) ∧
    (∀ r, (step task s arrival).halt = some r →
      ∃ outcome, r = .ok (.ok outcome) ∧ outcome.object = object) := by
  obtain ⟨bytes, peer, rfl, ⟨packet, hpacket, rfl⟩ | hforeign⟩ := hnext
  · obtain ⟨hcarries, hsent, hsource⟩ := plan_packets_sent faithful hplan
    have hmem : packet ∈ plan.packets := List.mem_append.mpr (hpacket.imp id And.left)
    have hesi : packet.esi.toNat < 2 ^ 32 := by
      rcases hpacket with hpacket | ⟨_, hesi⟩
      · rw [hsource] at hpacket
        obtain ⟨i, hi, rfl⟩ := List.mem_map.mp hpacket
        exact source_esi_lt hsmall htotal (List.mem_range.mp hi)
      · exact hesi
    exact h.packet faithful prompt hcarries htotal (hsent packet hmem)
      (heard_fitting faithful hplan hsize hmem peer) hesi hagain
  · obtain ⟨hgo, hnext⟩ := h.foreign hforeign
    exact ⟨fun _ => hnext, fun r hr => by cases hgo.symm.trans hr⟩

/-- Once all source packets were seen, there is nothing left to wait for. -/
theorem Gathers.done (faithful : eng.Faithful encode) (prompt : eng.PromptWhere Again encode)
    (hsmall : eng.SourceIdsFit) {config : SendConfig} {plan : SendPlan}
    (hplan : sendPlan eng object session config = .ok (.ok plan))
    (hsize : session.spec.symbolSizeT.toNat ≤ 65478)
    (htotal : eng.numTotal session.spec = .ok numTotal)
    (hall : ∀ packet ∈ plan.source, ∃ peer,
      .datagram (packetFrame session.sessionId packet) peer ∈ seen) :
    ¬ Gathers encode task session object numTotal seen s := by
  intro h
  obtain ⟨hcarries, _, hsource⟩ := plan_packets_sent faithful hplan
  obtain ⟨decoder, fed, reports, hdecoder, habsorbed⟩ := h.absorbed
  have hspec := h.inv.spec h.active hdecoder
  refine habsorbed.undecided (habsorbed.holds.decoded_of_sources prompt (hspec ▸ hcarries)
    (hspec ▸ htotal) ?_)
  rw [hspec]
  intro i hi
  -- source packet `i` was delivered under its own id
  have hmem : session.spec.packet encode object ⟨i, i⟩ ∈ plan.source := by
    rw [hsource]
    exact List.mem_map.mpr ⟨i, List.mem_range.mpr hi, rfl⟩
  have hplanned := List.mem_append_left plan.repair hmem
  obtain ⟨peer, hseen⟩ := hall _ hmem
  have hdelivers : Delivers (.datagram (packetFrame session.sessionId
      (session.spec.packet encode object ⟨i, i⟩)) peer) session
      (session.spec.packet encode object ⟨i, i⟩) peer :=
    (delivers_fitting faithful hplan hsize hplanned (source_esi_lt hsmall htotal hi)).mpr ⟨rfl, rfl⟩
  obtain ⟨c, v, hc, hv⟩ := habsorbed.all _ hseen _ _ hdelivers
  cases (source_codedId hi).symm.trans hc
  exact ⟨v, hv⟩

/-! ## The run -/

/-- Behind a plan there is an encoder, and so a scheme. -/
theorem buildsEncoder_of_plan {config : SendConfig} {plan : SendPlan}
    (h : sendPlan eng object session config = .ok (.ok plan)) :
    eng.BuildsEncoder session.spec object := by
  obtain ⟨enc, _, hnew, _, _⟩ := sendPlan_eq_ok h
  obtain ⟨hf, ht, hlength, _⟩ := TransferEncoderImpl.new_eq_ok.mp hnew
  exact ((TransferEncoderImpl.new_iff (validateSpec_eq_ok.mpr ⟨hf, ht⟩) hlength).mp ⟨enc, hnew⟩).2

/-- From the metadata on, the source packets are enough. -/
theorem run_recovers (faithful : eng.Faithful encode) (prompt : eng.PromptWhere Again encode)
    (hsmall : eng.SourceIdsFit) {config : SendConfig} {plan : SendPlan}
    (hplan : sendPlan eng object session config = .ok (.ok plan))
    (hdefault : session.spec.codec = session.spec.codecKind.defaultConfig)
    (hsize : session.spec.symbolSizeT.toNat ≤ 65478)
    (hadmits : Admits task s session.sessionId) {after : List Arrival}
    (hafter : ∀ arrival ∈ after, plan.Next session.sessionId arrival)
    (hall : ∀ packet ∈ plan.source, ∃ peer,
      .datagram (packetFrame session.sessionId packet) peer ∈ after)
    (hagain : Again ∨ ∀ numTotal, eng.numTotal session.spec = .ok numTotal →
      Unrepeated session numTotal after) (peer : SocketAddr) (rest : List Arrival) :
    ∃ outcome,
      (run (step task) s (.datagram (metaFrame session) peer :: (after ++ rest))).halt =
        some (.ok (.ok outcome)) ∧ outcome.object = object := by
  obtain ⟨hcarries, _⟩ := plan_packets_sent faithful hplan
  have hbuilds := buildsEncoder_of_plan hplan
  obtain ⟨numTotal, htotal⟩ := hbuilds.exists_numTotal
  have hvalid : validateSpec session.spec = .ok () :=
    validateSpec_eq_ok.mpr ⟨hcarries.length_pos, hcarries.symbol_pos⟩
  obtain ⟨decoder, hnew⟩ :=
    (TransferDecoderImpl.new_iff hvalid).mpr (prompt.buildsDecoder hcarries hbuilds)
  have hannounces : Announces (.datagram (metaFrame session) peer) session :=
    ⟨_, peer, heard_metaFrame session peer, rfl,
      specFromSessionMeta_of_default hdefault hcarries (Nat.le_trans hsize (by decide))⟩
  rcases step_announced hannounces hadmits with ⟨panic, hpanic, _⟩ | ⟨decoder', hnew', hstep⟩
  · cases hnew.symm.trans hpanic
  · cases hnew.symm.trans hnew'
    rw [establish_eq hannounces.dimensions.2.1] at hstep
    -- the fresh decoder has absorbed nothing, whatever the old one held
    have hfresh : decoder.Absorbed encode session object numTotal [] [] [] :=
      ⟨⟨(TransferDecoderImpl.Constructed.new hnew).took.2, agrees_nil _ _⟩, List.not_mem_nil,
        (fun _ hx => nomatch hx), (fun _ hx => nomatch hx), (fun _ hx => nomatch hx)⟩
    have hgathers : Gathers encode task session object numTotal []
        (step task s (.datagram (metaFrame session) peer)).state := by
      rw [hstep]
      exact ⟨.restarted hannounces hadmits hnew, rfl, decoder, [], [], rfl, hfresh⟩
    have hgo : (step task s (.datagram (metaFrame session) peer)).halt = none := by rw [hstep]
    obtain ⟨r, hr, outcome, rfl, hobject⟩ := run_halts hgathers
      (fun seen s arrival hprefix h => by
        have hmem := hprefix.subset (List.mem_append_right seen (List.mem_singleton_self arrival))
        exact h.next faithful prompt hsmall hplan hsize htotal (hafter arrival hmem)
          (hagain.imp id fun hnew => (hnew numTotal htotal).sublist hprefix.sublist))
      (fun s => Gathers.done faithful prompt hsmall hplan hsize htotal hall)
    -- what follows the last source packet is not read
    refine ⟨outcome, ?_, hobject⟩
    rw [run_cons_continue hgo, after_halt, run_append_of_halt hr]
    exact hr

/-- Each source packet is enough once, so that nothing is repeated. -/
theorem run_recovers_once (faithful : eng.Faithful encode) (prompt : eng.PromptOnce encode)
    (hsmall : eng.SourceIdsFit) {config : SendConfig} {plan : SendPlan}
    (hplan : sendPlan eng object session config = .ok (.ok plan))
    (hdefault : session.spec.codec = session.spec.codecKind.defaultConfig)
    (hsize : session.spec.symbolSizeT.toNat ≤ 65478)
    (hadmits : Admits task s session.sessionId) (peer : SocketAddr) :
    ∃ outcome, (run (step task) s (.datagram (metaFrame session) peer :: plan.source.map
        fun packet => .datagram (packetFrame session.sessionId packet) peer)).halt =
      some (.ok (.ok outcome)) ∧ outcome.object = object := by
  have hafter : ∀ arrival ∈ plan.source.map fun packet =>
      Arrival.datagram (packetFrame session.sessionId packet) peer,
      plan.Next session.sessionId arrival := by
    intro arrival hmem
    obtain ⟨packet, hpacket, rfl⟩ := List.mem_map.mp hmem
    exact ⟨_, peer, rfl, .inl ⟨packet, .inl hpacket, rfl⟩⟩
  have hnew : ∀ numTotal, eng.numTotal session.spec = .ok numTotal →
      Unrepeated session numTotal (plan.source.map fun packet =>
        .datagram (packetFrame session.sessionId packet) peer) := by
    intro numTotal htotal
    obtain ⟨_, _, hsource⟩ := plan_packets_sent faithful hplan
    have hdelivers : ∀ i < session.spec.sourceK, ∀ packet sender, Delivers (.datagram (packetFrame
        session.sessionId (session.spec.packet encode object ⟨i, i⟩)) peer) session packet sender →
        session.codedId numTotal packet = .ok i := by
      intro i hi packet sender hdelivers
      have hmem : session.spec.packet encode object ⟨i, i⟩ ∈ plan.packets := by
        refine List.mem_append_left _ ?_
        rw [hsource]
        exact List.mem_map.mpr ⟨i, List.mem_range.mpr hi, rfl⟩
      rw [((delivers_fitting faithful hplan hsize hmem (source_esi_lt hsmall htotal hi)).mp
        hdelivers).1]
      exact source_codedId hi
    rw [hsource, Unrepeated, List.pairwise_map, List.pairwise_map]
    refine List.pairwise_lt_range.imp_of_mem ?_
    intro i j hi hj hlt packet packet' sender sender' hfirst hsecond heq
    rw [hdelivers i (List.mem_range.mp hi) packet sender hfirst,
      hdelivers j (List.mem_range.mp hj) packet' sender' hsecond] at heq
    cases heq
    exact Nat.lt_irrefl i hlt
  have hrun := run_recovers faithful prompt hsmall hplan hdefault hsize hadmits hafter
    (fun packet hmem => ⟨peer, List.mem_map_of_mem hmem⟩) (.inr hnew) peer []
  rw [List.append_nil] at hrun
  exact hrun

theorem announced_metaFrame {peer : SocketAddr}
    (hspec : specFromSessionMeta (sessionMetaFromSpec session.sessionId session.spec) =
      .ok session.spec) (rest : List Arrival) :
    firstAnnounced (.datagram (metaFrame session) peer :: rest) = some session.sessionId :=
  firstAnnounced_cons_of_some
    (announced_eq_some.mpr ⟨_, peer, heard_metaFrame session peer, rfl, hspec⟩)

theorem firstAnnounced_append {before : List Arrival}
    (h : ∀ arrival ∈ before, ∀ other, ¬ Announces arrival other) (rest : List Arrival) :
    firstAnnounced (before ++ rest) = firstAnnounced rest := by
  induction before with
  | nil => rfl
  | cons arrival before ih =>
    have hnone : announced arrival = none := by
      cases hann : announced arrival with
      | none => rfl
      | some other => exact absurd (announced_eq_some.mp hann) (h arrival List.mem_cons_self other)
    rw [List.cons_append, firstAnnounced_cons_of_none hnone]
    exact ih fun arrival hmem => h arrival (List.mem_cons_of_mem _ hmem)

/-- Before a session is active, and when nothing is of the session, the arrivals before
the metadata are ignorable. -/
theorem next_ignorable (faithful : eng.Faithful encode) {config : SendConfig} {plan : SendPlan}
    (hplan : sendPlan eng object session config = .ok (.ok plan))
    (hsize : session.spec.symbolSizeT.toNat ≤ 65478) {arrival : Arrival}
    (hnext : plan.Next session.sessionId arrival)
    (hidle : s.session = none ∨
      ∀ bytes sender, arrival = .datagram bytes sender → Foreign session.sessionId bytes) :
    Ignorable (some session.sessionId) s arrival := by
  obtain ⟨bytes, peer, rfl, hbytes⟩ := hnext
  rcases hidle with hnone | hforeign
  · rcases hbytes with ⟨packet, hpacket, rfl⟩ | hforeign
    · have hmem : packet ∈ plan.packets := List.mem_append.mpr (hpacket.imp id And.left)
      exact .beforeSession (heard_fitting faithful hplan hsize hmem peer) hnone
    · exact foreign_ignorable hforeign
  · exact foreign_ignorable (hforeign bytes peer rfl)

/-- The receiver is pinned to the session when its metadata is the first one read. -/
theorem pinned_of_first {before rest : List Arrival} {peer : SocketAddr}
    (hspec : specFromSessionMeta (sessionMetaFromSpec session.sessionId session.spec) =
      .ok session.spec)
    (hadmits : Admits task s session.sessionId)
    (hfirst : s.session = none → task.config.expectedSessionId = none →
      ∀ arrival ∈ before, ∀ other, ¬ Announces arrival other) :
    Pinned (some session.sessionId) task s (before ++ .datagram (metaFrame session) peer :: rest) := by
  obtain ⟨hexpected, hactive⟩ := hadmits
  refine ⟨?_, ?_, ?_⟩
  · intro active hs
    rw [hactive active hs]
  · intro expected he
    rw [hexpected expected he]
  · intro hs he
    rw [firstAnnounced_append (hfirst hs he)]
    exact announced_metaFrame hspec rest

/-- What the receiver ignores before the metadata makes no difference to the run. -/
theorem run_before_ignored (faithful : eng.Faithful encode) {config : SendConfig} {plan : SendPlan}
    (hplan : sendPlan eng object session config = .ok (.ok plan))
    (hdefault : session.spec.codec = session.spec.codecKind.defaultConfig)
    (hsize : session.spec.symbolSizeT.toNat ≤ 65478) (hinv : RecvInv task s)
    (hadmits : Admits task s session.sessionId) {before : List Arrival}
    (hbefore : ∀ arrival ∈ before, plan.Next session.sessionId arrival)
    (hfirst : s.session = none → task.config.expectedSessionId = none →
      ∀ arrival ∈ before, ∀ other, ¬ Announces arrival other)
    (hidle : s.session = none ∨
      ∀ bytes sender, .datagram bytes sender ∈ before → Foreign session.sessionId bytes)
    (peer : SocketAddr) (rest : List Arrival) :
    (run (step task) s (before ++ .datagram (metaFrame session) peer :: rest)).halt =
      (run (step task) s (.datagram (metaFrame session) peer :: rest)).halt := by
  have hmeta := specFromSessionMeta_of_default hdefault (plan_packets_sent faithful hplan).1
    (Nat.le_trans hsize (by decide))
  have hpinned : Pinned (some session.sessionId) task s
      (before ++ .datagram (metaFrame session) peer :: rest) :=
    pinned_of_first hmeta hadmits hfirst
  have hignorable : ∀ arrival ∈ before, Ignorable (some session.sessionId) s arrival := by
    intro arrival hmem
    refine next_ignorable faithful hplan hsize (hbefore arrival hmem) ?_
    exact hidle.imp id fun hforeign bytes sender heq => hforeign bytes sender (heq ▸ hmem)
  exact congrArg Prod.snd (run_purged hinv hpinned (.dropAll hignorable _ s))

/-- A receiver that still waits in the session after some arrivals admits it. -/
theorem admits_after_waiting (hinv : RecvInv task s) {active : SessionParams}
    (hs : s.session = some active) {sessionId : UInt64} (hadmits : Admits task s sessionId)
    {before : List Arrival} (hwaits : (run (step task) s before).halt = none) :
    Admits task (run (step task) s before).state sessionId := by
  obtain ⟨active', hs', hid⟩ := sessionId_of_reaches ⟨before, hwaits, rfl⟩ hinv hs
  refine ⟨hadmits.1, fun other hother => ?_⟩
  cases hs'.symm.trans hother
  exact hid.trans (hadmits.2 active hs)

end

/-- For every spec of `TransferSpec::new`, every planned transmission of an object, every
state the receiver reaches without returning that admits the session, and every order of
the arrivals: datagrams of other sessions, the metadata, then all source packets among
any packets of the transmission and datagrams of other sessions. The receiver returns the
object by the last of these source packets, whatever follows. Before the metadata,
packets of the transmission do no harm either, unless they complete an older transmission
of the active session. -/
theorem recovery (faithful : eng.Faithful encode) (prompt : eng.Prompt encode)
    (hsmall : eng.SourceIdsFit) {sessionId : UInt64} {f t : Usize} {kind : CodecKind}
    {spec : TransferSpec} {object : Bytes} {config : SendConfig} {plan : SendPlan}
    {task : RecvTask} {s : RecvState eng} {before after rest : List Arrival} {peer : SocketAddr}
    (hspec : TransferSpec.new f t kind = .ok spec) (hsize : t.toNat ≤ 65478)
    (hplan : sendPlan eng object ⟨sessionId, spec⟩ config = .ok (.ok plan))
    (hreach : Reaches (step task) (RecvState.initial eng) s)
    (hexpected : ∀ expected, task.config.expectedSessionId = some expected → expected = sessionId)
    (hactive : ∀ active, s.session = some active → active.sessionId = sessionId)
    (hbefore : ∀ arrival ∈ before, plan.Next sessionId arrival)
    (hfirst : s.session = none → task.config.expectedSessionId = none →
      ∀ arrival ∈ before, ∀ other, ¬ Announces arrival other)
    (hearly : s.session = none ∨
      (∀ bytes sender, .datagram bytes sender ∈ before → Foreign sessionId bytes) ∨
      (run (step task) s before).halt = none)
    (hafter : ∀ arrival ∈ after, plan.Next sessionId arrival)
    (hall : ∀ packet ∈ plan.source, ∃ peer,
      .datagram (packetFrame sessionId packet) peer ∈ after) :
    ∃ outcome,
      (run (step task) s
        (before ++ .datagram (metaFrame ⟨sessionId, spec⟩) peer :: (after ++ rest))).halt =
          some (.ok (.ok outcome)) ∧ outcome.object = object := by
  obtain ⟨_, _, hspec⟩ := TransferSpec.new_eq_ok.mp hspec
  have hdefault : spec.codec = spec.codecKind.defaultConfig := by
    rw [hspec, TransferSpec.codecKind, defaultConfig_kind]
  have hsize : spec.symbolSizeT.toNat ≤ 65478 := by
    rw [hspec]
    exact hsize
  have hinv := RecvInv.of_reaches hreach (.initial task)
  have hadmits : Admits task s sessionId := ⟨fun _ he => (hexpected _ he).symm, hactive⟩
  have hrecovers : ∀ u : RecvState eng, Admits task u sessionId → ∃ outcome,
      (run (step task) u (.datagram (metaFrame ⟨sessionId, spec⟩) peer :: (after ++ rest))).halt =
        some (.ok (.ok outcome)) ∧ outcome.object = object := fun _ hadmits =>
    run_recovers faithful prompt hsmall hplan hdefault hsize hadmits hafter hall (.inl trivial) peer rest
  have hcases : (s.session = none ∨
        ∀ bytes sender, .datagram bytes sender ∈ before → Foreign sessionId bytes) ∨
      ((∃ active, s.session = some active) ∧ (run (step task) s before).halt = none) := by
    cases hs : s.session with
    | none => exact .inl (.inl rfl)
    | some active =>
      rcases hearly with hnone | hforeign | hwaits
      · cases hs.symm.trans hnone
      · exact .inl (.inr hforeign)
      · exact .inr ⟨⟨active, rfl⟩, hwaits⟩
  rcases hcases with hidle | ⟨⟨active, hs⟩, hwaits⟩
  · have hsame :=
      run_before_ignored faithful hplan hdefault hsize hinv hadmits hbefore hfirst hidle peer
        (after ++ rest)
    obtain ⟨outcome, hhalt, hobject⟩ := hrecovers s hadmits
    exact ⟨outcome, hsame.trans hhalt, hobject⟩
  · -- what came before the metadata only led to another state of the same session
    obtain ⟨outcome, hhalt, hobject⟩ := hrecovers _ (admits_after_waiting hinv hs hadmits hwaits)
    rw [run_append hwaits, after_halt]
    exact ⟨outcome, hhalt, hobject⟩

namespace Repetition

theorem engines_sourceIdsFit : engines.SourceIdsFit where
  raptorQ {k _ _} h := by
    have hrange : 1 ≤ k ∧ k ≤ 56403 := of_decide_eq_true (sysCode_eq_ok.mp h).1
    omega
  raptor10 {k _ _} h := by
    have hrange : 4 ≤ k ∧ k ≤ 8192 := of_decide_eq_true (sysCode_eq_ok.mp h).1
    omega

def plan10 : SendPlan :=
  ⟨[⟨0, 0, [1]⟩, ⟨0, 1, [2]⟩, ⟨0, 2, [3]⟩, ⟨0, 3, [4]⟩], [⟨0, 14, [3]⟩]⟩

/-- All source packets out of order, one of them twice, with the repair packet and junk. -/
def retransmitted10 : List Bytes :=
  [packetFrame 7 ⟨0, 2, [3]⟩, [9, 9], packetFrame 7 ⟨0, 0, [1]⟩, packetFrame 7 ⟨0, 14, [3]⟩,
    packetFrame 7 ⟨0, 0, [1]⟩, packetFrame 7 ⟨0, 3, [4]⟩, packetFrame 7 ⟨0, 1, [2]⟩]

theorem retransmitted10_next :
    ∀ arrival ∈ arrivalsOf retransmitted10, plan10.Next 7 arrival := by
  have hcases : ∀ bytes ∈ retransmitted10, bytes ∈ plan10.source.map (packetFrame 7) ∨
      bytes ∈ plan10.repair.map (packetFrame 7) ∨ bytes = [9, 9] := by decide
  intro arrival hmem
  obtain ⟨bytes, hbytes, rfl⟩ := List.mem_map.mp hmem
  refine ⟨bytes, sender, rfl, ?_⟩
  rcases hcases bytes hbytes with hsource | hrepair | rfl
  · obtain ⟨packet, hpacket, rfl⟩ := List.mem_map.mp hsource
    exact .inl ⟨packet, .inl hpacket, rfl⟩
  · obtain ⟨packet, hpacket, rfl⟩ := List.mem_map.mp hrepair
    have hesi : ∀ packet ∈ plan10.repair, packet.esi.toNat < 2 ^ 32 := by decide
    exact .inl ⟨packet, .inr ⟨hpacket, hesi packet hpacket⟩, rfl⟩
  · exact .inr (foreign_junk 7)

theorem retransmitted10_all : ∀ packet ∈ plan10.source, ∃ peer,
    .datagram (packetFrame 7 packet) peer ∈ arrivalsOf retransmitted10 := by
  have hframes : ∀ packet ∈ plan10.source, packetFrame 7 packet ∈ retransmitted10 := by decide
  intro packet hmem
  exact ⟨sender, List.mem_map_of_mem (hframes packet hmem)⟩

end Repetition

open Repetition in
/-- The receiver was in another transfer under the same id, of one symbol for RaptorQ. -/
theorem recovery_from_activeQ :
    ∃ outcome,
      (run (step openTask) activeQ (arrivalsOf [[9, 9]] ++
        .datagram (metaFrame ⟨7, spec10⟩) sender :: (arrivalsOf retransmitted10 ++ [.nothing]))).halt =
          some (.ok (.ok outcome)) ∧ outcome.object = [1, 2, 3, 4] :=
  recovery engines_faithful engines_prompt engines_sourceIdsFit
    (rfl : TransferSpec.new 4 1 .raptor10 = .ok spec10) (by decide)
    (rfl : sendPlan engines [1, 2, 3, 4] ⟨7, spec10⟩ ⟨1, 1⟩ = .ok (.ok plan10)) activeQ_reached
    (fun _ h => nomatch h) (fun _ h => by cases h; rfl)
    (fun arrival hmem => ⟨[9, 9], sender, List.mem_singleton.mp hmem, .inr (foreign_junk 7)⟩)
    (fun h => nomatch h)
    (.inr (.inl fun _ _ hmem => by cases List.mem_singleton.mp hmem; exact foreign_junk 7))
    retransmitted10_next retransmitted10_all

end FountainTransfer
