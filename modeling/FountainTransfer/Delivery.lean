import FountainTransfer.Pinning
import FountainTransfer.Sending

/-!
# End-to-end safety

A transmission is one call of the sender. The network may lose, repeat and reorder its
datagrams and mix them with others. `Effect.collects` is the step lemma: as long as every
packet of a session carries a symbol of one object, the decoder of that session holds
symbols of this object only.

Results:
1. `delivery_safe`: a receiver that returns an object for the session of a transmission
   returns the object that was sent.
2. `mixed_restart`: two transmissions under one session id can be mixed up, because
   packets name their session and nothing more.
3. `restart_after_metadata`: they are not mixed up when all that arrives after some
   session metadata belongs to one of them.
-/

namespace FountainTransfer

open ErasureCode HaltingMachine

variable {eng : Engines} {encode : EncodingMap}

/-! ## Transmissions -/

/-- One call of the sender: what it sends, and what its socket answers. -/
structure Transmission where
  object : Bytes
  config : SendConfig
  sendTo : SendTo
  progress : Bool

/-- The datagrams a transmission puts on the wire. -/
def Transmission.wire (x : Transmission) (eng : Engines) (session : SessionParams) : List Bytes :=
  (sendObjectWithSocketImpl eng x.sendTo x.object session x.config x.progress).wire

/-- Every emitted ESI is below `2^32`. -/
def Transmission.EsisFit (x : Transmission) (eng : Engines) (session : SessionParams) : Prop :=
  ∀ plan, sendPlan eng x.object session x.config = .ok (.ok plan) →
    ∀ packet ∈ plan.packets, packet.esi.toNat < 2 ^ 32

/-- The bytes do not decode to a message of this session. -/
def Foreign (sessionId : UInt64) (bytes : Bytes) : Prop :=
  ∀ message, decodeMessage bytes = .ok message → message.sessionId ≠ sessionId

/-! ## What a receiver hears of a transmission -/

theorem heard_encode {message : WireMessage} (hfits : wireCode.Fits message)
    (hsize : (wireCode.encode message).length ≤ maxDatagram) (peer : SocketAddr) :
    heard (.datagram (wireCode.encode message) peer) = some (message, peer) := by
  have hdecode := decodeMessage_encode hfits []
  rw [List.append_nil] at hdecode
  simp only [heard, List.take_of_length_le hsize, hdecode]

theorem heard_metaFrame (session : SessionParams) (peer : SocketAddr) :
    heard (.datagram (metaFrame session) peer) =
      some (sessionMetaFromSpec session.sessionId session.spec, peer) := by
  have hsize : (metaFrame session).length ≤ maxDatagram := by
    rw [metaFrame_length]
    decide
  exact heard_encode (sessionMeta_fits _ _) hsize peer

/-- A datagram that is heard was decoded from what the buffer kept of it. -/
theorem decodeMessage_of_heard {bytes : Bytes} {peer sender : SocketAddr} {message : WireMessage}
    (h : heard (.datagram bytes peer) = some (message, sender)) :
    decodeMessage bytes = .ok message := by
  simp only [heard] at h
  split at h
  · cases h
  · next m hdecode =>
    cases h
    exact decodeMessage_of_take hdecode

theorem planned_symbol_length (faithful : eng.Faithful encode) {object : Bytes}
    {session : SessionParams} {config : SendConfig} {plan : SendPlan} {packet : TransferPacket}
    (hplan : sendPlan eng object session config = .ok (.ok plan)) (hmem : packet ∈ plan.packets) :
    packet.symbol.length = session.spec.symbolSizeT.toNat := by
  have hlength := planned_packetFrame_length faithful hplan hmem
  rw [packetFrame_length] at hlength
  exact Nat.add_left_cancel hlength

theorem heard_packetFrame (faithful : eng.Faithful encode) {object : Bytes}
    {session : SessionParams} {config : SendConfig} {plan : SendPlan} {packet : TransferPacket}
    (hplan : sendPlan eng object session config = .ok (.ok plan)) (hmem : packet ∈ plan.packets)
    (hsize : (packetFrame session.sessionId packet).length ≤ maxDatagram) (peer : SocketAddr) :
    heard (.datagram (packetFrame session.sessionId packet) peer) =
      some (packetMessage session.sessionId packet, peer) :=
  heard_encode (packetMessage_fits session.sessionId (planned_symbol_length faithful hplan hmem))
    hsize peer

/-- What is heard of a transmission: its metadata, or one of its packets. -/
theorem heard_of_wire (faithful : eng.Faithful encode) {x : Transmission} {session : SessionParams}
    {bytes : Bytes} (hmem : bytes ∈ x.wire eng session) {peer sender : SocketAddr}
    {message : WireMessage} (h : heard (.datagram bytes peer) = some (message, sender)) :
    message = sessionMetaFromSpec session.sessionId session.spec ∨
      ∃ plan packet, sendPlan eng x.object session x.config = .ok (.ok plan) ∧
        packet ∈ plan.packets ∧ message = packetMessage session.sessionId packet ∧
        session.spec.symbolSizeT.toNat ≤ 65478 := by
  obtain ⟨plan, hplan, hmem, hsize⟩ := planned_of_wire hmem
  rcases List.mem_cons.mp hmem with rfl | hmem
  · have hheard := heard_metaFrame session peer
    cases hheard.symm.trans h
    exact .inl rfl
  · obtain ⟨packet, hpacket, rfl⟩ := List.mem_map.mp hmem
    have hheard := heard_packetFrame faithful hplan hpacket hsize peer
    cases hheard.symm.trans h
    rw [planned_packetFrame_length faithful hplan hpacket, maxDatagram] at hsize
    exact .inr ⟨plan, packet, hplan, hpacket, rfl, by omega⟩

/-- A message that does no harm to the transfer of `object` in `session`. -/
inductive Honest (eng : Engines) (encode : EncodingMap) (session : SessionParams) (object : Bytes)
    (message : WireMessage) : Prop
  | foreign : message.sessionId ≠ session.sessionId → Honest eng encode session object message
  | metadata : message = sessionMetaFromSpec session.sessionId session.spec →
      Honest eng encode session object message
  | packet {packet : TransferPacket} : message = packetMessage session.sessionId packet →
      session.spec.Carries object → session.spec.Sent eng encode object packet →
      packet.esi.toNat < 2 ^ 32 → session.spec.symbolSizeT.toNat ≤ 65478 →
      Honest eng encode session object message

/-- All that is heard of these arrivals is honest. -/
def AllHonest (eng : Engines) (encode : EncodingMap) (session : SessionParams) (object : Bytes)
    (arrivals : List Arrival) : Prop :=
  ∀ arrival ∈ arrivals, ∀ message peer, heard arrival = some (message, peer) →
    Honest eng encode session object message

theorem honest_of_wire (faithful : eng.Faithful encode) {x : Transmission} {session : SessionParams}
    (hfit : x.EsisFit eng session) {bytes : Bytes} (hmem : bytes ∈ x.wire eng session)
    {peer sender : SocketAddr} {message : WireMessage}
    (h : heard (.datagram bytes peer) = some (message, sender)) :
    Honest eng encode session x.object message := by
  rcases heard_of_wire faithful hmem h with hmeta | ⟨plan, packet, hplan, hpacket, hmessage, hsize⟩
  · exact .metadata hmeta
  · obtain ⟨hcarries, hsent, _⟩ := plan_packets_sent faithful hplan
    exact .packet hmessage hcarries (hsent packet hpacket) (hfit plan hplan packet hpacket) hsize

theorem allHonest_of_wire (faithful : eng.Faithful encode) {x : Transmission}
    {session : SessionParams} (hfit : x.EsisFit eng session) {arrivals : List Arrival}
    (h : ∀ bytes peer, Arrival.datagram bytes peer ∈ arrivals →
      bytes ∈ x.wire eng session ∨ Foreign session.sessionId bytes) :
    AllHonest eng encode session x.object arrivals := by
  intro arrival hmem message peer hheard
  cases arrival with
  | datagram bytes sender =>
    rcases h bytes sender hmem with hwire | hforeign
    · exact honest_of_wire faithful hfit hwire hheard
    · exact .foreign (hforeign message (decodeMessage_of_heard hheard))
  | nothing => cases hheard
  | failure e => cases hheard

/-! ## The step lemma -/

/-- The receiver reads the metadata of the session as its own spec. -/
theorem specFromSessionMeta_of_default {session : SessionParams} {object : Bytes}
    (hdefault : session.spec.codec = session.spec.codecKind.defaultConfig)
    (hcarries : session.spec.Carries object) (hsize : session.spec.symbolSizeT.toNat ≤ 65535) :
    specFromSessionMeta (sessionMetaFromSpec session.sessionId session.spec) = .ok session.spec := by
  rw [specFromSessionMeta_of_spec session.sessionId hcarries.length_pos hcarries.symbol_pos
    (Nat.lt_succ_of_le hsize), ← hdefault]

/-- A packet whose ESI fits is read as it was. -/
theorem read_packetMessage {sessionId : UInt64} {packet : TransferPacket} {t : Nat}
    (hlength : packet.symbol.length = t) (hesi : packet.esi.toNat < 2 ^ 32) :
    transferPacketFromMessage (packetMessage sessionId packet) sessionId t = .ok packet :=
  transferPacketFromMessage_eq_ok.mpr ⟨_, rfl, hlength, (esi_through_wire hesi).symm⟩

/-- While the receiver holds the session, its decoder holds symbols of `object` only. -/
def Collects (encode : EncodingMap) (session : SessionParams) (object : Bytes)
    (s : RecvState eng) : Prop :=
  ∀ active, s.session = some active → active.sessionId = session.sessionId →
    specFromSessionMeta (sessionMetaFromSpec session.sessionId session.spec) = .ok active.spec ∧
    ∃ decoder fed reports, s.decoder = some decoder ∧ decoder.Holds encode object fed reports

/-- The receiver holds the session. -/
def HoldsSession (sessionId : UInt64) (s : RecvState eng) : Prop :=
  ∃ active, s.session = some active ∧ active.sessionId = sessionId

section

variable {task : RecvTask} {s : RecvState eng} {session : SessionParams} {object : Bytes}

theorem Collects.restarted {arrival : Arrival} {active : SessionParams}
    {decoder : TransferDecoderImpl eng} (hannounces : Announces arrival active)
    (hhonest : ∀ message peer, heard arrival = some (message, peer) →
      Honest eng encode session object message)
    (hnew : TransferDecoderImpl.new eng active.spec = .ok (.ok decoder)) :
    Collects encode session object (s.restarted active decoder) := by
  rintro _ ⟨⟩ hid
  obtain ⟨message, peer, hheard, hid', hspec⟩ := hannounces
  have htook := (TransferDecoderImpl.Constructed.new hnew).took.2
  refine ⟨?_, decoder, [], [], rfl, htook, agrees_nil _ _⟩
  cases hhonest message peer hheard with
  | foreign hforeign => exact absurd (hid'.trans hid) hforeign
  | metadata hmessage => rw [← hmessage, hspec]
  | packet hmessage => rw [hmessage] at hspec; cases hspec

/-- A packet that was accepted in the session carried a symbol of `object`. -/
theorem Collects.accepted (faithful : eng.Faithful encode)
    (hdefault : session.spec.codec = session.spec.codecKind.defaultConfig)
    {arrival : Arrival} {active : SessionParams} {decoder decoder' : TransferDecoderImpl eng}
    {packet : TransferPacket} {peer : SocketAddr} {status : DecodeStatus}
    (h : Collects encode session object s) (hinv : RecvInv task s)
    (hactive : s.session = some active) (hdecoder : s.decoder = some decoder)
    (hid : active.sessionId = session.sessionId)
    (hdelivers : Delivers arrival active packet peer)
    (hhonest : ∀ message peer, heard arrival = some (message, peer) →
      Honest eng encode session object message)
    (hadd : decoder.addPacket packet = .ok (.ok (decoder', status))) :
    specFromSessionMeta (sessionMetaFromSpec session.sessionId session.spec) = .ok active.spec ∧
    decoder'.spec.Carries object ∧ ∃ fed reports, decoder'.Holds encode object fed reports := by
  obtain ⟨hspec, _, fed, reports, hdecoder', hholds⟩ := h active hactive hid
  cases hdecoder.symm.trans hdecoder'
  obtain ⟨message, hheard, hpacket⟩ := hdelivers
  cases hhonest message peer hheard with
  | foreign hforeign =>
    obtain ⟨_, rfl, _⟩ := transferPacketFromMessage_eq_ok.mp hpacket
    exact absurd hid hforeign
  | metadata hmessage => rw [hmessage] at hpacket; cases hpacket
  | @packet sent hmessage hcarries hsent hesi hsize =>
    rw [hmessage, hid] at hpacket
    obtain ⟨_, hheld, hlength, _⟩ := transferPacketFromMessage_eq_ok.mp hpacket
    have hsymbol : packet.symbol = sent.symbol := (WireMessage.packet.inj hheld).2.2.2.2.symm
    cases (read_packetMessage (hsymbol ▸ hlength) hesi).symm.trans hpacket
    -- both ends use the same spec, so the packet is one of this decoder's object
    have hsame : decoder.spec = session.spec := by
      have hown := specFromSessionMeta_of_default hdefault hcarries (Nat.le_trans hsize (by decide))
      have hread : active.spec = session.spec := Except.ok.inj (hspec.symm.trans hown)
      exact (hinv.spec hactive hdecoder).trans hread
    rw [← hsame] at hcarries hsent
    obtain ⟨hspec', _, _, hholds'⟩ := hholds.addPacket faithful hcarries hsent hadd
    exact ⟨hspec, hspec' ▸ hcarries, _, _, hholds'⟩

/-- One arrival keeps the decoder on the object, and an object that is returned for the
session is the one. -/
theorem Effect.collects (faithful : eng.Faithful encode)
    (hdefault : session.spec.codec = session.spec.codecKind.defaultConfig)
    {arrival : Arrival} {out : RecvOut eng} (he : Effect task s arrival out)
    (hinv : RecvInv task s) (h : Collects encode session object s)
    (hhonest : ∀ message peer, heard arrival = some (message, peer) →
      Honest eng encode session object message) :
    Collects encode session object out.state ∧
      ∀ outcome, out.halt = some (.ok (.ok outcome)) → HoldsSession session.sessionId out.state →
        outcome.object = object := by
  cases he with
  | ended _ => exact ⟨h, (fun _ hok => nomatch hok)⟩
  | ignored _ => exact ⟨h, (fun _ hok => nomatch hok)⟩
  | noDecoder _ _ => exact ⟨h, (fun _ hok => nomatch hok)⟩
  | noScheme _ _ _ => exact ⟨h, (fun _ hok => nomatch hok)⟩
  | notTaken _ _ _ _ => exact ⟨h, (fun _ hok => nomatch hok)⟩
  | established hannounces _ hnew =>
    rw [establish_eq hannounces.dimensions.2.1]
    exact ⟨.restarted hannounces hhonest hnew, (fun _ hok => nomatch hok)⟩
  | @accepted active decoder decoder' packet peer status hactive hdecoder hdelivers hadd =>
    have ht := (hinv.dimensions hactive).2.1
    have hkeeps : active.sessionId = session.sessionId → _ := fun hid =>
      h.accepted faithful hdefault hinv hactive hdecoder hid hdelivers hhonest hadd
    rw [accept_state ht, accept_halt ht]
    constructor
    · intro active' hactive' hid
      cases hactive.symm.trans hactive'
      obtain ⟨hspec, _, fed, reports, hholds⟩ := hkeeps hid
      exact ⟨hspec, decoder', fed, reports, rfl, hholds⟩
    · rintro outcome hok ⟨active', hactive', hid⟩
      cases hactive.symm.trans hactive'
      obtain ⟨_, hcarries, _, _, htook, hagrees⟩ := hkeeps hid
      split at hok
      · split at hok
        · cases hok
        · cases hok
        · next recovered hrecover =>
          cases hok
          have hdone := TransferDecoderImpl.status_of_recoverObject hrecover
          cases hrecover.symm.trans (htook.recoverObject_eq faithful hcarries hagrees hdone)
          rfl
      · cases hok

/-- The run lemma. -/
theorem run_collects (faithful : eng.Faithful encode)
    (hdefault : session.spec.codec = session.spec.codecKind.defaultConfig)
    {arrivals : List Arrival} (hhonest : AllHonest eng encode session object arrivals)
    (hinv : RecvInv task s) (h : Collects encode session object s) {outcome : RecvOutcome}
    (hok : (run (step task) s arrivals).halt = some (.ok (.ok outcome)))
    (hheld : HoldsSession session.sessionId (run (step task) s arrivals).state) :
    outcome.object = object := by
  have hsafe := run_safe (P := fun s => RecvInv task s ∧ Collects encode session object s)
    (Q := fun s (r : RecvEnd) => ∀ outcome : RecvOutcome, r = .ok (.ok outcome) →
      HoldsSession session.sessionId s → outcome.object = object)
    ⟨hinv, h⟩ fun s arrival hmem hs => by
      have heffect := step_effect task s arrival
      obtain ⟨hnext, hreturned⟩ := heffect.collects faithful hdefault hs.1 hs.2 (hhonest arrival hmem)
      exact ⟨fun _ => ⟨heffect.preserves hs.1, hnext⟩,
        fun r hr outcome hr' hheld => hreturned outcome (hr' ▸ hr) hheld⟩
  exact hsafe.2 _ hok outcome rfl hheld

end

/-! ## Safety over any network -/

theorem fromFileAndCli_eq_ok {sessionId : UInt64} {f t : Usize} {kind : CodecKind}
    {session : SessionParams} :
    SessionParams.fromFileAndCli sessionId f t kind = .ok session ↔
      0 < f.toNat ∧ 0 < t.toNat ∧ session = ⟨sessionId, f, t, kind.defaultConfig⟩ := by
  simp only [SessionParams.fromFileAndCli, bind_eq_ok, TransferSpec.new_eq_ok, pure_eq_ok,
    Except.ok.injEq]
  constructor
  · rintro ⟨_, ⟨hf, ht, rfl⟩, rfl⟩
    exact ⟨hf, ht, rfl⟩
  · rintro ⟨hf, ht, rfl⟩
    exact ⟨_, ⟨hf, ht, rfl⟩, rfl⟩

/-- For every session, transmission, configuration of the receiver and sequence of
arrivals in which each datagram is one of the transmission or none of its session: what
is returned for the session is the object. -/
theorem delivery_safe (faithful : eng.Faithful encode) {sessionId : UInt64} {f t : Usize}
    {kind : CodecKind} {session : SessionParams} {x : Transmission} {task : RecvTask}
    {arrivals : List Arrival} {outcome : RecvOutcome}
    (hsession : SessionParams.fromFileAndCli sessionId f t kind = .ok session)
    (hfit : x.EsisFit eng session)
    (harrivals : ∀ bytes peer, Arrival.datagram bytes peer ∈ arrivals →
      bytes ∈ x.wire eng session ∨ Foreign sessionId bytes)
    (hok : (receive eng task arrivals).halt = some (.ok (.ok outcome)))
    (hheld : HoldsSession sessionId (receive eng task arrivals).state) :
    outcome.object = x.object := by
  obtain ⟨_, _, rfl⟩ := fromFileAndCli_eq_ok.mp hsession
  have hdefault : kind.defaultConfig = kind.defaultConfig.kind.defaultConfig := by
    rw [defaultConfig_kind]
  exact run_collects faithful hdefault (allHonest_of_wire faithful hfit harrivals) (.initial task)
    (fun _ h => nomatch h) hok hheld

namespace Repetition

def session10 : SessionParams := ⟨7, spec10⟩

/-- Four source packets and one repair packet. -/
def transmission10 : Transmission := ⟨[1, 2, 3, 4], ⟨1, 1⟩, sendAlways, false⟩

def sender : SocketAddr := ⟨2130706433, 5000⟩

def arrivalsOf (frames : List Bytes) : List Arrival := frames.map (.datagram · sender)

theorem of_mem_arrivalsOf {frames : List Bytes} {P : Bytes → Prop} (h : ∀ frame ∈ frames, P frame)
    {bytes : Bytes} {peer : SocketAddr} (hmem : .datagram bytes peer ∈ arrivalsOf frames) :
    P bytes := by
  obtain ⟨frame, hframe, heq⟩ := List.mem_map.mp hmem
  cases heq
  exact h _ hframe

/-- Source packet 3 comes before the metadata and once more, packet 1 twice, with junk in
between. -/
def frames10 : List Bytes :=
  [packetFrame 7 ⟨0, 3, [4]⟩, metaFrame session10, packetFrame 7 ⟨0, 1, [2]⟩, [9, 9],
    packetFrame 7 ⟨0, 1, [2]⟩, packetFrame 7 ⟨0, 14, [3]⟩, packetFrame 7 ⟨0, 3, [4]⟩,
    packetFrame 7 ⟨0, 2, [3]⟩, packetFrame 7 ⟨0, 0, [1]⟩]

def outcome10 : RecvOutcome := ⟨[1, 2, 3, 4], 6, sender, openTask.listenAddr⟩

theorem transmission10_fits : transmission10.EsisFit engines session10 := by
  intro plan hplan
  cases hplan
  decide

theorem foreign_junk (sessionId : UInt64) : Foreign sessionId [9, 9] := fun _ h => nomatch h

theorem frames10_allowed :
    ∀ bytes ∈ frames10, bytes ∈ transmission10.wire engines session10 ∨ Foreign 7 bytes := by
  have hcases : ∀ bytes ∈ frames10,
      bytes ∈ transmission10.wire engines session10 ∨ bytes = [9, 9] := by decide
  intro bytes hmem
  rcases hcases bytes hmem with hwire | rfl
  · exact .inl hwire
  · exact .inr (foreign_junk 7)

theorem frames10_received :
    (receive engines openTask (arrivalsOf frames10)).halt = some (.ok (.ok outcome10)) := rfl

end Repetition

open Repetition in
theorem delivery_with_losses :
    (receive engines openTask (arrivalsOf frames10)).halt = some (.ok (.ok outcome10)) ∧
      outcome10.object = transmission10.object :=
  ⟨frames10_received,
    delivery_safe engines_faithful (rfl : SessionParams.fromFileAndCli 7 4 1 .raptor10 = _)
      transmission10_fits (fun _ _ hmem => of_mem_arrivalsOf frames10_allowed hmem)
      frames10_received ⟨session10, rfl, rfl⟩⟩

/-! ## Two transmissions under one session id -/

/-- Each session the receiver holds was announced by this metadata. -/
def Belongs (session : SessionParams) (s : RecvState eng) : Prop :=
  ∀ active, s.session = some active → active.sessionId = session.sessionId ∧
    specFromSessionMeta (sessionMetaFromSpec session.sessionId session.spec) = .ok active.spec

/-- The arrivals are datagrams of transmissions of this session. -/
def AllOwn (session : SessionParams) (arrivals : List Arrival) : Prop :=
  ∀ arrival ∈ arrivals, ∀ message peer, heard arrival = some (message, peer) →
    message = sessionMetaFromSpec session.sessionId session.spec ∨
      ∃ packet, message = packetMessage session.sessionId packet

section

variable {task : RecvTask} {s : RecvState eng} {session : SessionParams} {object : Bytes}

theorem Effect.belongs {arrival : Arrival} {out : RecvOut eng} (he : Effect task s arrival out)
    (hinv : RecvInv task s) (h : Belongs session s)
    (hown : ∀ message peer, heard arrival = some (message, peer) →
      message = sessionMetaFromSpec session.sessionId session.spec ∨
        ∃ packet, message = packetMessage session.sessionId packet) :
    Belongs session out.state := by
  rcases he.session hinv with hsame | ⟨active, hannounces, _, hactive⟩
  · intro active hactive
    exact h active (hsame.symm.trans hactive)
  · intro active' hactive'
    cases hactive.symm.trans hactive'
    obtain ⟨message, peer, hheard, hid, hspec⟩ := hannounces
    rcases hown message peer hheard with rfl | ⟨packet, rfl⟩
    · exact ⟨hid.symm, hspec⟩
    · cases hspec

/-- Only a receiver with a session returns an object. -/
theorem Effect.session_of_ok {arrival : Arrival} {out : RecvOut eng} {outcome : RecvOutcome}
    (he : Effect task s arrival out) (hinv : RecvInv task s)
    (hok : out.halt = some (.ok (.ok outcome))) : ∃ active, out.state.session = some active := by
  cases he with
  | ended _ => cases hok
  | ignored _ => cases hok
  | noDecoder hsession _ => exact ⟨_, hsession⟩
  | noScheme _ _ _ => cases hok
  | established hannounces _ _ =>
    rw [establish_eq hannounces.dimensions.2.1]
    exact ⟨_, rfl⟩
  | notTaken _ _ _ _ => cases hok
  | accepted hsession _ _ _ =>
    rw [accept_state (hinv.dimensions hsession).2.1]
    exact ⟨_, hsession⟩

theorem run_belongs {arrivals : List Arrival} (hown : AllOwn session arrivals)
    (hinv : RecvInv task s) (h : Belongs session s) :
    ((run (step task) s arrivals).halt = none →
      RecvInv task (run (step task) s arrivals).state ∧
        Belongs session (run (step task) s arrivals).state) ∧
    (∀ r, (run (step task) s arrivals).halt = some r → ∀ outcome, r = .ok (.ok outcome) →
      HoldsSession session.sessionId (run (step task) s arrivals).state) := by
  refine run_safe (P := fun s => RecvInv task s ∧ Belongs session s)
    (Q := fun s (r : RecvEnd) => ∀ outcome : RecvOutcome, r = .ok (.ok outcome) →
      HoldsSession session.sessionId s) ⟨hinv, h⟩ ?_
  intro s arrival hmem hs
  have heffect := step_effect task s arrival
  have hnext := heffect.belongs hs.1 hs.2 (hown arrival hmem)
  refine ⟨fun _ => ⟨heffect.preserves hs.1, hnext⟩, ?_⟩
  rintro _ hhalt outcome rfl
  obtain ⟨active, hactive⟩ := heffect.session_of_ok hs.1 hhalt
  exact ⟨active, hactive, (hnext active hactive).1⟩

/-- Whatever the receiver collected before, after the metadata of the session it has a
decoder that took nothing yet. -/
theorem collects_after_metadata (hinv : RecvInv task s) (h : Belongs session s)
    (peer : SocketAddr) :
    (∃ panic, (step task s (.datagram (metaFrame session) peer)).halt = some (.error panic)) ∨
    (Collects encode session object (step task s (.datagram (metaFrame session) peer)).state ∧
      (step task s (.datagram (metaFrame session) peer)).halt = none) := by
  have hheard := heard_metaFrame session peer
  have hhonest : ∀ message sender,
      heard (.datagram (metaFrame session) peer) = some (message, sender) →
        Honest eng encode session object message := by
    intro message sender hmessage
    cases hheard.symm.trans hmessage
    exact .metadata rfl
  cases hs : s.session with
  | some active =>
    -- the active session is the announced one, so the metadata is admitted
    obtain ⟨hid, hspec⟩ := h active hs
    have hannounces : Announces (.datagram (metaFrame session) peer) active :=
      ⟨_, peer, hheard, hid.symm, hspec⟩
    have hadmits : Admits task s active.sessionId := (Pinned.of_active hinv hs []).admits rfl
    rcases step_announced hannounces hadmits with ⟨panic, _, hstep⟩ | ⟨decoder, hnew, hstep⟩
    · exact .inl ⟨panic, by rw [hstep]; rfl⟩
    · rw [hstep, establish_eq hannounces.dimensions.2.1]
      exact .inr ⟨.restarted hannounces hhonest hnew, rfl⟩
  | none =>
    -- the receiver may expect another id and ignore the metadata, but then it holds nothing
    have hidle : Collects encode session object s := by
      intro active hactive
      cases hs.symm.trans hactive
    have heffect := step_effect task s (.datagram (metaFrame session) peer)
    generalize step task s (.datagram (metaFrame session) peer) = out at heffect ⊢
    cases heffect with
    | ended hrecv => cases hrecv
    | ignored _ => exact .inr ⟨hidle, rfl⟩
    | noDecoder hsession _ => cases hs.symm.trans hsession
    | noScheme _ _ _ => exact .inl ⟨_, rfl⟩
    | established hannounces _ hnew =>
      rw [establish_eq hannounces.dimensions.2.1]
      exact .inr ⟨.restarted hannounces hhonest hnew, rfl⟩
    | notTaken _ _ _ _ => exact .inl ⟨_, rfl⟩
    | accepted hsession _ _ _ => cases hs.symm.trans hsession

/-- From the metadata on, only the honest arrivals after it count. -/
theorem run_after_metadata (faithful : eng.Faithful encode)
    (hdefault : session.spec.codec = session.spec.codecKind.defaultConfig)
    {after : List Arrival} {peer : SocketAddr} {outcome : RecvOutcome}
    (hhonest : AllHonest eng encode session object after) (hinv : RecvInv task s)
    (h : Belongs session s)
    (hok : (run (step task) s (.datagram (metaFrame session) peer :: after)).halt =
      some (.ok (.ok outcome)))
    (hheld : HoldsSession session.sessionId
      (run (step task) s (.datagram (metaFrame session) peer :: after)).state) :
    outcome.object = object := by
  rcases collects_after_metadata hinv h peer with ⟨panic, hpanic⟩ | ⟨hcollects, hgo⟩
  · rw [run_cons_halt hpanic, hpanic] at hok
    cases hok
  · rw [run_cons_continue hgo, after_halt] at hok
    rw [run_cons_continue hgo, after_state] at hheld
    have hinv' := (step_effect task s (.datagram (metaFrame session) peer)).preserves hinv
    exact run_collects faithful hdefault hhonest hinv' hcollects hok hheld

end

theorem allOwn_of_wire (faithful : eng.Faithful encode) {session : SessionParams}
    {arrivals : List Arrival} (xs : List Transmission)
    (h : ∀ bytes peer, Arrival.datagram bytes peer ∈ arrivals → ∃ x ∈ xs, bytes ∈ x.wire eng session) :
    AllOwn session arrivals := by
  intro arrival hmem message peer hheard
  cases arrival with
  | datagram bytes sender =>
    obtain ⟨x, _, hwire⟩ := h bytes sender hmem
    rcases heard_of_wire faithful hwire hheard with hmeta | ⟨_, packet, _, _, hpacket, _⟩
    · exact .inl hmeta
    · exact .inr ⟨packet, hpacket⟩
  | nothing => cases hheard
  | failure e => cases hheard

theorem restart_with (faithful : eng.Faithful encode) {session : SessionParams}
    (hdefault : session.spec.codec = session.spec.codecKind.defaultConfig) {task : RecvTask}
    {object : Bytes} {before after : List Arrival} {peer : SocketAddr} {outcome : RecvOutcome}
    (hbefore : AllOwn session before) (hafter : AllOwn session after)
    (hhonest : AllHonest eng encode session object after)
    (hwaits : (receive eng task before).halt = none)
    (hok : (receive eng task (before ++ .datagram (metaFrame session) peer :: after)).halt =
      some (.ok (.ok outcome))) :
    outcome.object = object := by
  have hown : AllOwn session (before ++ .datagram (metaFrame session) peer :: after) := by
    intro arrival hmem message sender hheard
    rcases List.mem_append.mp hmem with hmem | hmem
    · exact hbefore arrival hmem message sender hheard
    · rcases List.mem_cons.mp hmem with rfl | hmem
      · cases (heard_metaFrame session peer).symm.trans hheard
        exact .inl rfl
      · exact hafter arrival hmem message sender hheard
  have hidle : Belongs session (RecvState.initial eng) := fun _ h => nomatch h
  have hheld := (run_belongs hown (.initial task) hidle).2 _ hok outcome rfl
  obtain ⟨hinv, hbelongs⟩ := (run_belongs hbefore (.initial task) hidle).1 hwaits
  rw [receive, run_append hwaits, after_halt] at hok
  rw [run_append hwaits, after_state] at hheld
  exact run_after_metadata faithful hdefault hhonest hinv hbelongs hok hheld

/-- For two transmissions of one session, every order of their datagrams and every
delivery of its metadata to a receiver that still waits: when all that arrives later is
of one of the two, an object that is returned is the object of this one. -/
theorem restart_after_metadata (faithful : eng.Faithful encode) {session : SessionParams}
    {a b : Transmission} {task : RecvTask} {before after : List Arrival} {peer : SocketAddr}
    {outcome : RecvOutcome}
    (hdefault : session.spec.codec = session.spec.codecKind.defaultConfig)
    (hfit : a.EsisFit eng session ∧ b.EsisFit eng session)
    (hbefore : ∀ bytes sender, Arrival.datagram bytes sender ∈ before →
      bytes ∈ a.wire eng session ∨ bytes ∈ b.wire eng session)
    (hwaits : (receive eng task before).halt = none)
    (hok : (receive eng task (before ++ .datagram (metaFrame session) peer :: after)).halt =
      some (.ok (.ok outcome))) :
    ((∀ bytes sender, Arrival.datagram bytes sender ∈ after → bytes ∈ a.wire eng session) →
      outcome.object = a.object) ∧
    ((∀ bytes sender, Arrival.datagram bytes sender ∈ after → bytes ∈ b.wire eng session) →
      outcome.object = b.object) := by
  have hown : AllOwn session before := by
    refine allOwn_of_wire faithful [a, b] fun bytes sender hmem => ?_
    rcases hbefore bytes sender hmem with ha | hb
    · exact ⟨a, by simp, ha⟩
    · exact ⟨b, by simp, hb⟩
  have hone : ∀ x : Transmission, x.EsisFit eng session →
      (∀ bytes sender, Arrival.datagram bytes sender ∈ after → bytes ∈ x.wire eng session) →
      outcome.object = x.object := by
    intro x hfit hafter
    have hown' : AllOwn session after := allOwn_of_wire faithful [x]
      fun bytes sender hmem => ⟨x, by simp, hafter bytes sender hmem⟩
    exact restart_with faithful hdefault hown hown'
      (allHonest_of_wire faithful hfit fun bytes sender hmem => .inl (hafter bytes sender hmem))
      hwaits hok
  exact ⟨hone a hfit.1, hone b hfit.2⟩

namespace Repetition

/-- Two symbols of one byte. -/
def sessionPair : SessionParams := ⟨7, ⟨2, 1, CodecKind.raptorQ.defaultConfig⟩⟩

def transmissionA : Transmission := ⟨[1, 2], ⟨0, 0⟩, sendAlways, false⟩

def transmissionB : Transmission := ⟨[3, 4], ⟨0, 0⟩, sendAlways, false⟩

theorem pair_fit :
    transmissionA.EsisFit engines sessionPair ∧ transmissionB.EsisFit engines sessionPair := by
  constructor
  · intro plan hplan
    cases hplan
    decide
  · intro plan hplan
    cases hplan
    decide

/-- The metadata and symbol 0 of the first object. -/
def staleFrames : List Bytes := [metaFrame sessionPair, packetFrame 7 ⟨0, 0, [1]⟩]

/-- Both symbols of the second object. -/
def freshFrames : List Bytes := [packetFrame 7 ⟨0, 1, [4]⟩, packetFrame 7 ⟨0, 0, [3]⟩]

/-- The metadata, symbol 0 of the first object and symbol 1 of the second. -/
def mixedFrames : List Bytes :=
  [metaFrame sessionPair, packetFrame 7 ⟨0, 0, [1]⟩, packetFrame 7 ⟨0, 1, [4]⟩]

theorem staleFrames_sent : ∀ bytes ∈ staleFrames,
    bytes ∈ transmissionA.wire engines sessionPair ∨
      bytes ∈ transmissionB.wire engines sessionPair := by
  decide

theorem freshFrames_sent : ∀ bytes ∈ freshFrames, bytes ∈ transmissionB.wire engines sessionPair := by
  decide

theorem mixedFrames_sent : ∀ bytes ∈ mixedFrames,
    bytes ∈ transmissionA.wire engines sessionPair ∨
      bytes ∈ transmissionB.wire engines sessionPair := by
  decide

def outcomeB : RecvOutcome := ⟨[3, 4], 2, sender, openTask.listenAddr⟩

theorem restarted_received :
    (receive engines openTask (arrivalsOf staleFrames ++
      .datagram (metaFrame sessionPair) sender :: arrivalsOf freshFrames)).halt =
        some (.ok (.ok outcomeB)) := rfl

end Repetition

open Repetition in
/-- The first transmission is cut off, the second is received. -/
theorem restart_of_pair : outcomeB.object = transmissionB.object :=
  (restart_after_metadata engines_faithful rfl pair_fit
    (fun _ _ hmem => of_mem_arrivalsOf staleFrames_sent hmem) rfl restarted_received).2
    fun _ _ hmem => of_mem_arrivalsOf freshFrames_sent hmem

open Repetition in
/-- The engines satisfy every assumption, and yet a packet of each transmission after one
metadata yields `[1, 4]` from `[1, 2]` and `[3, 4]`. -/
theorem mixed_restart :
    engines.Faithful Repetition.encode ∧ engines.Prompt Repetition.encode ∧
    (∀ bytes peer, Arrival.datagram bytes peer ∈ arrivalsOf mixedFrames →
      bytes ∈ transmissionA.wire engines sessionPair ∨
        bytes ∈ transmissionB.wire engines sessionPair) ∧
    transmissionA.object.length = transmissionB.object.length ∧
    ∃ outcome, (receive engines openTask (arrivalsOf mixedFrames)).halt = some (.ok (.ok outcome)) ∧
      outcome.object ≠ transmissionA.object ∧ outcome.object ≠ transmissionB.object := by
  have hmixed : (receive engines openTask (arrivalsOf mixedFrames)).halt =
      some (.ok (.ok ⟨[1, 4], 2, sender, openTask.listenAddr⟩)) := rfl
  exact ⟨engines_faithful, engines_prompt,
    fun _ _ hmem => of_mem_arrivalsOf mixedFrames_sent hmem, rfl, _, hmixed, by decide, by decide⟩

end FountainTransfer
