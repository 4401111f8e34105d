import FountainTransfer.Delivery
import FountainTransfer.FacadeCalls
import FountainTransfer.Ledger

/-!
# Receiver accounting

A receiver with a callback keeps a ledger: every datagram it consumes adds exactly one
event that continues the counts of the events before it, and a decoded object adds the
completion after its last packet. Results:
1. `step_records`: what one datagram adds, in any state the receiver can be in.
2. `accounting_exact`: the counts over every run, how it ends, and that a receiver without
   a callback does the same.

The bytes of a session saturate at `usize::MAX`: `bytes_saturate` is a run in which they
are no longer the number of its packets times `T`.
-/

namespace FountainTransfer

open HaltingMachine

/-- The codec takes the packet in this arrival and reports `status`. -/
def CodecReports {eng : Engines} (s : RecvState eng) (arrival : Arrival) (status : DecodeStatus) :
    Prop :=
  ∃ session decoder decoder' packet peer, s.session = some session ∧ s.decoder = some decoder ∧
    Delivers arrival session packet peer ∧ decoder.addPacket packet = .ok (.ok (decoder', status))

/-- Metadata that the receiver takes, for a `K` and a `T` that the engine has no decoder for. -/
def Unsupported {eng : Engines} (limits : BuildLimits) (task : RecvTask) (s : RecvState eng)
    (arrival : Arrival) : Prop :=
  ∃ session, Announces arrival session ∧ Admits task s session.sessionId ∧
    ¬ limits.decoder session.spec.codec session.spec.sourceK session.spec.symbolSizeT.toNat

/-- A packet of the session on which the engine gives up. -/
def EngineRefuses {eng : Engines} (s : RecvState eng) (arrival : Arrival) : Prop :=
  ∃ session decoder packet peer text, s.session = some session ∧ s.decoder = some decoder ∧
    Delivers arrival session packet peer ∧ decoder.addPacket packet = .error (.engine text)

/-- The events one datagram adds for a receiver in state `s`, after events of this tally,
and how it ends the receive, if it does. -/
inductive Recorded {eng : Engines} (s : RecvState eng) (arrival : Arrival) (tally : Tally) :
    List ProgressEvent → Option RecvEnd → Prop
  | ignored (reason : IgnoredDatagramReason) :
      Recorded s arrival tally [.receiverDatagramIgnored (tally.ignored + 1) reason] none
  | established {session : SessionParams} : Announces arrival session →
      Recorded s arrival tally [.receiverSessionEstablished session.sessionId
        session.spec.transferLengthF session.spec.symbolSizeT
        (divCeil session.spec.transferLengthF.toNat session.spec.symbolSizeT.toNat)] none
  | accepted {f t : Usize} {status : DecodeStatus} : tally.opened = some (f, t) →
      CodecReports s arrival status → status ≠ .decoded →
      Recorded s arrival tally [acceptedEvent f t (tally.accepted + 1)
        (pendingPercent f t (tally.accepted + 1))] none
  | decoded {f t : Usize} {outcome : RecvOutcome} : tally.opened = some (f, t) →
      CodecReports s arrival .decoded → outcome.packetsReceived = tally.accepted + 1 →
      outcome.object.length = f.toNat →
      Recorded s arrival tally [acceptedEvent f t (tally.accepted + 1) 100,
        .receiverDecodeComplete (tally.accepted + 1) (bytesOf t (tally.accepted + 1)) 100]
        (some (.ok (.ok outcome)))

section

variable {eng : Engines} {task : RecvTask} {s : RecvState eng} {events : List ProgressEvent}

/-! ## The state behind the ledger -/

/-- What holds of a waiting receiver and the events it has reported. -/
structure Audited (task : RecvTask) (s : RecvState eng) (events : List ProgressEvent) : Prop where
  inv : RecvInv task s
  undecided : Undecided s
  sized : ∀ {session decoder}, s.session = some session → s.decoder = some decoder →
    decoder.Sized session.spec
  allocatable : ∀ {session}, s.session = some session → session.spec.transferLengthF.toNat ≤ isizeMax
  ledger : Ledger events
  ignored : (tallyOf events).ignored = s.ignoredDatagrams
  opened : ∀ {session}, s.session = some session →
    (tallyOf events).opened = some (session.spec.transferLengthF, session.spec.symbolSizeT) ∧
      (tallyOf events).accepted = s.packetsReceived

theorem Audited.initial (task : RecvTask) : Audited task (RecvState.initial eng) [] where
  inv := .initial task
  undecided := .initial
  sized h := nomatch h
  allocatable h := nomatch h
  ledger := .nil
  ignored := rfl
  opened h := nomatch h

/-- A decoder of announced metadata exists only where its object can be allocated. -/
theorem Announces.allocatable (totals : eng.TotalsFit) {arrival : Arrival}
    {session : SessionParams} {decoder : TransferDecoderImpl eng} (h : Announces arrival session)
    (hnew : TransferDecoderImpl.new eng session.spec = .ok (.ok decoder)) :
    session.spec.transferLengthF.toNat ≤ isizeMax := by
  obtain ⟨hf, ht, hsmall⟩ := h.dimensions
  have hbuilds := (TransferDecoderImpl.new_iff (validateSpec_eq_ok.mpr ⟨hf, ht⟩)).mp ⟨decoder, hnew⟩
  obtain ⟨numTotal, htotal⟩ := hbuilds.exists_numTotal
  exact Nat.le_trans (length_le_sourceK ht) (totals.padded htotal hsmall)

theorem decodePercent_pending {f t : Usize} {n : Nat} (hk : 0 < divCeil f.toNat t.toNat)
    (hn : n ≤ usizeMax / 100) :
    decodePercent n (divCeil f.toNat t.toNat) false = UInt8.ofNat (pendingPercent f t n) := by
  have hle : n * 100 ≤ usizeMax := (Nat.le_div_iff_mul_le (by decide)).mp hn
  have hmul : saturatingMul n 100 = 100 * n := by
    rw [saturatingMul, Nat.min_eq_left hle, Nat.mul_comm]
  rw [decodePercent, pendingPercent, hmul, if_neg (Nat.ne_of_gt hk), Nat.min_comm]
  rfl

/-! ## One datagram -/

/-- The packets an accepted event counts, and their bytes. -/
theorem Audited.bytes (h : Audited task s events) {arrival : Arrival} {session : SessionParams}
    {decoder decoder' : TransferDecoderImpl eng} {packet : TransferPacket} {peer : SocketAddr}
    {status : DecodeStatus} (hsession : s.session = some session)
    (hdecoder : s.decoder = some decoder) (hdelivers : Delivers arrival session packet peer)
    (hadd : decoder.addPacket packet = .ok (.ok (decoder', status))) :
    saturatingAdd s.bytesReceived packet.symbol.length =
      bytesOf session.spec.symbolSizeT (s.packetsReceived + 1) :=
  (h.inv.advanced hsession hdecoder hdelivers hadd).bytes (s := s.advanced decoder' packet) hsession

theorem Audited.accept_pending (h : Audited task s events) (hprogress : task.progress = true)
    (hroom : s.packetsReceived + 1 ≤ usizeMax / 100) {arrival : Arrival} {session : SessionParams}
    {decoder decoder' : TransferDecoderImpl eng} {packet : TransferPacket} {peer : SocketAddr}
    {status : DecodeStatus} (hsession : s.session = some session)
    (hdecoder : s.decoder = some decoder) (hdelivers : Delivers arrival session packet peer)
    (hadd : decoder.addPacket packet = .ok (.ok (decoder', status))) (hpending : status ≠ .decoded) :
    accept task s session decoder' status packet peer = ⟨s.advanced decoder' packet,
      [acceptedEvent session.spec.transferLengthF session.spec.symbolSizeT (s.packetsReceived + 1)
        (pendingPercent session.spec.transferLengthF session.spec.symbolSizeT
          (s.packetsReceived + 1))], none⟩ := by
  obtain ⟨hf, ht, _⟩ := h.inv.dimensions hsession
  have hbytes := h.bytes hsession hdecoder hdelivers hadd
  have hpercent := @decodePercent_pending session.spec.transferLengthF session.spec.symbolSizeT
    (s.packetsReceived + 1) (sourceK_pos hf ht) hroom
  have hstatus : decide (status = .decoded) = false := decide_eq_false hpending
  simp only [accept, expectedSourceSymbols_eq ht, hbytes, RecvTask.report, hprogress, if_true,
    if_neg hpending, hstatus]
  rw [acceptedEvent, ← hpercent, RecvState.advanced, hbytes]
  rfl

theorem Audited.accept_decoded (h : Audited task s events) (sized : eng.DataSized)
    (reports : eng.ReportsStatus) (hprogress : task.progress = true)
    {arrival : Arrival} {session : SessionParams}
    {decoder decoder' : TransferDecoderImpl eng} {packet : TransferPacket} {peer : SocketAddr}
    (hsession : s.session = some session)
    (hdecoder : s.decoder = some decoder) (hdelivers : Delivers arrival session packet peer)
    (hadd : decoder.addPacket packet = .ok (.ok (decoder', .decoded))) :
    ∃ object : Bytes, object.length = session.spec.transferLengthF.toNat ∧
      accept task s session decoder' .decoded packet peer = ⟨s.advanced decoder' packet,
        [acceptedEvent session.spec.transferLengthF session.spec.symbolSizeT (s.packetsReceived + 1) 100,
          .receiverDecodeComplete (s.packetsReceived + 1)
            (bytesOf session.spec.symbolSizeT (s.packetsReceived + 1)) 100],
        some (.ok (.ok ⟨object, s.packetsReceived + 1, peer, task.listenAddr⟩))⟩ := by
  obtain ⟨hf, ht, _⟩ := h.inv.dimensions hsession
  have hbytes := h.bytes hsession hdecoder hdelivers hadd
  obtain ⟨_, _, htook, hundecided⟩ := h.undecided decoder hdecoder
  obtain ⟨object, hobject, hrecover⟩ := ((h.sized hsession hdecoder).addPacket hadd).recoverObject
    sized (htook.reportsStatus reports hundecided hadd)
  have hroom : withCapacity session.spec.transferLengthF.toNat = .ok () :=
    withCapacity_eq_ok.mpr (h.allocatable hsession)
  rw [hroom] at hrecover
  have hrecover : decoder'.recoverObject = .ok (.ok object) := hrecover
  refine ⟨object, hobject, ?_⟩
  simp only [accept, expectedSourceSymbols_eq ht, hbytes, RecvTask.report, hprogress, if_true,
    hrecover, RecvState.advanced]
  rfl

theorem emitIgnored_events (hprogress : task.progress = true) (reason : IgnoredDatagramReason) :
    (emitIgnored task s reason).events = [.receiverDatagramIgnored (s.ignoredDatagrams + 1) reason] := by
  rw [emitIgnored, RecvTask.report, if_pos hprogress]

theorem establish_events (hprogress : task.progress = true) {session : SessionParams}
    {decoder : TransferDecoderImpl eng} (ht : 0 < session.spec.symbolSizeT.toNat) :
    (establish task s session decoder).events = [.receiverSessionEstablished session.sessionId
      session.spec.transferLengthF session.spec.symbolSizeT
      (divCeil session.spec.transferLengthF.toNat session.spec.symbolSizeT.toNat)] := by
  rw [establish_eq ht, RecvTask.report, if_pos hprogress]
  rfl

/-- A datagram is recorded, unless it makes the receiver panic. -/
theorem Effect.records (sized : eng.DataSized) (reports : eng.ReportsStatus)
    {bytes : Bytes} {peer : SocketAddr} {out : RecvOut eng}
    (he : Effect task s (.datagram bytes peer) out) (h : Audited task s events)
    (hprogress : task.progress = true) (hroom : s.packetsReceived + 1 ≤ usizeMax / 100) :
    (∃ panic, out.halt = some (.error panic) ∧ out.events = []) ∨
      Recorded s (.datagram bytes peer) (tallyOf events) out.events out.halt := by
  cases he with
  | ended hrecv => cases hrecv
  | ignored reason =>
    rw [emitIgnored_events hprogress, ← h.ignored]
    exact .inr (.ignored reason)
  | noDecoder _ _ => exact .inl ⟨_, rfl, rfl⟩
  | noScheme _ _ _ => exact .inl ⟨_, rfl, rfl⟩
  | established hannounces _ _ =>
    have ht := hannounces.dimensions.2.1
    rw [establish_events hprogress ht, establish_eq ht]
    exact .inr (.established hannounces)
  | notTaken _ _ _ _ => exact .inl ⟨_, rfl, rfl⟩
  | @accepted session decoder decoder' packet sender status hsession hdecoder hdelivers hadd =>
    obtain ⟨hopened, hcount⟩ := h.opened hsession
    have hreports : CodecReports s (.datagram bytes peer) status :=
      ⟨session, decoder, decoder', packet, sender, hsession, hdecoder, hdelivers, hadd⟩
    by_cases hstatus : status = .decoded
    · subst hstatus
      obtain ⟨object, hobject, haccept⟩ :=
        h.accept_decoded sized reports hprogress hsession hdecoder hdelivers hadd
      rw [haccept, ← hcount]
      exact .inr (.decoded hopened hreports rfl hobject)
    · rw [h.accept_pending hprogress hroom hsession hdecoder hdelivers hadd hstatus, ← hcount]
      exact .inr (.accepted hopened hreports hstatus)

/-- A receiver that goes on keeps its ledger. -/
theorem Effect.audited (totals : eng.TotalsFit) {arrival : Arrival} {out : RecvOut eng}
    (he : Effect task s arrival out) (h : Audited task s events) (hprogress : task.progress = true)
    (hroom : s.packetsReceived + 1 ≤ usizeMax / 100) (hgo : out.halt = none) :
    Audited task out.state (events ++ out.events) ∧
      out.state.packetsReceived ≤ s.packetsReceived + 1 := by
  have hinv := he.preserves h.inv
  have hundecided := he.undecided h.inv h.undecided hgo
  cases he with
  | ended _ => cases hgo
  | ignored reason =>
    rw [emitIgnored_events hprogress]
    have hevent : Carries (tallyOf events) (.receiverDatagramIgnored (s.ignoredDatagrams + 1) reason) :=
      h.ignored ▸ .ignored reason
    refine ⟨⟨hinv, hundecided, h.sized, h.allocatable, h.ledger.record hevent, ?_, ?_⟩, Nat.le_succ _⟩
    · rw [tallyOf_append_singleton]
      exact congrArg (· + 1) h.ignored
    · intro session hsession
      rw [tallyOf_append_singleton]
      exact h.opened hsession
  | noDecoder _ _ => cases hgo
  | noScheme _ _ _ => cases hgo
  | @established session decoder hannounces hadmits hnew =>
    have ht := hannounces.dimensions.2.1
    rw [establish_events hprogress ht]
    rw [establish_eq ht] at hinv hundecided ⊢
    refine ⟨⟨hinv, hundecided, ?_, ?_, h.ledger.record (.established _ _ _), ?_, ?_⟩, Nat.zero_le _⟩
    · rintro _ _ ⟨⟩ ⟨⟩
      exact (TransferDecoderImpl.Constructed.new hnew).sized
    · rintro _ ⟨⟩
      exact hannounces.allocatable totals hnew
    · rw [tallyOf_append_singleton]
      exact h.ignored
    · rintro _ ⟨⟩
      rw [tallyOf_append_singleton]
      exact ⟨rfl, rfl⟩
  | notTaken _ _ _ _ => cases hgo
  | @accepted session decoder decoder' packet sender status hsession hdecoder hdelivers hadd =>
    have hstatus : status ≠ .decoded := by
      intro hdone
      rw [accept_halt (h.inv.dimensions hsession).2.1, if_pos hdone] at hgo
      cases hgo
    obtain ⟨hopened, hcount⟩ := h.opened hsession
    rw [h.accept_pending hprogress hroom hsession hdecoder hdelivers hadd hstatus]
      at hinv hundecided ⊢
    have hevent : Carries (tallyOf events) (acceptedEvent session.spec.transferLengthF
        session.spec.symbolSizeT (s.packetsReceived + 1) (pendingPercent session.spec.transferLengthF
          session.spec.symbolSizeT (s.packetsReceived + 1))) := hcount ▸ .accepted hopened
    refine ⟨⟨hinv, hundecided, ?_, h.allocatable, h.ledger.record hevent, ?_, ?_⟩, Nat.le_refl _⟩
    · rintro session' _ hsession' ⟨⟩
      cases hsession.symm.trans hsession'
      exact (h.sized hsession hdecoder).addPacket hadd
    · rw [tallyOf_append_singleton]
      exact h.ignored
    · intro session' hsession'
      cases hsession.symm.trans hsession'
      rw [tallyOf_append_singleton]
      exact ⟨hopened, congrArg (· + 1) hcount⟩

/-! ## Panics -/

theorem engineCall_eq_error {α : Type} {result : Except String α} {panic : Panic}
    (h : engineCall result = .error panic) : ∃ text, panic = .engine text := by
  cases result with
  | ok _ => cases h
  | error text =>
    cases h
    exact ⟨text, rfl⟩

theorem BlockDecoder.addCodedVector_panics {Config : Type} {ops : DataOperators}
    {engine : Engine ops.Operator Config} {dec : BlockDecoder engine} {c : Nat} {symbol : Bytes}
    {panic : Panic} (h : dec.addCodedVector c symbol = .error panic) :
    ∃ text, panic = .engine text := by
  rcases bind_eq_error.mp h with hadd | ⟨_, _, h⟩
  · exact engineCall_eq_error hadd
  · cases h

theorem TransferDecoderImpl.feed_panics {dec : TransferDecoderImpl eng} {c : Nat} {symbol : Bytes}
    {panic : Panic} (h : dec.feed c symbol = .error panic) : ∃ text, panic = .engine text := by
  cases dec with
  | raptorQ dec spec =>
    rcases bind_eq_error.mp h with hadd | ⟨_, _, h⟩
    · exact BlockDecoder.addCodedVector_panics hadd
    · cases h
  | raptor10 dec spec =>
    rcases bind_eq_error.mp h with hadd | ⟨_, _, h⟩
    · exact BlockDecoder.addCodedVector_panics hadd
    · cases h

/-- Only the engine panics on a packet that was read for the session. -/
theorem Audited.addPacket_panics (h : Audited task s events) (totals : eng.TotalsFit)
    {arrival : Arrival} {session : SessionParams} {decoder : TransferDecoderImpl eng}
    {packet : TransferPacket} {peer : SocketAddr} {panic : Panic}
    (hdecoder : s.decoder = some decoder) (hdelivers : Delivers arrival session packet peer)
    (hpanic : decoder.addPacket packet = .error panic) : ∃ text, panic = .engine text := by
  obtain ⟨_, _, hread⟩ := hdelivers
  obtain ⟨esi, _, _, hesi⟩ := transferPacketFromMessage_eq_ok.mp hread
  have hsmall : packet.esi.toNat < 2 ^ 32 := by
    rw [hesi, UInt32.toNat_toUInt64]
    exact esi.toNat_lt
  obtain ⟨_, _, htook, _⟩ := h.undecided decoder hdecoder
  obtain ⟨c, hc⟩ := codedId_of_u32 totals htook.2.2.1 hsmall
  by_cases hwell : decoder.WellFormed packet
  · rw [TransferDecoderImpl.addPacket_eq hwell, hc, ok_bind] at hpanic
    rcases bind_eq_error.mp hpanic with hfeed | ⟨_, _, h⟩
    · exact TransferDecoderImpl.feed_panics hfeed
    · cases h
  · obtain ⟨e, he⟩ := TransferDecoderImpl.addPacket_rejects hwell
    cases he.symm.trans hpanic

/-- A receiver panics at most on metadata of an unsupported session, and where the engine
refuses a packet. -/
theorem Effect.panics (sized : eng.DataSized) (reports : eng.ReportsStatus)
    (totals : eng.TotalsFit) {limits : BuildLimits} (builds : eng.Builds limits)
    {arrival : Arrival} {out : RecvOut eng}
    (he : Effect task s arrival out) (h : Audited task s events) (hprogress : task.progress = true)
    {panic : Panic} (hhalt : out.halt = some (.error panic)) :
    Unsupported limits task s arrival ∨ EngineRefuses s arrival := by
  cases he with
  | ended _ => cases hhalt
  | ignored _ => cases hhalt
  | noDecoder hsession hdecoder => cases hsession.symm.trans (h.inv.together.mpr hdecoder)
  | @noScheme session _ hannounces hadmits hnew =>
    obtain ⟨hf, ht, _⟩ := hannounces.dimensions
    have hvalid : validateSpec session.spec = .ok () := validateSpec_eq_ok.mpr ⟨hf, ht⟩
    refine .inl ⟨_, hannounces, hadmits, fun hsupported => ?_⟩
    obtain ⟨decoder, hbuilt⟩ := (TransferDecoderImpl.new_iff hvalid).mpr
      (builds.decoder_iff.mpr hsupported)
    cases hnew.symm.trans hbuilt
  | established hannounces _ _ =>
    rw [establish_eq hannounces.dimensions.2.1] at hhalt
    cases hhalt
  | @notTaken session decoder packet peer _ hsession hdecoder hdelivers hadd =>
    cases hhalt
    obtain ⟨text, rfl⟩ := h.addPacket_panics totals hdecoder hdelivers hadd
    exact .inr ⟨session, decoder, packet, peer, text, hsession, hdecoder, hdelivers, hadd⟩
  | @accepted session decoder decoder' packet sender status hsession hdecoder hdelivers hadd =>
    by_cases hstatus : status = .decoded
    · subst hstatus
      obtain ⟨_, _, haccept⟩ :=
        h.accept_decoded sized reports hprogress hsession hdecoder hdelivers hadd
      rw [haccept] at hhalt
      cases hhalt
    · rw [accept_halt (h.inv.dimensions hsession).2.1, if_neg hstatus] at hhalt
      cases hhalt

/-! ## Whole runs -/

theorem receive_audited (totals : eng.TotalsFit) (hprogress : task.progress = true)
    {arrivals : List Arrival} (hlength : arrivals.length ≤ usizeMax / 100)
    (hgo : (receive eng task arrivals).halt = none) :
    Audited task (receive eng task arrivals).state (receive eng task arrivals).events ∧
      (receive eng task arrivals).state.packetsReceived ≤ arrivals.length := by
  have hall := run_traced (P := fun seen s events => seen.length ≤ usizeMax / 100 →
      Audited task s events ∧ s.packetsReceived ≤ seen.length)
    (fun _ => ⟨.initial task, Nat.le_refl 0⟩) (fun seen s events arrival h hgo hseen => by
      rw [List.length_append, List.length_singleton] at hseen ⊢
      obtain ⟨haudited, hcount⟩ := h (Nat.le_of_succ_le hseen)
      have hroom : s.packetsReceived + 1 ≤ usizeMax / 100 :=
        Nat.le_trans (Nat.succ_le_succ hcount) hseen
      obtain ⟨hnext, hmore⟩ :=
        (step_effect task s arrival).audited totals haudited hprogress hroom hgo
      exact ⟨hnext, Nat.le_trans hmore (Nat.succ_le_succ hcount)⟩) arrivals hgo
  exact hall hlength

/-- What a datagram adds to a run that waits for it. -/
theorem receive_records (sized : eng.DataSized) (reports : eng.ReportsStatus)
    (totals : eng.TotalsFit) {limits : BuildLimits} (builds : eng.Builds limits)
    (hprogress : task.progress = true)
    {before : List Arrival} {bytes : Bytes} {peer : SocketAddr}
    (hlength : (before ++ [Arrival.datagram bytes peer]).length ≤ usizeMax / 100)
    (hgo : (receive eng task before).halt = none) :
    ((Unsupported limits task (receive eng task before).state (.datagram bytes peer) ∨
        EngineRefuses (receive eng task before).state (.datagram bytes peer)) ∧
      (∃ panic, (receive eng task (before ++ [.datagram bytes peer])).halt = some (.error panic)) ∧
      (receive eng task (before ++ [.datagram bytes peer])).events =
        (receive eng task before).events) ∨
    ∃ events, (receive eng task (before ++ [.datagram bytes peer])).events =
        (receive eng task before).events ++ events ∧
      Recorded (receive eng task before).state (.datagram bytes peer)
        (tallyOf (receive eng task before).events) events
        (receive eng task (before ++ [.datagram bytes peer])).halt := by
  rw [List.length_append, List.length_singleton] at hlength
  obtain ⟨haudited, hcount⟩ := receive_audited totals hprogress (Nat.le_of_succ_le hlength) hgo
  have hroom : (receive eng task before).state.packetsReceived + 1 ≤ usizeMax / 100 :=
    Nat.le_trans (Nat.succ_le_succ hcount) hlength
  have hrun : receive eng task (before ++ [.datagram bytes peer]) =
      (step task (receive eng task before).state (.datagram bytes peer)).after
        (receive eng task before).events := run_concat hgo
  rw [hrun]
  have heffect := step_effect task (receive eng task before).state (.datagram bytes peer)
  rcases heffect.records sized reports haudited hprogress hroom with
    ⟨panic, hpanic, hnone⟩ | hrecorded
  · refine .inl ⟨heffect.panics sized reports totals builds haudited hprogress hpanic,
      ⟨panic, hpanic⟩, ?_⟩
    rw [after_events, hnone, List.append_nil]
  · exact .inr ⟨_, rfl, hrecorded⟩

/-- How a run stands: it is not done, or the last packet completed the object. -/
inductive Stands (events : List ProgressEvent) (halt : Option RecvEnd) : Prop
  | undone : Ledger events → (∀ outcome, halt ≠ some (.ok (.ok outcome))) → Stands events halt
  | done {front : List ProgressEvent} {f t : Usize} {outcome : RecvOutcome} : Ledger front →
      (tallyOf front).opened = some (f, t) →
      events = front ++ [acceptedEvent f t ((tallyOf front).accepted + 1) 100,
        .receiverDecodeComplete ((tallyOf front).accepted + 1)
          (bytesOf t ((tallyOf front).accepted + 1)) 100] →
      halt = some (.ok (.ok outcome)) → outcome.packetsReceived = (tallyOf front).accepted + 1 →
      outcome.object.length = f.toNat → Stands events halt

theorem Recorded.stands {arrival : Arrival} {more : List ProgressEvent} {halt : Option RecvEnd}
    (h : Recorded s arrival (tallyOf events) more halt) (hledger : Ledger events) :
    Stands (events ++ more) halt := by
  cases h with
  | ignored reason => exact .undone (hledger.record (.ignored reason)) fun _ h => nomatch h
  | established _ => exact .undone (hledger.record (.established _ _ _)) fun _ h => nomatch h
  | accepted hopened _ _ => exact .undone (hledger.record (.accepted hopened)) fun _ h => nomatch h
  | decoded hopened _ hcount hobject => exact .done hledger hopened rfl rfl hcount hobject

theorem receive_stands (sized : eng.DataSized) (reports : eng.ReportsStatus)
    (totals : eng.TotalsFit) {limits : BuildLimits} (builds : eng.Builds limits)
    (hprogress : task.progress = true)
    {arrivals : List Arrival} (hlength : arrivals.length ≤ usizeMax / 100) :
    Stands (receive eng task arrivals).events (receive eng task arrivals).halt := by
  cases hhalt : (receive eng task arrivals).halt with
  | none =>
    have haudited := (receive_audited totals hprogress hlength hhalt).1
    exact .undone haudited.ledger fun _ h => nomatch h
  | some result =>
    obtain ⟨before, arrival, after, rfl, hgo, _, hrun⟩ := run_last hhalt
    have hsame : receive eng task (before ++ arrival :: after) = receive eng task (before ++ [arrival]) :=
      hrun.trans (run_concat hgo).symm
    have hshort : (before ++ [arrival]).length ≤ usizeMax / 100 := by
      rw [List.length_append, List.length_cons] at hlength
      rw [List.length_append, List.length_singleton]
      omega
    have hbefore : before.length ≤ usizeMax / 100 :=
      Nat.le_trans (List.length_append ▸ Nat.le_add_right _ _) hshort
    have hledger := (receive_audited totals hprogress hbefore hgo).1.ledger
    rw [← hhalt, hsame]
    cases arrival with
    | datagram bytes peer =>
      rcases receive_records sized reports totals builds hprogress hshort hgo with
        ⟨_, ⟨panic, hpanic⟩, hevents⟩ | ⟨events, hevents, hrecorded⟩
      · rw [hevents, hpanic]
        exact .undone hledger fun _ h => nomatch h
      · rw [hevents]
        exact hrecorded.stands hledger
    | nothing =>
      have hstop : receive eng task (before ++ [.nothing]) = _ := run_concat hgo
      rw [hstop, after_events]
      exact (List.append_nil _).symm ▸ .undone hledger fun _ h => nomatch h
    | failure e =>
      have hstop : receive eng task (before ++ [.failure e]) = _ := run_concat hgo
      rw [hstop, after_events]
      exact (List.append_nil _).symm ▸ .undone hledger fun _ h => nomatch h

/-! ## Without a callback -/

/-- The same task without a callback. -/
def RecvTask.muted (task : RecvTask) : RecvTask := { task with progress := false }

/-- The same outcome with no events. -/
def silenced (out : RecvOut eng) : RecvOut eng := ⟨out.state, [], out.halt⟩

theorem accept_muted (session : SessionParams) (decoder : TransferDecoderImpl eng)
    (status : DecodeStatus) (packet : TransferPacket) (peer : SocketAddr) :
    accept task.muted s session decoder status packet peer =
      silenced (accept task s session decoder status packet peer) := by
  unfold accept
  split
  · rfl
  · dsimp only
    split
    · split <;> rfl
    · rfl

theorem onSessionMeta_muted (message : WireMessage) (sessionId : UInt64) :
    onSessionMeta task.muted s message sessionId =
      silenced (onSessionMeta task s message sessionId) := by
  have hconfig : task.muted.config = task.config := rfl
  unfold onSessionMeta
  rw [hconfig]
  split
  · rfl
  · split
    · rfl
    · split
      · rfl
      · next spec hspec =>
        split
        · rfl
        · rfl
        · obtain ⟨_, ht⟩ := validateSpec_eq_ok.mp (validateSpec_of_meta hspec)
          rw [establish_eq ht, establish_eq ht]
          rfl

theorem onPacket_muted (message : WireMessage) (sessionId : UInt64) (peer : SocketAddr) :
    onPacket task.muted s message sessionId peer =
      silenced (onPacket task s message sessionId peer) := by
  have hconfig : task.muted.config = task.config := rfl
  unfold onPacket
  rw [hconfig]
  split
  · rfl
  · split
    · rfl
    · split
      · rfl
      · split
        · rfl
        · split
          · rfl
          · split
            · rfl
            · rfl
            · exact accept_muted _ _ _ _ _

theorem step_muted (arrival : Arrival) :
    step task.muted s arrival = silenced (step task s arrival) := by
  have hconfig : task.muted.config = task.config := rfl
  unfold step
  rw [hconfig]
  split
  · rfl
  · split
    · rfl
    · next message _ =>
      cases message with
      | sessionMeta => exact onSessionMeta_muted _ _
      | packet => exact onPacket_muted _ _ _

theorem receive_muted (arrivals : List Arrival) :
    receive eng task.muted arrivals = silenced (receive eng task arrivals) := by
  have hall : ∀ (arrivals : List Arrival) (s : RecvState eng),
      run (step task.muted) s arrivals = silenced (run (step task) s arrivals) := by
    intro arrivals
    induction arrivals with
    | nil => exact fun _ => rfl
    | cons arrival rest ih =>
      intro s
      have hstep := @step_muted _ task s arrival
      have hhalt : (step task.muted s arrival).halt = (step task s arrival).halt := by
        rw [hstep]
        rfl
      cases hgo : (step task s arrival).halt with
      | some r => rw [run_cons_halt hgo, run_cons_halt (hhalt.trans hgo), hstep]
      | none =>
        rw [run_cons_continue hgo, run_cons_continue (hhalt.trans hgo), hstep]
        exact congrArg (Out.after · []) (ih _)
  exact hall arrivals _

/-! ## Exact accounting -/

/-- The accounting of the run over `arrivals`. -/
structure ExactAccounting (eng : Engines) (limits : BuildLimits) (task : RecvTask)
    (arrivals : List Arrival) : Prop where
  /-- Every consumed datagram adds one event, and the last one also the completion. -/
  each : ∀ before bytes peer, before ++ [.datagram bytes peer] <+: arrivals →
    (receive eng task before).halt = none →
    ((Unsupported limits task (receive eng task before).state (.datagram bytes peer) ∨
        EngineRefuses (receive eng task before).state (.datagram bytes peer)) ∧
      (∃ panic, (receive eng task (before ++ [.datagram bytes peer])).halt = some (.error panic)) ∧
      (receive eng task (before ++ [.datagram bytes peer])).events =
        (receive eng task before).events) ∨
    ∃ events, (receive eng task (before ++ [.datagram bytes peer])).events =
        (receive eng task before).events ++ events ∧
      Recorded (receive eng task before).state (.datagram bytes peer)
        (tallyOf (receive eng task before).events) events
        (receive eng task (before ++ [.datagram bytes peer])).halt
  ignored : ∃ n, (receive eng task arrivals).events.filterMap (·.ignoredCount) =
    (List.range n).map (· + 1)
  sessions : ∀ before sessionId f t expected between after,
    (receive eng task arrivals).events =
      before ++ .receiverSessionEstablished sessionId f t expected :: (between ++ after) →
    (∀ event ∈ between, ¬ event.establishes) →
    expected = divCeil f.toNat t.toNat ∧ Ascends f t between
  completes : (∃ event ∈ (receive eng task arrivals).events, event.completes) ↔
    ∃ outcome, (receive eng task arrivals).halt = some (.ok (.ok outcome))
  /-- The completion is the last event and the only one of its kind. -/
  last : ∀ outcome, (receive eng task arrivals).halt = some (.ok (.ok outcome)) →
    ∃ before f t, (receive eng task arrivals).events = before ++
        [acceptedEvent f t outcome.packetsReceived 100,
          .receiverDecodeComplete outcome.packetsReceived (bytesOf t outcome.packetsReceived) 100] ∧
      (∀ event ∈ before, ¬ event.completes) ∧ (tallyOf before).opened = some (f, t) ∧
      outcome.packetsReceived = (tallyOf before).accepted + 1 ∧ outcome.object.length = f.toNat
  muted : receive eng task.muted arrivals =
    ⟨(receive eng task arrivals).state, [], (receive eng task arrivals).halt⟩

/-- The same of the events and the end alone. -/
theorem Stands.ignored {halt : Option RecvEnd} (h : Stands events halt) :
    ∃ n, events.filterMap (·.ignoredCount) = (List.range n).map (· + 1) := by
  cases h with
  | undone hledger _ => exact ⟨_, hledger.ignoredCounts⟩
  | done hledger hopened hevents _ _ _ => exact hevents ▸ (Settled.done hledger hopened).ignoredCounts

theorem Stands.since_established {halt : Option RecvEnd} (h : Stands events halt)
    {before between after : List ProgressEvent} {sessionId : UInt64} {f t : Usize} {expected : Nat}
    (hsplit : events = before ++ .receiverSessionEstablished sessionId f t expected ::
      (between ++ after))
    (hnone : ∀ event ∈ between, ¬ event.establishes) :
    expected = divCeil f.toNat t.toNat ∧ Ascends f t between := by
  cases h with
  | undone hledger _ => exact hledger.since_established hsplit hnone
  | done hledger hopened hevents _ _ _ =>
    exact (Settled.done hledger hopened).since_established (hevents.symm.trans hsplit) hnone

theorem Stands.completes_iff {halt : Option RecvEnd} (h : Stands events halt) :
    (∃ event ∈ events, event.completes) ↔ ∃ outcome, halt = some (.ok (.ok outcome)) := by
  cases h with
  | undone hledger hend =>
    refine iff_of_false ?_ fun ⟨outcome, hok⟩ => hend outcome hok
    rintro ⟨event, hmem, hcompletes⟩
    exact hledger.not_completes event hmem hcompletes
  | done _ _ hevents hok _ _ =>
    refine iff_of_true ?_ ⟨_, hok⟩
    rw [hevents]
    exact ⟨_, List.mem_append_right _ (List.mem_cons_of_mem _ List.mem_cons_self), rfl⟩

theorem Stands.last {halt : Option RecvEnd} (h : Stands events halt) {outcome : RecvOutcome}
    (hok : halt = some (.ok (.ok outcome))) :
    ∃ before f t, events = before ++ [acceptedEvent f t outcome.packetsReceived 100,
        .receiverDecodeComplete outcome.packetsReceived (bytesOf t outcome.packetsReceived) 100] ∧
      (∀ event ∈ before, ¬ event.completes) ∧ (tallyOf before).opened = some (f, t) ∧
      outcome.packetsReceived = (tallyOf before).accepted + 1 ∧ outcome.object.length = f.toNat := by
  cases h with
  | undone _ hend => exact absurd hok (hend outcome)
  | @done front f t _ hledger hopened hevents hdone hcount hobject =>
    cases hdone.symm.trans hok
    rw [← hcount] at hevents
    exact ⟨front, f, t, hevents, hledger.not_completes, hopened, hcount, hobject⟩

/-- For every receiver with a callback and every sequence of at most `usize::MAX / 100`
arrivals. -/
theorem accounting_exact (sized : eng.DataSized) (reports : eng.ReportsStatus)
    (totals : eng.TotalsFit) {limits : BuildLimits} (builds : eng.Builds limits)
    (hprogress : task.progress = true)
    {arrivals : List Arrival} (hlength : arrivals.length ≤ usizeMax / 100) :
    ExactAccounting eng limits task arrivals := by
  have hstands : Stands (receive eng task arrivals).events (receive eng task arrivals).halt :=
    receive_stands sized reports totals builds hprogress hlength
  exact {
    each := fun before bytes peer hbefore hgo =>
      receive_records sized reports totals builds hprogress
        (Nat.le_trans hbefore.length_le hlength) hgo
    ignored := hstands.ignored
    sessions := fun _ _ _ _ _ _ _ => hstands.since_established
    completes := hstands.completes_iff
    last := fun _ => hstands.last
    muted := receive_muted arrivals }

end

open Repetition in
/-- A malformed datagram between the metadata and the only packet of a transfer. -/
theorem accounting_exact_with_noise :
    ExactAccounting engines limits openTask [metaQ, .datagram [1, 2, 3] ⟨0, 1⟩,
      .datagram (wireCode.encode (.packet 1 7 0 0 [42])) ⟨0, 2⟩] :=
  accounting_exact engines_robust.dataSized engines_reportsStatus engines_totals engines_builds
    rfl (by decide)

/-! ## Duplicates without end -/

namespace Repetition

/-- Two RaptorQ symbols of 1024 bytes. -/
def sessionKib : SessionParams := ⟨7, ⟨2048, 1024, CodecKind.raptorQ.defaultConfig⟩⟩

def decoderKib (seen : List (Nat × Bytes)) : TransferDecoderImpl engines :=
  .raptorQ ⟨⟨⟨2, seen⟩, ⟨2048, 1024, 2, (defaultDmax, raptorQLdpcType)⟩⟩, 27⟩ sessionKib.spec

def metaKib : Arrival := .datagram (metaFrame sessionKib) sender

/-- Source packet 0. -/
def firstKib (symbol : Bytes) : Arrival := .datagram (packetFrame 7 ⟨0, 0, symbol⟩) sender

/-- The receiver that took `n` copies of source packet 0. -/
def duplicated (seen : List (Nat × Bytes)) (n : Nat) : RecvState engines :=
  ⟨some sessionKib, some (decoderKib seen), n, min (n * 1024) usizeMax, 0⟩

variable {symbol : Bytes} {seen : List (Nat × Bytes)}

theorem decoderKib_add (hsymbol : symbol.length = 1024) (hseen : ∀ x ∈ seen, x.1 = 0) :
    (decoderKib seen).addPacket ⟨0, 0, symbol⟩ =
      .ok (.ok (decoderKib (seen ++ [(0, symbol)]), .pending)) := by
  have hsecond : 1 ∈ List.range 2 := List.mem_range.mpr (by decide)
  have hsource : (0 : Usize).toNat < 2 := by decide
  have hpending : Decoder.status ⟨2, seen ++ [(0, symbol)]⟩ = .pending := by
    refine if_neg fun hall => ?_
    obtain ⟨_, hlast⟩ := Option.isSome_iff_exists.mp (hall 1 hsecond)
    obtain ⟨front, back, hsplit, _⟩ := List.lookup_eq_some_iff.mp hlast
    have hmem : (1, _) ∈ seen ++ [(0, symbol)] := hsplit ▸ List.mem_append_right _ List.mem_cons_self
    rcases List.mem_append.mp hmem with hmem | hmem
    · cases hseen _ hmem
    · cases List.mem_singleton.mp hmem
  refine TransferDecoderImpl.addPacket_eq_ok.mpr ⟨⟨rfl, hsymbol⟩, 0, ?_, ?_⟩
  · exact payloadEsiToCodedId_eq_ok.mpr (.inl ⟨hsource, rfl⟩)
  · rw [← hpending]
    rfl

theorem step_duplicated (hsymbol : symbol.length = 1024) (hseen : ∀ x ∈ seen, x.1 = 0) (n : Nat) :
    step openTask (duplicated seen n) (firstKib symbol) =
      ⟨duplicated (seen ++ [(0, symbol)]) (n + 1), [.receiverPacketAccepted (n + 1)
        (min ((n + 1) * 1024) usizeMax) 2 (decodePercent (n + 1) 2 false)], none⟩ := by
  have hfits : wireCode.Fits (packetMessage 7 ⟨0, 0, symbol⟩) :=
    packetMessage_fits 7 (t := 1024) hsymbol
  have hsize : (packetFrame 7 ⟨0, 0, symbol⟩).length ≤ maxDatagram := by
    rw [packetFrame_length, hsymbol]
    decide
  have hread : transferPacketFromMessage (packetMessage 7 ⟨0, 0, symbol⟩) sessionKib.sessionId
      sessionKib.spec.symbolSizeT.toNat = .ok ⟨0, 0, symbol⟩ :=
    transferPacketFromMessage_eq_ok.mpr ⟨0, rfl, hsymbol, rfl⟩
  have hadmits : Admits openTask (duplicated seen n) 7 := by
    refine ⟨(fun _ h => nomatch h), ?_⟩
    rintro _ ⟨⟩
    rfl
  have hbytes : saturatingAdd (min (n * 1024) usizeMax) symbol.length =
      min ((n + 1) * 1024) usizeMax := by
    rw [hsymbol, saturatingAdd]
    omega
  have hexpected : expectedSourceSymbols sessionKib.spec = .ok 2 := rfl
  have hstep : step openTask (duplicated seen n) (firstKib symbol) = _ :=
    (step_of_heard (heard_encode hfits hsize sender)).trans (onPacket_admitted hadmits rfl rfl)
  rw [hstep, hread]
  dsimp only
  rw [decoderKib_add hsymbol hseen]
  dsimp only
  rw [accept, hexpected]
  dsimp only [duplicated]
  rw [hbytes]
  rfl

/-- One duplicate more. -/
theorem receive_duplicate {n : Nat}
    (hgo : (receive engines openTask (metaKib :: List.replicate n (firstKib symbol))).halt = none)
    (hstate : (receive engines openTask (metaKib :: List.replicate n (firstKib symbol))).state =
      duplicated seen n) :
    receive engines openTask (metaKib :: List.replicate (n + 1) (firstKib symbol)) =
      (step openTask (duplicated seen n) (firstKib symbol)).after
        (receive engines openTask (metaKib :: List.replicate n (firstKib symbol))).events := by
  rw [List.replicate_succ', ← List.cons_append, ← hstate]
  exact run_concat hgo

/-- Any number of duplicates is accepted. -/
theorem run_duplicated (hsymbol : symbol.length = 1024) : ∀ n, ∃ seen, (∀ x ∈ seen, x.1 = 0) ∧
    (receive engines openTask (metaKib :: List.replicate n (firstKib symbol))).halt = none ∧
    (receive engines openTask (metaKib :: List.replicate n (firstKib symbol))).state =
      duplicated seen n
  | 0 => ⟨[], fun _ h => (nomatch h), rfl, rfl⟩
  | n + 1 => by
    obtain ⟨seen, hseen, hgo, hstate⟩ := run_duplicated hsymbol n
    refine ⟨seen ++ [(0, symbol)], fun x hx => ?_, ?_⟩
    · rcases List.mem_append.mp hx with hx | hx
      · exact hseen x hx
      · rw [List.mem_singleton.mp hx]
    · rw [receive_duplicate hgo hstate, step_duplicated hsymbol hseen n]
      exact ⟨rfl, rfl⟩

theorem duplicate_reported (hsymbol : symbol.length = 1024) (n : Nat) :
    .receiverPacketAccepted (n + 1) (min ((n + 1) * 1024) usizeMax) 2 (decodePercent (n + 1) 2 false) ∈
      (receive engines openTask (metaKib :: List.replicate (n + 1) (firstKib symbol))).events := by
  obtain ⟨seen, hseen, hgo, hstate⟩ := run_duplicated hsymbol n
  rw [receive_duplicate hgo hstate, step_duplicated hsymbol hseen n]
  exact List.mem_append_right _ List.mem_cons_self

end Repetition

open Repetition in
/-- After `2^55` copies of a packet of 1024 bytes the receiver reports `usize::MAX` bytes,
not `2^65`. -/
theorem bytes_saturate :
    (metaKib :: List.replicate (2 ^ 55) (firstKib (List.replicate 1024 0))).length < usizeMax / 100 ∧
    (∃ percent, .receiverPacketAccepted (2 ^ 55) usizeMax 2 percent ∈
      (receive engines openTask
        (metaKib :: List.replicate (2 ^ 55) (firstKib (List.replicate 1024 0)))).events) ∧
    usizeMax ≠ 2 ^ 55 * sessionKib.spec.symbolSizeT.toNat := by
  have hsymbol : (List.replicate 1024 (0 : UInt8)).length = 1024 := List.length_replicate
  have hcount : 2 ^ 55 - 1 + 1 = 2 ^ 55 := by decide
  have hbytes : min (2 ^ 55 * 1024) usizeMax = usizeMax := by decide
  have hreported := duplicate_reported hsymbol (2 ^ 55 - 1)
  rw [hcount, hbytes] at hreported
  refine ⟨?_, ⟨_, hreported⟩, by decide⟩
  rw [List.length_cons, List.length_replicate]
  decide

end FountainTransfer
