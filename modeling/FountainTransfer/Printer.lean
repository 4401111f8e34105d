import FountainTransfer.Accounting
import FountainTransfer.SendProgress

/-!
# What `--progress` prints

`ProgressPrinter` in `main.rs` is given every event of a send or a receive and prints a
line for some of them.

1. `send_lines`: how many lines a send prints, wherever it stops.
2. `receive_lines`: however many datagrams a receiver reads, it prints at most one line for
   each hundred of them, twenty for each session, and two more.
-/

namespace FountainTransfer

open HaltingMachine

structure ProgressPrinter where
  lastDecodeBucket : Option UInt8
deriving DecidableEq, Repr

/-- `ProgressPrinter::default()`. -/
def ProgressPrinter.default : ProgressPrinter := ⟨none⟩

def ignoredReasonLabel : IgnoredDatagramReason → String
  | .malformed => "malformed"
  | .unsupportedVersion => "unsupported wire version"
  | .unknownCodec => "unknown codec"
  | .invalidSessionMetadata => "invalid session metadata"
  | .beforeSession => "packet before session metadata"
  | .foreignSession => "foreign session"
  | .invalidPacket => "invalid packet"

/-- The guard of the two packet events of a sender. -/
def packetDue (sent total : Nat) : Bool := sent = total ∨ sent % 100 = 0

theorem packetDue_iff {sent total : Nat} :
    packetDue sent total = true ↔ sent = total ∨ sent % 100 = 0 :=
  decide_eq_true_iff

/-- One event, and the line that `eprintln!` prints for it. -/
def ProgressPrinter.emit (printer : ProgressPrinter) :
    ProgressEvent → ProgressPrinter × Option String
  | .senderStarted sessionId transferLengthF symbolSizeT sourcePackets repairPackets plannedBytes =>
    (printer, some (s!"progress: sending session {sessionId}: {transferLengthF} B, " ++
      s!"{symbolSizeT} B symbols, {sourcePackets} source + {repairPackets} repair packets, " ++
      s!"{plannedBytes} B planned"))
  | .senderSourcePacketSent sent total bytesSent plannedBytes =>
    (printer, if packetDue sent total then
      some s!"progress: source packets {sent}/{total}, {bytesSent}/{plannedBytes} B" else none)
  | .senderRepairPacketSent sent total bytesSent plannedBytes =>
    (printer, if packetDue sent total then
      some s!"progress: repair packets {sent}/{total}, {bytesSent}/{plannedBytes} B" else none)
  | .senderFinished sourcePackets repairPackets bytesSent plannedBytes =>
    (printer, some (s!"progress: send complete: {sourcePackets} source + {repairPackets} repair " ++
      s!"packets, {bytesSent}/{plannedBytes} B"))
  | .receiverSessionEstablished sessionId transferLengthF symbolSizeT expectedSourceSymbols =>
    (⟨none⟩, some (s!"progress: session {sessionId} established: {transferLengthF} B, " ++
      s!"{symbolSizeT} B symbols, ~{expectedSourceSymbols} source symbols"))
  | .receiverPacketAccepted packetsAccepted bytesAccepted expectedSourceSymbols percent =>
    let bucket := percent / 5
    let percentDue := bucket > printer.lastDecodeBucket.getD 0 ∧ percent > 0 ∧ percent < 100
    let packetDue := packetsAccepted % 100 = 0
    (⟨some bucket⟩, if percentDue ∨ packetDue then
      some (s!"progress: receive {percent}% ({packetsAccepted} packets, " ++
        s!"{bytesAccepted} B accepted; ~{expectedSourceSymbols} source symbols)") else none)
  | .receiverDecodeComplete packetsAccepted bytesAccepted _ =>
    (printer, some (s!"progress: decode complete: {packetsAccepted} packets, " ++
      s!"{bytesAccepted} B accepted"))
  | .receiverDatagramIgnored ignored reason =>
    let label := ignoredReasonLabel reason
    (printer, if ignored = 1 ∨ ignored % 100 = 0 then
      some s!"progress: ignored {ignored} datagram(s) ({label})" else none)

/-- The lines for a whole run: `on_progress` is called with each event in turn. -/
def ProgressPrinter.emitAll : ProgressPrinter → List ProgressEvent → ProgressPrinter × List String
  | printer, [] => (printer, [])
  | printer, event :: rest =>
    let out := printer.emit event
    let more := emitAll out.1 rest
    (more.1, out.2.toList ++ more.2)

theorem emitAll_append (printer : ProgressPrinter) (events more : List ProgressEvent) :
    printer.emitAll (events ++ more) =
      (((printer.emitAll events).1.emitAll more).1,
        (printer.emitAll events).2 ++ ((printer.emitAll events).1.emitAll more).2) := by
  induction events generalizing printer with
  | nil => rfl
  | cons event events ih =>
    rw [List.cons_append, ProgressPrinter.emitAll, ProgressPrinter.emitAll, ih, List.append_assoc]

/-! ## Lines of a sender -/

def ProgressEvent.ofSender : ProgressEvent → Bool
  | .senderStarted .. | .senderSourcePacketSent .. | .senderRepairPacketSent .. => true
  | .senderFinished .. => true
  | _ => false

/-- Whether a line is printed for an event of a sender. -/
def ProgressEvent.due (event : ProgressEvent) : Bool :=
  (ProgressPrinter.default.emit event).2.isSome

theorem emit_ofSender (printer : ProgressPrinter) {event : ProgressEvent} (h : event.ofSender = true) :
    printer.emit event = (printer, (ProgressPrinter.default.emit event).2) := by
  cases event with
  | senderStarted _ _ _ _ _ _ => rfl
  | senderSourcePacketSent _ _ _ _ => rfl
  | senderRepairPacketSent _ _ _ _ => rfl
  | senderFinished _ _ _ _ => rfl
  | receiverSessionEstablished _ _ _ _ => cases h
  | receiverPacketAccepted _ _ _ _ => cases h
  | receiverDecodeComplete _ _ _ => cases h
  | receiverDatagramIgnored _ _ => cases h

/-- A sender's events leave the printer as it is, so its lines are counted one by one. -/
theorem emitAll_ofSender (printer : ProgressPrinter) {events : List ProgressEvent}
    (h : ∀ event ∈ events, event.ofSender = true) :
    (printer.emitAll events).2.length = events.countP (·.due) := by
  induction events with
  | nil => rfl
  | cons event events ih =>
    have hrest := ih fun e hmem => h e (List.mem_cons_of_mem _ hmem)
    rw [ProgressPrinter.emitAll, emit_ofSender printer (h event List.mem_cons_self),
      List.countP_cons, List.length_append, hrest, ProgressEvent.due]
    cases (ProgressPrinter.default.emit event).2 with
    | none => simp
    | some line => simp [Nat.add_comm]

/-- The lines for the first `sent` of `total` packets: one for each hundred, and one for the
last packet. -/
def linesFor (total sent : Nat) : Nat := if sent = total then divCeil total 100 else sent / 100

theorem linesFor_zero (total : Nat) : linesFor total 0 = 0 := by
  unfold linesFor divCeil
  split
  · next h =>
    rw [← h]
    rfl
  · rfl

theorem countP_packetDue (total : Nat) : ∀ sent, sent ≤ total →
    (List.range sent).countP (fun i => packetDue (i + 1) total) = linesFor total sent
  | 0, _ => (linesFor_zero total).symm
  | sent + 1, h => by
    have hnot : sent ≠ total := Nat.ne_of_lt h
    rw [List.range_succ, List.countP_append, countP_packetDue total sent (Nat.le_of_succ_le h),
      List.countP_singleton, linesFor, linesFor, if_neg hnot]
    by_cases hlast : sent + 1 = total
    · rw [if_pos hlast, if_pos (packetDue_iff.mpr (.inl hlast)), ← hlast, divCeil]
      split <;> omega
    · rw [if_neg hlast]
      by_cases hround : (sent + 1) % 100 = 0
      · rw [if_pos (packetDue_iff.mpr (.inr hround))]
        omega
      · rw [if_neg (by simp [packetDue_iff, hlast, hround])]
        omega

/-- The lines for the first `n` packets of a transfer. -/
theorem countP_packetEvents (spec : TransferSpec) {source repair n : Nat} (h : n ≤ source + repair) :
    ((List.range n).map (spec.packetEvent source repair)).countP (·.due) =
      linesFor source (min n source) + linesFor repair (n - source) := by
  have hsource : ∀ i, i < source →
      (spec.packetEvent source repair i).due = packetDue (i + 1) source := by
    intro i hi
    rw [TransferSpec.packetEvent, if_pos hi, ProgressEvent.due, ProgressPrinter.emit]
    cases packetDue (i + 1) source <;> rfl
  have hrepair : ∀ i,
      (spec.packetEvent source repair (source + i)).due = packetDue (i + 1) repair := by
    intro i
    rw [TransferSpec.packetEvent, if_neg (Nat.not_lt.mpr (Nat.le_add_right _ _)),
      Nat.add_sub_cancel_left, ProgressEvent.due, ProgressPrinter.emit]
    cases packetDue (i + 1) repair <;> rfl
  rw [List.countP_map]
  have hfront : ∀ m, m ≤ source →
      (List.range m).countP ((·.due) ∘ spec.packetEvent source repair) = linesFor source m := by
    intro m hm
    rw [← countP_packetDue source m hm]
    refine List.countP_congr fun i hi => ?_
    rw [Function.comp_apply, hsource i (Nat.lt_of_lt_of_le (List.mem_range.mp hi) hm)]
  by_cases hle : n ≤ source
  · rw [hfront n hle, Nat.min_eq_left hle, Nat.sub_eq_zero_of_le hle, linesFor_zero, Nat.add_zero]
  · obtain ⟨r, rfl⟩ := Nat.exists_eq_add_of_le (Nat.le_of_not_le hle)
    rw [List.range_add, List.countP_append, hfront source (Nat.le_refl _), List.countP_map,
      Nat.min_eq_right (Nat.le_add_right _ _), Nat.add_sub_cancel_left,
      ← countP_packetDue repair r (Nat.le_of_add_le_add_left h)]
    refine congrArg _ (List.countP_congr fun i _ => ?_)
    rw [Function.comp_apply, Function.comp_apply, hrepair]

section

variable {eng : Engines} {encode : EncodingMap} {object : Bytes} {session : SessionParams}
  {config : SendConfig}

theorem sendEvents_ofSender {source repair sent : Nat} {event : ProgressEvent}
    (h : event ∈ session.sendEvents source repair sent) : event.ofSender = true := by
  rcases List.mem_cons.mp h with rfl | h
  · rfl
  · rcases List.mem_append.mp h with h | h
    · obtain ⟨i, _, rfl⟩ := List.mem_map.mp h
      unfold TransferSpec.packetEvent
      split <;> rfl
    · split at h
      · rw [List.mem_singleton.mp h]
        rfl
      · cases h

/-- For every planned transfer and every socket: a send that puts the metadata and `n`
packets on the wire prints a line at its start, one for each hundred source packets and
each hundred repair packets, one for the last of either kind, and one at its end if it
gets there. -/
theorem send_lines (faithful : eng.Faithful encode) (sendTo : SendTo) {plan : SendPlan}
    (hplan : sendPlan eng object session config = .ok (.ok plan)) :
    let send := sendObjectWithSocketImpl eng sendTo object session config true
    let n := send.wire.length - 1
    (ProgressPrinter.default.emitAll send.events).2.length =
      1 + (linesFor plan.source.length (min n plan.source.length) +
        linesFor plan.repair.length (n - plan.source.length)) +
        if send.wire.length = 1 + (plan.source.length + plan.repair.length) then 1 else 0 := by
  intro send n
  obtain ⟨hwithin, ⟨plan', hplan', _, _, hwire⟩, hevents, _⟩ :=
    exactProgress_of_plan faithful sendTo hplan
  generalize (sendAll sendTo 0 (plan.messages session)).1 = sent at hwithin hwire hevents
  cases hplan.symm.trans hplan'
  have hcount : send.wire.length = sent := by
    rw [show send.wire = (plan.datagrams session).take sent from hwire, List.length_take,
      SendPlan.datagrams, List.length_cons, List.length_map, SendPlan.packets, List.length_append,
      Nat.add_comm]
    exact Nat.min_eq_left hwithin
  have hn : n = sent - 1 := congrArg (· - 1) hcount
  have hle : sent - 1 ≤ plan.source.length + plan.repair.length := by omega
  rw [show send.events = _ from hevents, emitAll_ofSender _ fun _ => sendEvents_ofSender,
    SessionParams.sendEvents, List.countP_cons, List.countP_append, countP_packetEvents _ hle, hn,
    hcount]
  have hstarted : ∀ i j k p q r, (ProgressEvent.senderStarted i j k p q r).due = true :=
    fun _ _ _ _ _ _ => rfl
  rw [if_pos (hstarted ..)]
  split
  · have hfinished : ∀ i j k l, [ProgressEvent.senderFinished i j k l].countP (·.due) = 1 :=
      fun _ _ _ _ => rfl
    rw [hfinished]
    omega
  · rw [List.countP_nil]
    omega

end

/-! ## Lines of a receiver -/

def ProgressEvent.accepts : ProgressEvent → Bool
  | .receiverPacketAccepted .. => true
  | _ => false

/-- The lines printed for one event: one or none. -/
def ProgressPrinter.linesOf (printer : ProgressPrinter) (event : ProgressEvent) : Nat :=
  (printer.emit event).2.toList.length

/-- The printer after `events`, and the lines it printed: one for each session, `bands` for
percentages, `hundreds` for packets and `noise` for ignored datagrams. -/
structure Sampled (printer : ProgressPrinter) (lines : Nat) (events : List ProgressEvent)
    (bands hundreds noise : Nat) : Prop where
  total : lines ≤ events.countP (·.establishes) + bands + hundreds + noise
  bucket : ∀ f t, (tallyOf events).opened = some (f, t) →
    (printer.lastDecodeBucket.getD 0).toNat = pendingPercent f t (tallyOf events).accepted / 5
  bands_le : bands ≤ 19 * events.countP (·.establishes)
  /-- A session that is at a low percentage has lines left to print. -/
  room : ∀ f t, (tallyOf events).opened = some (f, t) → bands + 19 ≤
    19 * events.countP (·.establishes) + pendingPercent f t (tallyOf events).accepted / 5
  hundreds_le : 100 * hundreds + (tallyOf events).accepted % 100 ≤ events.countP (·.accepts)
  noise_le : noise ≤ (tallyOf events).ignored / 100 + 1
  quiet : (tallyOf events).ignored = 0 → noise = 0

section

variable {printer : ProgressPrinter} {lines bands hundreds noise : Nat} {events : List ProgressEvent}

theorem length_toList_ite {due : Prop} [Decidable due] (line : String) :
    (if due then some line else none).toList.length = if due then 1 else 0 := by
  split <;> rfl

theorem linesOf_ignored (printer : ProgressPrinter) (ignored : Nat) (reason : IgnoredDatagramReason) :
    printer.linesOf (.receiverDatagramIgnored ignored reason) =
      if ignored = 1 ∨ ignored % 100 = 0 then 1 else 0 :=
  length_toList_ite _

theorem Sampled.ignored (h : Sampled printer lines events bands hundreds noise)
    (reason : IgnoredDatagramReason) :
    let event := ProgressEvent.receiverDatagramIgnored ((tallyOf events).ignored + 1) reason
    ∃ noise', Sampled printer (lines + printer.linesOf event) (events ++ [event]) bands hundreds
      noise' := by
  intro event
  obtain ⟨htotal, hbucket, hbands, hroom, hhundreds, hnoise, hquiet⟩ := h
  have hsessions : (events ++ [event]).countP (·.establishes) = events.countP (·.establishes) := by
    rw [List.countP_append]
    rfl
  have haccepted : (events ++ [event]).countP (·.accepts) = events.countP (·.accepts) := by
    rw [List.countP_append]
    rfl
  have hlines := linesOf_ignored printer ((tallyOf events).ignored + 1) reason
  refine ⟨noise + printer.linesOf event, ?_⟩
  constructor
  · rw [hsessions]
    omega
  · rw [tallyOf_append_singleton]
    exact hbucket
  · rw [hsessions]
    exact hbands
  · rw [tallyOf_append_singleton, hsessions]
    exact hroom
  · rw [tallyOf_append_singleton, haccepted]
    exact hhundreds
  · rw [tallyOf_append_singleton, hlines]
    show _ ≤ ((tallyOf events).ignored + 1) / 100 + 1
    split <;> omega
  · rw [tallyOf_append_singleton]
    exact fun hzero => nomatch hzero

/-- A new session starts at 0 percent. -/
theorem Sampled.established (h : Sampled printer lines events bands hundreds noise)
    (sessionId : UInt64) (f t : Usize) (expected : Nat) :
    let event := ProgressEvent.receiverSessionEstablished sessionId f t expected
    Sampled (printer.emit event).1 (lines + printer.linesOf event) (events ++ [event]) bands hundreds
      noise := by
  intro event
  obtain ⟨htotal, hbucket, hbands, hroom, hhundreds, hnoise, hquiet⟩ := h
  have hsessions : (events ++ [event]).countP (·.establishes) =
      events.countP (·.establishes) + 1 := by
    rw [List.countP_append]
    rfl
  have haccepted : (events ++ [event]).countP (·.accepts) = events.countP (·.accepts) := by
    rw [List.countP_append]
    rfl
  have hlines : printer.linesOf event = 1 := rfl
  have hstart : ∀ f t : Usize, pendingPercent f t 0 / 5 = 0 := by
    intro f t
    rw [pendingPercent, Nat.mul_zero, Nat.zero_div]
    rfl
  constructor
  · rw [hsessions, hlines]
    omega
  · rw [tallyOf_append_singleton]
    exact fun f t _ => (hstart f t).symm
  · rw [hsessions]
    omega
  · rw [tallyOf_append_singleton, hsessions]
    intro f t _
    show _ ≤ _ + pendingPercent f t 0 / 5
    omega
  · rw [tallyOf_append_singleton, haccepted]
    exact Nat.le_trans (Nat.le_add_right _ _) hhundreds
  · rw [tallyOf_append_singleton]
    exact hnoise
  · rw [tallyOf_append_singleton]
    exact hquiet

theorem linesOf_accepted (printer : ProgressPrinter) (f t : Usize) (packets percent : Nat)
    (hpercent : percent ≤ 100) :
    printer.linesOf (acceptedEvent f t packets percent) =
      if (printer.lastDecodeBucket.getD 0).toNat < percent / 5 ∧ 0 < percent ∧ percent < 100 ∨
        packets % 100 = 0 then 1 else 0 := by
  have htoNat : (UInt8.ofNat percent).toNat = percent := toNat_percent hpercent
  have hbucket : (UInt8.ofNat percent / 5).toNat = percent / 5 := by
    rw [UInt8.toNat_div, htoNat]
    rfl
  have hdue : (UInt8.ofNat percent / 5 > printer.lastDecodeBucket.getD 0 ∧ UInt8.ofNat percent > 0 ∧
      UInt8.ofNat percent < 100) ↔
      ((printer.lastDecodeBucket.getD 0).toNat < percent / 5 ∧ 0 < percent ∧ percent < 100) := by
    simp only [gt_iff_lt, UInt8.lt_iff_toNat_lt, hbucket, htoNat, UInt8.toNat_zero]
    rfl
  simp only [← hdue]
  exact length_toList_ite _

/-- A line that is due twice is printed once. -/
theorem due_le {a b c : Prop} [Decidable a] [Decidable b] [Decidable c] :
    (if a ∧ c ∨ b then 1 else 0) ≤ (if a then 1 else 0) + if b then 1 else 0 := by
  by_cases ha : a
  · rw [if_pos ha]
    split <;> omega
  · by_cases hb : b
    · rw [if_pos (.inr hb), if_pos hb]
      omega
    · rw [if_neg (not_or_intro (fun h => ha h.1) hb)]
      exact Nat.zero_le _

/-- A packet that does not complete the object: the percentage may reach a new band. -/
theorem Sampled.accepted (h : Sampled printer lines events bands hundreds noise) {f t : Usize}
    (hopened : (tallyOf events).opened = some (f, t)) :
    let event := acceptedEvent f t ((tallyOf events).accepted + 1)
      (pendingPercent f t ((tallyOf events).accepted + 1))
    ∃ bands' hundreds', Sampled (printer.emit event).1 (lines + printer.linesOf event)
      (events ++ [event]) bands' hundreds' noise := by
  intro event
  obtain ⟨htotal, hbucket, hbands, hroom, hhundreds, hnoise, hquiet⟩ := h
  have hsessions : (events ++ [event]).countP (·.establishes) = events.countP (·.establishes) := by
    rw [List.countP_append]
    rfl
  have haccepted : (events ++ [event]).countP (·.accepts) = events.countP (·.accepts) + 1 := by
    rw [List.countP_append]
    rfl
  have hcap := pendingPercent_le f t ((tallyOf events).accepted + 1)
  have hmono : pendingPercent f t (tallyOf events).accepted ≤
      pendingPercent f t ((tallyOf events).accepted + 1) := pendingPercent_mono f t (Nat.le_succ _)
  have hlines := linesOf_accepted printer f t ((tallyOf events).accepted + 1) _
    (Nat.le_trans hcap (by decide))
  rw [hbucket f t hopened] at hlines
  have hroom := hroom f t hopened
  have hnext : ∀ f' t', (f, t) = (f', t') →
      pendingPercent f' t' ((tallyOf events).accepted + 1) =
        pendingPercent f t ((tallyOf events).accepted + 1) := by
    rintro _ _ ⟨⟩
    rfl
  have hopened' : (tallyOf (events ++ [event])).opened = some (f, t) := by
    rw [tallyOf_append_singleton]
    exact hopened
  have hcount : (tallyOf (events ++ [event])).accepted = (tallyOf events).accepted + 1 := by
    rw [tallyOf_append_singleton]
    rfl
  refine ⟨bands + (if pendingPercent f t (tallyOf events).accepted / 5 <
      pendingPercent f t ((tallyOf events).accepted + 1) / 5 then 1 else 0),
    hundreds + (if ((tallyOf events).accepted + 1) % 100 = 0 then 1 else 0), ?_⟩
  constructor
  · have hdue : printer.linesOf event ≤ _ + _ := Nat.le_trans (Nat.le_of_eq hlines) due_le
    rw [hsessions]
    omega
  · rw [hopened', hcount]
    intro f' t' hsame
    rw [hnext f' t' (Option.some.inj hsame)]
    show (UInt8.ofNat _ / 5).toNat = _
    rw [UInt8.toNat_div, toNat_percent (Nat.le_trans hcap (by decide))]
    rfl
  · rw [hsessions]
    split <;> omega
  · rw [hopened', hcount, hsessions]
    intro f' t' hsame
    rw [hnext f' t' (Option.some.inj hsame)]
    split <;> omega
  · rw [hcount, haccepted]
    split <;> omega
  · rw [tallyOf_append_singleton]
    exact hnoise
  · rw [tallyOf_append_singleton]
    exact hquiet

end

/-! ## Whole runs -/

section

variable {eng : Engines} {task : RecvTask} {events : List ProgressEvent}

theorem emitAll_concat (printer : ProgressPrinter) (events : List ProgressEvent) (event : ProgressEvent) :
    (printer.emitAll (events ++ [event])).1 = ((printer.emitAll events).1.emit event).1 ∧
      (printer.emitAll (events ++ [event])).2.length =
        (printer.emitAll events).2.length + (printer.emitAll events).1.linesOf event := by
  rw [emitAll_append]
  refine ⟨rfl, ?_⟩
  rw [List.length_append, ProgressPrinter.emitAll, ProgressPrinter.emitAll, List.append_nil]
  rfl

theorem Ledger.sampled (h : Ledger events) : ∃ bands hundreds noise,
    Sampled (ProgressPrinter.default.emitAll events).1 (ProgressPrinter.default.emitAll events).2.length
      events bands hundreds noise := by
  induction h with
  | nil =>
    refine ⟨0, 0, 0, ?_⟩
    constructor
    · exact Nat.le_refl 0
    · exact fun _ _ h => nomatch h
    · exact Nat.le_refl 0
    · exact fun _ _ h => nomatch h
    · exact Nat.le_refl 0
    · exact Nat.zero_le _
    · exact fun _ => rfl
  | @record events event _ hevent ih =>
    obtain ⟨bands, hundreds, noise, h⟩ := ih
    obtain ⟨hprinter, hlines⟩ := emitAll_concat ProgressPrinter.default events event
    rw [hprinter, hlines]
    cases hevent with
    | ignored reason =>
      obtain ⟨noise', h'⟩ := h.ignored reason
      exact ⟨bands, hundreds, noise', h'⟩
    | established sessionId f t => exact ⟨bands, hundreds, noise, h.established sessionId f t _⟩
    | accepted hopened =>
      obtain ⟨bands', hundreds', h'⟩ := h.accepted hopened
      exact ⟨bands', hundreds', noise, h'⟩

/-- Every event of a ledger counts once. -/
theorem Ledger.length_eq (h : Ledger events) : events.length =
    events.countP (·.establishes) + events.countP (·.accepts) + (tallyOf events).ignored := by
  induction h with
  | nil => rfl
  | @record events event _ hevent ih =>
    rw [List.length_append, List.countP_append, List.countP_append, tallyOf_append_singleton, ih]
    cases hevent with
    | ignored reason => exact Nat.add_assoc _ _ _
    | established sessionId f t =>
      show _ + 1 = _ + 1 + (_ + 0) + (tallyOf events).ignored
      omega
    | accepted hopened =>
      show _ + 1 = _ + 0 + (_ + 1) + (tallyOf events).ignored
      omega

theorem Ledger.countP_completes (h : Ledger events) :
    events.countP (fun event => !event.completes) = events.length := by
  rw [List.countP_eq_length]
  intro event hmem
  rw [Bool.not_eq_true']
  exact Bool.eq_false_iff.mpr (h.not_completes event hmem)

/-- An arrival is counted at most once. -/
theorem step_counted (s : RecvState eng) (arrival : Arrival) :
    (step task s arrival).events.countP (fun event => !event.completes) ≤ 1 := by
  have hreport : ∀ event, (task.report event).countP (fun event => !event.completes) ≤ 1 := by
    intro event
    unfold RecvTask.report
    split
    · exact List.countP_le_length
    · exact Nat.zero_le _
  have hcomplete : ∀ packets bytes, (task.report (.receiverDecodeComplete packets bytes 100)).countP
      (fun event => !event.completes) = 0 := by
    intro packets bytes
    unfold RecvTask.report
    split <;> rfl
  have heffect := step_effect task s arrival
  generalize step task s arrival = out at heffect
  cases heffect with
  | ended _ => exact Nat.zero_le _
  | ignored reason => exact hreport _
  | noDecoder _ _ => exact Nat.zero_le _
  | noScheme _ _ _ => exact Nat.zero_le _
  | established _ _ _ =>
    unfold establish
    split
    · split
      · exact Nat.zero_le _
      · exact hreport _
    · exact Nat.zero_le _
  | notTaken _ _ _ _ => exact Nat.zero_le _
  | accepted _ _ _ _ =>
    unfold accept
    split
    · exact Nat.zero_le _
    · split
      · split
        · exact hreport _
        · exact hreport _
        · rw [List.countP_append, hcomplete, Nat.add_zero]
          exact hreport _
      · exact hreport _

theorem Stands.printed {halt : Option RecvEnd} (h : Stands events halt) :
    (ProgressPrinter.default.emitAll events).2.length ≤ 20 * events.countP (·.establishes) +
      events.countP (fun event => !event.completes) / 100 + 2 := by
  cases h with
  | undone hledger _ =>
    obtain ⟨bands, hundreds, noise, h⟩ := hledger.sampled
    have hlength := hledger.length_eq
    rw [hledger.countP_completes]
    obtain ⟨htotal, _, hbands, _, hhundreds, hnoise, hquiet⟩ := h
    omega
  | @done front f t _ hledger hopened hevents _ _ _ =>
    obtain ⟨bands, hundreds, noise, h⟩ := hledger.sampled
    have hlength := hledger.length_eq
    have hcompletes := hledger.countP_completes
    let packets := (tallyOf front).accepted + 1
    -- the last packet is at 100 percent, which is no band
    have hlast : ∀ printer : ProgressPrinter, printer.linesOf (acceptedEvent f t packets 100) =
        if packets % 100 = 0 then 1 else 0 := by
      intro printer
      rw [linesOf_accepted _ _ _ _ _ (Nat.le_refl _)]
      split <;> split <;> omega
    have hsplit : events = (front ++ [acceptedEvent f t packets 100]) ++
        [.receiverDecodeComplete packets (bytesOf t packets) 100] := by
      rw [hevents, List.append_assoc]
      rfl
    obtain ⟨_, hline⟩ := emitAll_concat ProgressPrinter.default front (acceptedEvent f t packets 100)
    obtain ⟨_, hfinish⟩ := emitAll_concat ProgressPrinter.default
      (front ++ [acceptedEvent f t packets 100]) (.receiverDecodeComplete packets (bytesOf t packets) 100)
    have hone : ∀ printer : ProgressPrinter,
        printer.linesOf (.receiverDecodeComplete packets (bytesOf t packets) 100) = 1 := fun _ => rfl
    have hcount : events.countP (fun event => !event.completes) = front.length + 1 := by
      rw [hevents, List.countP_append, hcompletes]
      rfl
    have hsessions : events.countP (·.establishes) = front.countP (·.establishes) := by
      rw [hevents, List.countP_append]
      rfl
    rw [hcount, hsessions, hsplit, hfinish, hline, hlast, hone]
    obtain ⟨htotal, _, hbands, _, hhundreds, hnoise, hquiet⟩ := h
    have hpackets : packets = (tallyOf front).accepted + 1 := rfl
    split <;> omega

/-- For every receiver that prints its progress and every sequence of at most
`usize::MAX / 100` arrivals, of any datagrams: it prints at most one line for each hundred
arrivals, twenty for each time a session was established, and two more. -/
theorem receive_lines (sized : eng.DataSized) (reports : eng.ReportsStatus) (totals : eng.TotalsFit)
    {limits : BuildLimits} (builds : eng.Builds limits)
    (hprogress : task.progress = true) {arrivals : List Arrival}
    (hlength : arrivals.length ≤ usizeMax / 100) :
    (ProgressPrinter.default.emitAll (receive eng task arrivals).events).2.length ≤
      20 * (receive eng task arrivals).events.countP (·.establishes) + arrivals.length / 100 + 2 := by
  have hlines := (receive_stands sized reports totals builds hprogress hlength).printed
  have hcounted := run_countP_le (@step_counted eng task) arrivals (RecvState.initial eng)
  have hdiv := Nat.div_le_div_right (c := 100) hcounted
  exact Nat.le_trans hlines (Nat.add_le_add_right (Nat.add_le_add_left hdiv _) 2)

end

open Repetition in
/-- A line at the start, one for the only packet, and one at the end. -/
theorem send_lines_one : (ProgressPrinter.default.emitAll
    (sendObjectWithSocketImpl engines sendAlways [42] ⟨7, specQ⟩ ⟨0, 0⟩ true).events).2.length = 3 := by
  have hplan : sendPlan engines [42] ⟨7, specQ⟩ ⟨0, 0⟩ = .ok (.ok ⟨[⟨0, 0, [42]⟩], []⟩) := rfl
  have hsent : (sendObjectWithSocketImpl engines sendAlways [42] ⟨7, specQ⟩ ⟨0, 0⟩ true).wire.length =
      2 := rfl
  refine (send_lines engines_faithful sendAlways hplan).trans ?_
  rw [hsent]
  rfl

open Repetition in
/-- A malformed datagram between the metadata and the only packet of a transfer. -/
theorem receive_lines_with_noise : (ProgressPrinter.default.emitAll
    (receive engines openTask [metaQ, .datagram [1, 2, 3] ⟨0, 1⟩,
      .datagram (wireCode.encode (.packet 1 7 0 0 [42])) ⟨0, 2⟩]).events).2.length ≤
        20 * 1 + 3 / 100 + 2 :=
  receive_lines engines_robust.dataSized engines_reportsStatus engines_totals engines_builds
    rfl (by decide)

end FountainTransfer
