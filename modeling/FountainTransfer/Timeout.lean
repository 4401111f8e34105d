import FountainTransfer.ReceiverInvariant

/-!
# The receive timeout

`recv_datagram_timeout` starts a wait of `recv_timeout` whenever the loop comes back to
it, also after a datagram that was ignored. So the receiver gives up `recv_timeout` after
the last datagram of any kind, and not, as the command line says, after the last matching
one. `timeout_counts_matches_iff` says exactly when the two are the same: when no ignored
datagram arrives while the receiver waits.

The socket hands over datagrams at the time they arrive, and the loop body takes no time.
-/

namespace FountainTransfer

open HaltingMachine

structure TimedDatagram where
  time : Nat
  bytes : Bytes
  peer : SocketAddr
deriving DecidableEq, Repr

def TimedDatagram.arrival (d : TimedDatagram) : Arrival := .datagram d.bytes d.peer

/-- The loop, the time its current wait began, and the time of the last matching datagram
or, before there is one, of the start. Nothing in the loop reads `lastMatch`. -/
structure Clock (eng : Engines) where
  recv : RecvState eng
  since : Nat
  lastMatch : Nat

def Clock.start (eng : Engines) (time : Nat) : Clock eng := ⟨.initial eng, time, time⟩

section

variable {eng : Engines} (task : RecvTask)

/-- The loop counts the arrival as ignored. -/
def ignores (s : RecvState eng) (arrival : Arrival) : Bool :=
  (step task s arrival).state.ignoredDatagrams ≠ s.ignoredDatagrams

/-- The next datagram ends the wait if it arrives in time; otherwise the wait has ended
by itself. -/
def Clock.tick (c : Clock eng) (d : TimedDatagram) : Out (Clock eng) ProgressEvent RecvEnd :=
  if d.time ≤ c.since + task.config.recvTimeout then
    let out := step task c.recv d.arrival
    ⟨⟨out.state, d.time, if ignores task c.recv d.arrival then c.lastMatch else d.time⟩,
      out.events, out.halt⟩
  else
    let out := step task c.recv .nothing
    ⟨{ c with recv := out.state }, out.events, out.halt⟩

/-- After the datagrams that have arrived by `now`, the receiver waits for another. -/
def Clock.WaitsAt (c : Clock eng) (datagrams : List TimedDatagram) (now : Nat) : Prop :=
  let out := run (Clock.tick task) c (datagrams.takeWhile (·.time ≤ now))
  out.halt = none ∧ now ≤ out.state.since + task.config.recvTimeout

/-- At no time does the receiver wait more than `recv_timeout` after the last match. -/
def Clock.Punctual (c : Clock eng) (datagrams : List TimedDatagram) : Prop :=
  ∀ now, c.WaitsAt task datagrams now →
    now ≤ (run (Clock.tick task) c (datagrams.takeWhile (·.time ≤ now))).state.lastMatch +
      task.config.recvTimeout

/-- The datagram is ignored, and the wait it ends goes on past the last match. -/
structure Clock.Prolongs (c : Clock eng) (d : TimedDatagram) : Prop where
  inTime : d.time ≤ c.since + task.config.recvTimeout
  ignored : ignores task c.recv d.arrival = true
  late : c.lastMatch < d.time

/-- No datagram of the run prolongs the wait. -/
def Clock.Undisturbed : Clock eng → List TimedDatagram → Prop
  | _, [] => True
  | c, d :: datagrams => ¬ c.Prolongs task d ∧
      ((c.tick task d).halt = none → Undisturbed (c.tick task d).state datagrams)

end

section

variable {eng : Engines} {task : RecvTask} {s : RecvState eng} {c : Clock eng}
  {d : TimedDatagram} {datagrams : List TimedDatagram}

/-! ## One datagram -/

/-- The loop counts an arrival as ignored when it leaves by `emit_ignored`. -/
theorem ignores_iff {arrival : Arrival} :
    ignores task s arrival = true ↔ ∃ reason, step task s arrival = emitIgnored task s reason := by
  have heffect := step_effect task s arrival
  unfold ignores
  constructor
  · intro hcount
    have hcount := of_decide_eq_true hcount
    generalize step task s arrival = out at hcount heffect
    cases heffect with
    | ended _ => exact absurd rfl hcount
    | ignored reason => exact ⟨reason, rfl⟩
    | noDecoder _ _ => exact absurd rfl hcount
    | noScheme _ _ _ => exact absurd rfl hcount
    | established hannounces _ _ =>
      rw [establish_eq hannounces.dimensions.2.1] at hcount
      exact absurd rfl hcount
    | notTaken _ _ _ _ => exact absurd rfl hcount
    | accepted _ _ _ _ =>
      refine absurd ?_ hcount
      unfold accept
      split
      · rfl
      · dsimp only
        split
        · split <;> rfl
        · rfl
  · rintro ⟨reason, hstep⟩
    rw [hstep]
    exact decide_eq_true (Nat.succ_ne_self _)

theorem tick_inTime (h : d.time ≤ c.since + task.config.recvTimeout) :
    c.tick task d = ⟨⟨(step task c.recv d.arrival).state, d.time,
      if ignores task c.recv d.arrival then c.lastMatch else d.time⟩,
      (step task c.recv d.arrival).events, (step task c.recv d.arrival).halt⟩ :=
  if_pos h

/-- A datagram that comes too late finds the receiver gone. -/
theorem tick_late (h : ¬ d.time ≤ c.since + task.config.recvTimeout) :
    (c.tick task d).halt = some (.ok (.error (.timeout task.config.recvTimeout))) := by
  unfold Clock.tick
  rw [if_neg h]
  rfl

/-- If the receiver goes on, the datagram came in time and a new wait begins with it. -/
theorem tick_continues (h : (c.tick task d).halt = none) :
    d.time ≤ c.since + task.config.recvTimeout ∧ (c.tick task d).state.since = d.time := by
  by_cases hin : d.time ≤ c.since + task.config.recvTimeout
  · exact ⟨hin, by rw [tick_inTime hin]⟩
  · rw [tick_late hin] at h
    cases h

/-- Unless the datagram prolongs the wait, the new wait does not begin after the last
match; and an ignored datagram never ends the receive. -/
theorem tick_since_le (hgo : (c.tick task d).halt = none) :
    (c.tick task d).state.since ≤ (c.tick task d).state.lastMatch ↔ ¬ c.Prolongs task d := by
  obtain ⟨hin, _⟩ := tick_continues hgo
  rw [tick_inTime hin]
  constructor
  · rintro hle ⟨_, hignored, hlate⟩
    rw [hignored] at hle
    exact absurd hlate (Nat.not_lt.mpr hle)
  · intro hquiet
    show d.time ≤ if ignores task c.recv d.arrival = true then c.lastMatch else d.time
    split
    · next hignored => exact Nat.not_lt.mp fun hlate => hquiet ⟨hin, hignored, hlate⟩
    · exact Nat.le_refl _

theorem Clock.Prolongs.continues (h : c.Prolongs task d) : (c.tick task d).halt = none := by
  obtain ⟨hin, hignored, _⟩ := h
  obtain ⟨reason, hstep⟩ := ignores_iff.mp hignored
  rw [tick_inTime hin, hstep]
  rfl

/-! ## Whole runs -/

/-- As long as the receiver waits, its wait began with the last datagram. -/
theorem run_since_ge (hsorted : (c.since :: datagrams.map (·.time)).Pairwise (· ≤ ·))
    (hgo : (run (Clock.tick task) c datagrams).halt = none) :
    ∀ time ∈ c.since :: datagrams.map (·.time),
      time ≤ (run (Clock.tick task) c datagrams).state.since := by
  induction datagrams generalizing c with
  | nil =>
    intro time htime
    exact Nat.le_of_eq (List.mem_singleton.mp htime)
  | cons d datagrams ih =>
    cases hd : (c.tick task d).halt with
    | some r =>
      rw [run_cons_halt hd, hd] at hgo
      cases hgo
    | none =>
      obtain ⟨_, hsince⟩ := tick_continues hd
      rw [run_cons_continue hd] at hgo ⊢
      obtain ⟨hfirst, hrest⟩ := List.pairwise_cons.mp hsorted
      have hlater := ih (by rw [hsince]; exact hrest) hgo
      rw [hsince] at hlater
      have hd_le := hlater d.time List.mem_cons_self
      intro time htime
      rcases List.mem_cons.mp htime with rfl | htime
      · exact Nat.le_trans (hfirst d.time List.mem_cons_self) hd_le
      · exact hlater time htime

/-- Every wait of the run begins no later than the last match, in every prefix. -/
theorem undisturbed_iff (hstart : c.since ≤ c.lastMatch) :
    c.Undisturbed task datagrams ↔ ∀ front, front <+: datagrams →
      (run (Clock.tick task) c front).halt = none →
      (run (Clock.tick task) c front).state.since ≤
        (run (Clock.tick task) c front).state.lastMatch := by
  induction datagrams generalizing c with
  | nil =>
    refine iff_of_true trivial fun front hbegins _ => ?_
    rw [List.prefix_nil.mp hbegins]
    exact hstart
  | cons d datagrams ih =>
    constructor
    · rintro ⟨hquiet, hrest⟩ front hbegins hgo
      cases front with
      | nil => exact hstart
      | cons d' front =>
        obtain ⟨rfl, hfront⟩ := List.cons_prefix_cons.mp hbegins
        cases hd : (c.tick task d').halt with
        | some r =>
          rw [run_cons_halt hd, hd] at hgo
          cases hgo
        | none =>
          rw [run_cons_continue hd] at hgo ⊢
          exact (ih ((tick_since_le hd).mpr hquiet)).mp (hrest hd) front hfront hgo
    · intro hall
      have hquiet : ¬ c.Prolongs task d := by
        intro hprolongs
        have hd := hprolongs.continues
        have hone : run (Clock.tick task) c [d] = (run (Clock.tick task) (c.tick task d).state []).after
            (c.tick task d).events := run_cons_continue hd
        have hle := hall [d] ⟨datagrams, rfl⟩ (by rw [hone]; rfl)
        rw [hone] at hle
        exact (tick_since_le hd).mp hle hprolongs
      refine ⟨hquiet, fun hd => ?_⟩
      refine (ih ((tick_since_le hd).mpr hquiet)).mpr fun front hbegins hgo => ?_
      have hstep : run (Clock.tick task) c (d :: front) =
          (run (Clock.tick task) (c.tick task d).state front).after (c.tick task d).events :=
        run_cons_continue hd
      have hle := hall (d :: front) (List.cons_prefix_cons.mpr ⟨rfl, hbegins⟩) (by rw [hstep]; exact hgo)
      rw [hstep] at hle
      exact hle

/-- A timed run is a run of the loop on the datagrams that came in time, followed by a
timeout if another one did not. -/
theorem timed_run_eq (task : RecvTask) (datagrams : List TimedDatagram) :
    ∀ c : Clock eng, ∃ arrivals,
      (run (Clock.tick task) c datagrams).events = (run (step task) c.recv arrivals).events ∧
      (run (Clock.tick task) c datagrams).halt = (run (step task) c.recv arrivals).halt ∧
      (run (Clock.tick task) c datagrams).state.recv = (run (step task) c.recv arrivals).state := by
  induction datagrams with
  | nil => exact fun c => ⟨[], rfl, rfl, rfl⟩
  | cons d datagrams ih =>
    intro c
    by_cases hin : d.time ≤ c.since + task.config.recvTimeout
    · have htick := tick_inTime hin
      cases hd : (step task c.recv d.arrival).halt with
      | some r =>
        have hhalt : (c.tick task d).halt = some r := by rw [htick]; exact hd
        refine ⟨[d.arrival], ?_⟩
        rw [run_cons_halt hhalt, run_cons_halt hd, htick]
        exact ⟨rfl, rfl, rfl⟩
      | none =>
        have hgo : (c.tick task d).halt = none := by rw [htick]; exact hd
        obtain ⟨arrivals, hevents, hhalt, hstate⟩ := ih (c.tick task d).state
        have hrecv : (c.tick task d).state.recv = (step task c.recv d.arrival).state := by rw [htick]
        have hemitted : (c.tick task d).events = (step task c.recv d.arrival).events := by rw [htick]
        rw [hrecv] at hevents hhalt hstate
        refine ⟨d.arrival :: arrivals, ?_⟩
        rw [run_cons_continue hgo, run_cons_continue hd, after_events, after_events, after_halt,
          after_halt, after_state, after_state, hevents, hemitted]
        exact ⟨rfl, hhalt, hstate⟩
    · refine ⟨[.nothing], ?_⟩
      have htick : c.tick task d = ⟨{ c with recv := (step task c.recv .nothing).state },
        (step task c.recv .nothing).events, (step task c.recv .nothing).halt⟩ := if_neg hin
      rw [run_cons_halt (tick_late hin), htick]
      exact ⟨rfl, rfl, rfl⟩

end

/-- For every task, start and sequence of datagrams in the order of their arrival: the
receiver is punctual in the sequence and each beginning of it exactly when no datagram
prolongs the wait; and a datagram that arrives after the wait ran out finds that the
receive has ended with the timeout. -/
theorem timeout_counts_matches_iff {eng : Engines} {task : RecvTask} {start : Nat}
    {datagrams : List TimedDatagram}
    (hsorted : (start :: datagrams.map (·.time)).Pairwise (· ≤ ·)) :
    ((∀ front, front <+: datagrams → (Clock.start eng start).Punctual task front) ↔
      (Clock.start eng start).Undisturbed task datagrams) ∧
    ∀ (c : Clock eng) d, c.since + task.config.recvTimeout < d.time →
      (c.tick task d).halt = some (.ok (.error (.timeout task.config.recvTimeout))) := by
  refine ⟨?_, fun c d hlate => tick_late (Nat.not_le.mpr hlate)⟩
  rw [undisturbed_iff (Nat.le_refl start)]
  constructor
  · intro hpunctual front hbegins hgo
    have hsorted' : (start :: front.map (·.time)).Pairwise (· ≤ ·) := by
      refine hsorted.sublist (List.Sublist.cons_cons start ?_)
      exact hbegins.sublist.map _
    have hall := run_since_ge hsorted' hgo
    let last := (run (Clock.tick task) (Clock.start eng start) front).state.since
    -- at the end of the wait, everything in `front` has arrived
    have harrived : front.takeWhile (·.time ≤ last + task.config.recvTimeout) = front := by
      have hby : ∀ d ∈ front, decide (d.time ≤ last + task.config.recvTimeout) = true := by
        intro d hd
        have hle := hall d.time (List.mem_cons_of_mem _ (List.mem_map_of_mem hd))
        exact decide_eq_true (Nat.le_trans hle (Nat.le_add_right _ _))
      have htake := @List.takeWhile_append_of_pos _ _ front [] hby
      rw [List.append_nil, List.takeWhile_nil, List.append_nil] at htake
      exact htake
    have hend := hpunctual front hbegins (last + task.config.recvTimeout)
    unfold Clock.WaitsAt at hend
    rw [harrived] at hend
    exact Nat.le_of_add_le_add_right (hend ⟨hgo, Nat.le_refl _⟩)
  · intro hall front hbegins now hwaits
    obtain ⟨hgo, hnow⟩ := hwaits
    have hle := hall _ ((List.takeWhile_prefix _).trans hbegins) hgo
    exact Nat.le_trans hnow (Nat.add_le_add_right hle _)

open Repetition in
/-- Metadata 50 seconds after the start, with a timeout of 60. -/
theorem punctual_with_metadata :
    (Clock.start engines 0).Punctual openTask
      [⟨50000000000, wireCode.encode (sessionMetaFromSpec 7 specQ), ⟨0, 1⟩⟩] := by
  refine (timeout_counts_matches_iff (by decide)).1.mpr ?_ _ (List.prefix_refl _)
  refine ⟨?_, fun _ => trivial⟩
  rintro ⟨_, hignored, _⟩
  cases hignored

open Repetition in
/-- A malformed datagram 50 seconds after the start, with a timeout of 60: after 100
seconds without any match the receiver still waits. -/
theorem stray_datagram_extends_wait :
    (Clock.start engines 0).WaitsAt openTask [⟨50000000000, [1], ⟨0, 1⟩⟩] 100000000000 ∧
    ¬ (Clock.start engines 0).Punctual openTask [⟨50000000000, [1], ⟨0, 1⟩⟩] := by
  have hwaits : (Clock.start engines 0).WaitsAt openTask [⟨50000000000, [1], ⟨0, 1⟩⟩] 100000000000 :=
    ⟨rfl, by decide⟩
  refine ⟨hwaits, fun hpunctual => ?_⟩
  exact absurd (hpunctual 100000000000 hwaits) (by decide)

end FountainTransfer
