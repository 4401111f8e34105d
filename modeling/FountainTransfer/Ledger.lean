import FountainTransfer.Net

/-!
# The ledger of a receiver's events

Whoever listens to a receiver can count its events: datagrams ignored so far, packets
accepted since the last session was established. A `Ledger` is a sequence of events whose
own numbers are these counts. Results:
1. `Ledger.ignoredCounts`: the ignored events count 1, 2, 3, ..., whatever comes between.
2. `Ledger.since_established`: after a session is established the accepted events count
   1, 2, 3, ..., and their bytes and percentages are those of their number.
3. `Settled.since_established`: the same of a ledger that ends with a decoded object.
-/

namespace FountainTransfer

/-- What was counted: `F` and `T` of the latest session, the packets accepted in it, and
the datagrams ignored. -/
structure Tally where
  opened : Option (Usize × Usize)
  accepted : Nat
  ignored : Nat

def Tally.count (tally : Tally) : ProgressEvent → Tally
  | .receiverSessionEstablished _ f t _ => ⟨some (f, t), 0, tally.ignored⟩
  | .receiverPacketAccepted .. => { tally with accepted := tally.accepted + 1 }
  | .receiverDatagramIgnored .. => { tally with ignored := tally.ignored + 1 }
  | _ => tally

def tallyOf (events : List ProgressEvent) : Tally :=
  events.foldl Tally.count ⟨none, 0, 0⟩

theorem tallyOf_append_singleton (events : List ProgressEvent) (event : ProgressEvent) :
    tallyOf (events ++ [event]) = (tallyOf events).count event := by
  rw [tallyOf, List.foldl_append]
  rfl

/-! ## What events report -/

def ProgressEvent.ignoredCount : ProgressEvent → Option Nat
  | .receiverDatagramIgnored ignored _ => some ignored
  | _ => none

/-- Packets, bytes and expected source symbols of an accepted packet. -/
def ProgressEvent.acceptedCounts : ProgressEvent → Option (Nat × Nat × Nat)
  | .receiverPacketAccepted packets bytes expected _ => some (packets, bytes, expected)
  | _ => none

def ProgressEvent.percent : ProgressEvent → Option Nat
  | .receiverPacketAccepted _ _ _ percent => some percent.toNat
  | .receiverDecodeComplete _ _ percent => some percent.toNat
  | _ => none

def ProgressEvent.establishes : ProgressEvent → Bool
  | .receiverSessionEstablished .. => true
  | _ => false

def ProgressEvent.completes : ProgressEvent → Bool
  | .receiverDecodeComplete .. => true
  | _ => false

/-- `bytes_accepted` of `packets` packets: it saturates. -/
def bytesOf (t : Usize) (packets : Nat) : Nat := min (packets * t.toNat) usizeMax

/-- `decode_percent` of `packets` packets before the codec is done. -/
def pendingPercent (f t : Usize) (packets : Nat) : Nat :=
  min 99 (100 * packets / divCeil f.toNat t.toNat)

/-- The event of accepted packet `packets` of a session with sizes `f` and `t`. -/
def acceptedEvent (f t : Usize) (packets percent : Nat) : ProgressEvent :=
  .receiverPacketAccepted packets (bytesOf t packets) (divCeil f.toNat t.toNat) (UInt8.ofNat percent)

/-- The next event reports the counts that follow `tally`. -/
inductive Carries (tally : Tally) : ProgressEvent → Prop
  | ignored (reason : IgnoredDatagramReason) :
      Carries tally (.receiverDatagramIgnored (tally.ignored + 1) reason)
  | established (sessionId : UInt64) (f t : Usize) :
      Carries tally (.receiverSessionEstablished sessionId f t (divCeil f.toNat t.toNat))
  | accepted {f t : Usize} : tally.opened = some (f, t) →
      Carries tally (acceptedEvent f t (tally.accepted + 1)
        (pendingPercent f t (tally.accepted + 1)))

/-- The events of a receiver that is not done. -/
inductive Ledger : List ProgressEvent → Prop
  | nil : Ledger []
  | record {events : List ProgressEvent} {event : ProgressEvent} : Ledger events →
      Carries (tallyOf events) event → Ledger (events ++ [event])

/-- The events of a receiver that is done: the last packet completes the object. -/
inductive Settled : List ProgressEvent → Prop
  | done {events : List ProgressEvent} {f t : Usize} : Ledger events →
      (tallyOf events).opened = some (f, t) →
      Settled (events ++ [acceptedEvent f t ((tallyOf events).accepted + 1) 100,
        .receiverDecodeComplete ((tallyOf events).accepted + 1)
          (bytesOf t ((tallyOf events).accepted + 1)) 100])

/-! ## Counts over the whole run -/

theorem Ledger.ignoredCounts {events : List ProgressEvent} (h : Ledger events) :
    events.filterMap (·.ignoredCount) = (List.range (tallyOf events).ignored).map (· + 1) := by
  induction h with
  | nil => rfl
  | record _ hevent ih =>
    rw [List.filterMap_append, ih, tallyOf_append_singleton]
    cases hevent with
    | ignored reason =>
      rw [Tally.count, List.range_succ, List.map_append]
      rfl
    | established sessionId f t => exact List.append_nil _
    | accepted hopened => exact List.append_nil _

theorem Settled.ignoredCounts {events : List ProgressEvent} (h : Settled events) :
    ∃ n, events.filterMap (·.ignoredCount) = (List.range n).map (· + 1) := by
  cases h with
  | done hledger _ =>
    refine ⟨_, Eq.trans ?_ hledger.ignoredCounts⟩
    rw [List.filterMap_append]
    exact List.append_nil _

theorem Ledger.not_completes {events : List ProgressEvent} (h : Ledger events) :
    ∀ event ∈ events, ¬ event.completes := by
  induction h with
  | nil => exact fun _ hmem => nomatch hmem
  | record _ hevent ih =>
    intro event hmem
    rcases List.mem_append.mp hmem with hmem | hmem
    · exact ih event hmem
    · rw [List.mem_singleton.mp hmem]
      cases hevent <;> exact fun h => nomatch h

/-! ## Counts since a session was established -/

/-- The events between two sessions: what they count, of a session with sizes `f` and `t`. -/
structure Counts (f t : Usize) (events : List ProgressEvent) (n : Nat) : Prop where
  accepted : events.filterMap (·.acceptedCounts) =
    (List.range n).map fun i => (i + 1, bytesOf t (i + 1), divCeil f.toNat t.toNat)
  percents : events.filterMap (·.percent) = (List.range n).map fun i => pendingPercent f t (i + 1)

theorem pendingPercent_le (f t : Usize) (packets : Nat) : pendingPercent f t packets ≤ 99 :=
  Nat.min_le_left _ _

theorem pendingPercent_mono (f t : Usize) {m n : Nat} (h : m ≤ n) :
    pendingPercent f t m ≤ pendingPercent f t n := by
  have hdiv : 100 * m / divCeil f.toNat t.toNat ≤ 100 * n / divCeil f.toNat t.toNat :=
    Nat.div_le_div_right (Nat.mul_le_mul_left 100 h)
  unfold pendingPercent
  omega

theorem toNat_percent {percent : Nat} (h : percent ≤ 100) : (UInt8.ofNat percent).toNat = percent :=
  UInt8.toNat_ofNat_of_lt' (Nat.lt_of_le_of_lt h (by decide))

theorem Counts.skip {f t : Usize} {events : List ProgressEvent} {n : Nat} (h : Counts f t events n)
    {event : ProgressEvent} (hcounts : event.acceptedCounts = none) (hpercent : event.percent = none) :
    Counts f t (events ++ [event]) n where
  accepted := by
    rw [List.filterMap_append, List.filterMap_cons_none hcounts, h.accepted]
    exact List.append_nil _
  percents := by
    rw [List.filterMap_append, List.filterMap_cons_none hpercent, h.percents]
    exact List.append_nil _

theorem Counts.accept {f t : Usize} {events : List ProgressEvent} {n : Nat} (h : Counts f t events n) :
    Counts f t (events ++ [acceptedEvent f t (n + 1) (pendingPercent f t (n + 1))]) (n + 1) where
  accepted := by
    rw [List.filterMap_append, h.accepted, List.range_succ, List.map_append]
    rfl
  percents := by
    have hle := Nat.le_trans (pendingPercent_le f t (n + 1)) (by decide : 99 ≤ 100)
    have hlast : (acceptedEvent f t (n + 1) (pendingPercent f t (n + 1))).percent =
        some (pendingPercent f t (n + 1)) := congrArg some (toNat_percent hle)
    rw [List.filterMap_append, h.percents, List.filterMap_cons_some hlast, List.range_succ,
      List.map_append]
    rfl

/-- Since the last session was established. -/
theorem Ledger.since_last {events : List ProgressEvent} (h : Ledger events) :
    ∀ {before between : List ProgressEvent} {sessionId : UInt64} {f t : Usize} {expected : Nat},
      events = before ++ .receiverSessionEstablished sessionId f t expected :: between →
      (∀ event ∈ between, ¬ event.establishes) →
      expected = divCeil f.toNat t.toNat ∧ (tallyOf events).opened = some (f, t) ∧
        Counts f t between (tallyOf events).accepted := by
  induction h with
  | nil =>
    intro before between sessionId f t expected hsplit _
    exact absurd hsplit.symm (List.append_ne_nil_of_right_ne_nil _ (List.cons_ne_nil _ _))
  | @record events event hledger hevent ih =>
    intro before between sessionId f t expected hsplit hnone
    rw [tallyOf_append_singleton]
    rcases List.eq_nil_or_concat between with rfl | ⟨between, last, rfl⟩
    · obtain ⟨rfl, hlast⟩ := List.append_inj' hsplit rfl
      cases List.singleton_inj.mp hlast
      cases hevent
      exact ⟨rfl, rfl, ⟨rfl, rfl⟩⟩
    · rw [List.concat_eq_append] at hsplit hnone ⊢
      have hsplit' : events ++ [event] = (before ++
          .receiverSessionEstablished sessionId f t expected :: between) ++ [last] := by
        rw [hsplit, List.append_assoc, List.cons_append]
      obtain ⟨hevents, hlast⟩ := List.append_inj' hsplit' rfl
      cases List.singleton_inj.mp hlast
      obtain ⟨hexpected, hopened, hcounts⟩ := ih hevents fun e hmem =>
        hnone e (List.mem_append_left _ hmem)
      refine ⟨hexpected, ?_⟩
      cases hevent with
      | ignored reason => exact ⟨hopened, hcounts.skip rfl rfl⟩
      | established _ _ _ => exact absurd rfl (hnone _ (List.mem_append_right _ List.mem_cons_self))
      | accepted hopened' =>
        cases hopened.symm.trans hopened'
        exact ⟨hopened, hcounts.accept⟩

/-- What comes of a ledger's first events is a ledger. -/
theorem Ledger.of_append {events : List ProgressEvent} (h : Ledger events) :
    ∀ {before after : List ProgressEvent}, events = before ++ after → Ledger before := by
  induction h with
  | nil =>
    intro before after hsplit
    rw [(List.append_eq_nil_iff.mp hsplit.symm).1]
    exact .nil
  | @record events event hledger hevent ih =>
    intro before after hsplit
    rcases List.eq_nil_or_concat after with rfl | ⟨after, last, rfl⟩
    · rw [List.append_nil] at hsplit
      exact hsplit ▸ hledger.record hevent
    · rw [List.concat_eq_append, ← List.append_assoc] at hsplit
      exact ih (List.append_inj' hsplit rfl).1

/-- What the events after a session count, with the percentages in ascending order. -/
structure Ascends (f t : Usize) (events : List ProgressEvent) : Prop where
  accepted : ∃ n, events.filterMap (·.acceptedCounts) =
    (List.range n).map fun i => (i + 1, bytesOf t (i + 1), divCeil f.toNat t.toNat)
  percents : (events.filterMap (·.percent)).Pairwise (· ≤ ·)

theorem Counts.ascends {f t : Usize} {events : List ProgressEvent} {n : Nat}
    (h : Counts f t events n) : Ascends f t events where
  accepted := ⟨n, h.accepted⟩
  percents := by
    rw [h.percents]
    exact List.Pairwise.map _ (fun _ _ hlt => pendingPercent_mono f t (Nat.succ_le_succ (Nat.le_of_lt hlt)))
      List.pairwise_lt_range

/-- Since any session was established, up to the next. -/
theorem Ledger.since_established {events before between after : List ProgressEvent}
    {sessionId : UInt64} {f t : Usize} {expected : Nat} (h : Ledger events)
    (hsplit : events = before ++ .receiverSessionEstablished sessionId f t expected ::
      (between ++ after))
    (hnone : ∀ event ∈ between, ¬ event.establishes) :
    expected = divCeil f.toNat t.toNat ∧ Ascends f t between := by
  rw [← List.cons_append, ← List.append_assoc] at hsplit
  obtain ⟨hexpected, _, hcounts⟩ := (h.of_append hsplit).since_last rfl hnone
  exact ⟨hexpected, hcounts.ascends⟩

/-- After the last packets of a ledger come the accepted packet that completes the object,
and the completion. -/
theorem Counts.finish {f t : Usize} {events tail : List ProgressEvent} {n m : Nat}
    (h : Counts f t events n)
    (hcounts : tail.filterMap (·.acceptedCounts) = [(n + 1, bytesOf t (n + 1), divCeil f.toNat t.toNat)])
    (hpercents : tail.filterMap (·.percent) = List.replicate m 100) : Ascends f t (events ++ tail) where
  accepted := by
    refine ⟨n + 1, ?_⟩
    rw [List.filterMap_append, h.accepted, hcounts, List.range_succ, List.map_append]
    rfl
  percents := by
    rw [List.filterMap_append, hpercents, List.pairwise_append]
    refine ⟨h.ascends.percents, List.pairwise_replicate.mpr (.inr (Nat.le_refl 100)), ?_⟩
    intro percent hmem last hlast
    rw [h.percents] at hmem
    obtain ⟨i, _, rfl⟩ := List.mem_map.mp hmem
    rw [List.eq_of_mem_replicate hlast]
    exact Nat.le_trans (pendingPercent_le f t (i + 1)) (by decide)

/-- An element that is not in the second part of a list splits the first. -/
theorem split_of_not_mem {α : Type} {front tail before rest : List α} {x : α}
    (h : front ++ tail = before ++ x :: rest) (hx : x ∉ tail) :
    ∃ middle, front = before ++ x :: middle ∧ rest = middle ++ tail := by
  rcases List.append_eq_append_iff.mp h with ⟨more, _, htail⟩ | ⟨after, hfront, hrest⟩
  · rw [htail] at hx
    exact absurd (List.mem_append_right more List.mem_cons_self) hx
  · cases after with
    | nil =>
      have hrest : x :: rest = tail := hrest
      exact absurd (hrest ▸ List.mem_cons_self) hx
    | cons y middle =>
      obtain ⟨rfl, hmiddle⟩ := List.cons.inj hrest
      exact ⟨middle, hfront, hmiddle⟩

theorem Settled.since_established {events before between after : List ProgressEvent}
    {sessionId : UInt64} {f t : Usize} {expected : Nat} (h : Settled events)
    (hsplit : events = before ++ .receiverSessionEstablished sessionId f t expected ::
      (between ++ after))
    (hnone : ∀ event ∈ between, ¬ event.establishes) :
    expected = divCeil f.toNat t.toNat ∧ Ascends f t between := by
  cases h with
  | @done front f' t' hledger hopened =>
    have hopens : ProgressEvent.receiverSessionEstablished sessionId f t expected ∉
        [acceptedEvent f' t' ((tallyOf front).accepted + 1) 100,
          .receiverDecodeComplete ((tallyOf front).accepted + 1)
            (bytesOf t' ((tallyOf front).accepted + 1)) 100] := by simp [acceptedEvent]
    obtain ⟨middle, hfront, hmiddle⟩ := split_of_not_mem hsplit hopens
    rcases List.append_eq_append_iff.mp hmiddle with ⟨more, hmore, _⟩ | ⟨tail, rfl, htail⟩
    · -- the next session was established before them
      exact hledger.since_established (hmore ▸ hfront) hnone
    · obtain ⟨hexpected, hlast, hcounts⟩ := hledger.since_last hfront fun event hmem =>
        hnone event (List.mem_append_left _ hmem)
      cases hopened.symm.trans hlast
      refine ⟨hexpected, ?_⟩
      match tail, htail with
      | [], _ => exact (List.append_nil middle).symm ▸ hcounts.ascends
      | [_], htail =>
        cases htail
        exact @Counts.finish _ _ _ _ _ 1 hcounts rfl rfl
      | [_, _], htail =>
        cases htail
        exact @Counts.finish _ _ _ _ _ 2 hcounts rfl rfl
      | _ :: _ :: _ :: _, htail => cases htail

end FountainTransfer
