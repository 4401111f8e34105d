/-!
# Machines that consume inputs until they halt

A machine reads one input at a time. A step yields the next state, the events it
emits, and possibly a result, after which nothing more is read. This module has the
induction rules every result about such a machine needs:

* `run_append`: a run over a concatenation;
* `run_safe`: an invariant with a postcondition on the halting step;
* `run_halts`: a machine that cannot wait for more after all its inputs has halted;
* `run_traced`: an invariant that also sees the inputs read and the events emitted;
* `run_stops`, `run_answers`: a machine whose halts, or answers, do not depend on its state;
* `run_simulates`: two machines that stay related look the same from outside;
* `run_thinned`: inputs that do nothing observable may be dropped or inserted;
* `run_matches`: two machines that stay related emit the same events, one by one, up to
  what a view of the events forgets.
-/

namespace HaltingMachine

/-- What one step, or a whole run, leaves behind. `halt = none` means the machine
still waits for input. -/
structure Out (σ ε ρ : Type) where
  state : σ
  events : List ε
  halt : Option ρ

/-- The same outcome with earlier events put in front. -/
def Out.after {σ ε ρ : Type} (o : Out σ ε ρ) (earlier : List ε) : Out σ ε ρ :=
  { o with events := earlier ++ o.events }

section Runs

variable {σ τ ι ε ρ : Type}

/-- Feed the inputs one by one, stopping at the first step that halts. -/
def run (step : σ → ι → Out σ ε ρ) : σ → List ι → Out σ ε ρ
  | s, [] => ⟨s, [], none⟩
  | s, i :: is =>
    match (step s i).halt with
    | some _ => step s i
    | none => (run step (step s i).state is).after (step s i).events

/-- `t` is reached from `s` by some inputs, none of which halts the machine. -/
def Reaches (step : σ → ι → Out σ ε ρ) (s t : σ) : Prop :=
  ∃ is, (run step s is).halt = none ∧ (run step s is).state = t

@[simp] theorem after_state (o : Out σ ε ρ) (earlier : List ε) :
    (o.after earlier).state = o.state := rfl

@[simp] theorem after_halt (o : Out σ ε ρ) (earlier : List ε) :
    (o.after earlier).halt = o.halt := rfl

@[simp] theorem after_events (o : Out σ ε ρ) (earlier : List ε) :
    (o.after earlier).events = earlier ++ o.events := rfl

theorem after_nil (o : Out σ ε ρ) : o.after [] = o := rfl

variable {step : σ → ι → Out σ ε ρ}

@[simp] theorem run_nil (s : σ) : run step s [] = ⟨s, [], none⟩ := rfl

theorem run_cons_halt {s : σ} {i : ι} {is : List ι} {r : ρ} (h : (step s i).halt = some r) :
    run step s (i :: is) = step s i := by
  simp [run, h]

theorem run_cons_continue {s : σ} {i : ι} {is : List ι} (h : (step s i).halt = none) :
    run step s (i :: is) = (run step (step s i).state is).after (step s i).events := by
  simp [run, h]

/-- A run that halts does not look at later inputs. -/
theorem run_append_of_halt {s : σ} {is js : List ι} {r : ρ} (h : (run step s is).halt = some r) :
    run step s (is ++ js) = run step s is := by
  induction is generalizing s with
  | nil => cases h
  | cons i is ih =>
    cases hi : (step s i).halt with
    | some q => rw [List.cons_append, run_cons_halt hi, run_cons_halt hi]
    | none =>
      rw [run_cons_continue hi] at h
      rw [List.cons_append, run_cons_continue hi, run_cons_continue hi, ih h]

/-- A run that has not halted goes on from the state it reached. -/
theorem run_append {s : σ} {is js : List ι} (h : (run step s is).halt = none) :
    run step s (is ++ js) = (run step (run step s is).state js).after (run step s is).events := by
  induction is generalizing s with
  | nil => simp [Out.after]
  | cons i is ih =>
    cases hi : (step s i).halt with
    | some q => rw [run_cons_halt hi, hi] at h; cases h
    | none =>
      rw [run_cons_continue hi] at h
      rw [List.cons_append, run_cons_continue hi, run_cons_continue hi, ih h]
      simp [Out.after]

/-- The invariant rule. `P` holds before every step, `Q` of the state and the result
in which the machine halts. -/
theorem run_safe {P : σ → Prop} {Q : σ → ρ → Prop} {s : σ} {is : List ι} (hs : P s)
    (hstep : ∀ s i, i ∈ is → P s →
      ((step s i).halt = none → P (step s i).state) ∧
      (∀ r, (step s i).halt = some r → Q (step s i).state r)) :
    ((run step s is).halt = none → P (run step s is).state) ∧
    (∀ r, (run step s is).halt = some r → Q (run step s is).state r) := by
  induction is generalizing s with
  | nil => exact ⟨fun _ => hs, fun r h => nomatch h⟩
  | cons i is ih =>
    have hi := hstep s i List.mem_cons_self hs
    cases hgo : (step s i).halt with
    | some q =>
      rw [run_cons_halt hgo]
      exact hi
    | none =>
      rw [run_cons_continue hgo]
      exact ih (hi.1 hgo) fun s j hj => hstep s j (List.mem_cons_of_mem _ hj)

/-- The progress rule. `P seen s` holds of a machine that waits after it read `seen`. If
none can wait after all of its inputs, the machine halts, with a result in `Q`. -/
theorem run_halts {P : List ι → σ → Prop} {Q : ρ → Prop} {s : σ} {is : List ι} (hs : P [] s)
    (hstep : ∀ seen s i, seen ++ [i] <+: is → P seen s →
      ((step s i).halt = none → P (seen ++ [i]) (step s i).state) ∧
      (∀ r, (step s i).halt = some r → Q r))
    (hdone : ∀ s, ¬ P is s) : ∃ r, (run step s is).halt = some r ∧ Q r := by
  -- by induction on what is left to read, for every `seen` before it
  have hgeneral : ∀ (rest seen : List ι) (s : σ), P seen s → seen ++ rest = is →
      ∃ r, (run step s rest).halt = some r ∧ Q r := by
    intro rest
    induction rest with
    | nil =>
      intro seen s hs hsplit
      rw [List.append_nil] at hsplit
      exact absurd (hsplit ▸ hs) (hdone s)
    | cons i rest ih =>
      intro seen s hs hsplit
      have hsplit' : seen ++ [i] ++ rest = is := by rw [List.append_assoc]; exact hsplit
      obtain ⟨hwait, hresult⟩ := hstep seen s i ⟨rest, hsplit'⟩ hs
      cases hi : (step s i).halt with
      | some r =>
        rw [run_cons_halt hi]
        exact ⟨r, hi, hresult r hi⟩
      | none =>
        rw [run_cons_continue hi]
        exact ih (seen ++ [i]) _ (hwait hi) hsplit'
  exact hgeneral is [] s hs (List.nil_append is)

theorem run_singleton (s : σ) (i : ι) : run step s [i] = step s i := by
  cases hi : (step s i).halt with
  | some r => rw [run_cons_halt hi]
  | none =>
    rw [run_cons_continue hi, run_nil]
    generalize step s i = out at hi
    obtain ⟨state, events, halt⟩ := out
    cases hi
    simp [Out.after]

/-- A run of one input more. -/
theorem run_concat {s : σ} {is : List ι} {i : ι} (h : (run step s is).halt = none) :
    run step s (is ++ [i]) = (step (run step s is).state i).after (run step s is).events := by
  rw [run_append h, run_singleton]

/-- A run that halts does so in the last step it takes. -/
theorem run_last {s : σ} {is : List ι} {r : ρ} (h : (run step s is).halt = some r) :
    ∃ before i after, is = before ++ i :: after ∧ (run step s before).halt = none ∧
      (step (run step s before).state i).halt = some r ∧
      run step s is = (step (run step s before).state i).after (run step s before).events := by
  induction is generalizing s with
  | nil => cases h
  | cons i is ih =>
    cases hi : (step s i).halt with
    | some q =>
      rw [run_cons_halt hi] at h ⊢
      exact ⟨[], i, is, rfl, rfl, h, rfl⟩
    | none =>
      rw [run_cons_continue hi] at h ⊢
      obtain ⟨before, j, after, rfl, hgo, hlast, hrun⟩ := ih h
      refine ⟨i :: before, j, after, rfl, ?_⟩
      rw [run_cons_continue hi, hrun]
      refine ⟨hgo, hlast, ?_⟩
      simp [Out.after]

/-- The history rule. `P seen s events` holds of a machine that waits after it read `seen`
and emitted `events`. -/
theorem run_traced {P : List ι → σ → List ε → Prop} {s : σ} (hs : P [] s [])
    (hstep : ∀ seen s events i, P seen s events → (step s i).halt = none →
      P (seen ++ [i]) (step s i).state (events ++ (step s i).events)) (is : List ι) :
    (run step s is).halt = none → P is (run step s is).state (run step s is).events := by
  -- by induction on what is left to read, for every history before it
  have hgeneral : ∀ (rest seen : List ι) (s : σ) (events : List ε), P seen s events →
      (run step s rest).halt = none →
      P (seen ++ rest) (run step s rest).state (events ++ (run step s rest).events) := by
    intro rest
    induction rest with
    | nil =>
      intro seen s events hP _
      rw [run_nil, List.append_nil, List.append_nil]
      exact hP
    | cons i rest ih =>
      intro seen s events hP hgo
      cases hi : (step s i).halt with
      | some r =>
        rw [run_cons_halt hi, hi] at hgo
        cases hgo
      | none =>
        rw [run_cons_continue hi] at hgo ⊢
        have hnext := ih (seen ++ [i]) _ _ (hstep seen s events i hP hi) hgo
        rw [List.append_assoc, List.append_assoc] at hnext
        exact hnext
  exact hgeneral is [] s [] hs

/-- An invariant of the steps holds in every state that is reached. -/
theorem Reaches.invariant {P : σ → Prop} {s t : σ} (h : Reaches step s t) (hs : P s)
    (hstep : ∀ s i, P s → (step s i).halt = none → P (step s i).state) : P t := by
  obtain ⟨is, hwait, rfl⟩ := h
  have hsafe := run_safe (Q := fun _ _ => True) hs
    fun s i (_ : i ∈ is) hp => ⟨hstep s i hp, fun _ _ => trivial⟩
  exact hsafe.1 hwait

/-- A machine that emits at most one event of a kind for each input. -/
theorem run_countP_le {p : ε → Bool} (hstep : ∀ s i, (step s i).events.countP p ≤ 1) (is : List ι) :
    ∀ s, (run step s is).events.countP p ≤ is.length := by
  induction is with
  | nil => exact fun _ => Nat.le_refl 0
  | cons i is ih =>
    intro s
    have hfirst := hstep s i
    rw [List.length_cons]
    cases hi : (step s i).halt with
    | some r =>
      rw [run_cons_halt hi]
      omega
    | none =>
      have hrest := ih (step s i).state
      rw [run_cons_continue hi, after_events, List.countP_append]
      omega

/-- A machine whose halts, wherever `P` holds, depend on the input alone. -/
theorem run_stops {P : σ → Prop} {stop : ι → Option ρ}
    (hstep : ∀ s i, P s →
      (step s i).halt = stop i ∧ ((step s i).halt = none → P (step s i).state))
    (is : List ι) : ∀ {s : σ}, P s → (run step s is).halt = is.findSome? stop := by
  induction is with
  | nil => exact fun _ => rfl
  | cons i is ih =>
    intro s hs
    obtain ⟨hhalt, hnext⟩ := hstep s i hs
    rw [List.findSome?_cons, ← hhalt]
    cases hi : (step s i).halt with
    | some r =>
      rw [run_cons_halt hi]
      exact hi
    | none =>
      rw [run_cons_continue hi, after_halt]
      exact ih (hnext hi)

/-- A machine that, wherever `P` holds, answers an input in a way that depends on nothing
else, or halts with what `stop` says. -/
theorem run_answers {P : σ → Prop} {stop : ι → Option ρ} {answer : ι → List ε}
    (hgoes : ∀ s i, P s → stop i = none →
      (step s i).events = answer i ∧ (step s i).halt = none ∧ P (step s i).state)
    (hstops : ∀ s i r, P s → stop i = some r → (step s i).events = [] ∧ (step s i).halt = some r)
    (is : List ι) : ∀ {s : σ}, P s →
      (run step s is).events = (is.takeWhile fun i => (stop i).isNone).flatMap answer := by
  induction is with
  | nil => exact fun _ => rfl
  | cons i is ih =>
    intro s hs
    cases hi : stop i with
    | some r =>
      obtain ⟨hevents, hhalt⟩ := hstops s i r hs hi
      rw [run_cons_halt hhalt, hevents, List.takeWhile_cons, hi]
      rfl
    | none =>
      obtain ⟨hevents, hgo, hnext⟩ := hgoes s i hs hi
      rw [run_cons_continue hgo, after_events, hevents, ih hnext, List.takeWhile_cons, hi]
      rfl

/-! ## Looking the same from outside -/

/-- What an observer of the `visible` events and of the result sees. -/
def observed (visible : ε → Bool) (o : Out σ ε ρ) : List ε × Option ρ :=
  (o.events.filter visible, o.halt)

theorem observed_after (visible : ε → Bool) (o : Out σ ε ρ) (earlier : List ε) :
    observed visible (o.after earlier) =
      (earlier.filter visible ++ (observed visible o).1, (observed visible o).2) := by
  simp [observed, Out.after]

/-- `Agree visible R o o'`: the two steps show the same, and if they go on they go on
in related states. -/
def Agree (visible : ε → Bool) (R : σ → τ → Prop) (o : Out σ ε ρ) (o' : Out τ ε ρ) : Prop :=
  observed visible o = observed visible o' ∧ (o.halt = none → R o.state o'.state)

theorem Agree.after {visible : ε → Bool} {R : σ → τ → Prop} {o : Out σ ε ρ} {o' : Out τ ε ρ}
    (h : Agree visible R o o') {earlier earlier' : List ε}
    (he : earlier.filter visible = earlier'.filter visible) :
    Agree visible R (o.after earlier) (o'.after earlier') := by
  obtain ⟨hobs, hrel⟩ := h
  refine ⟨?_, hrel⟩
  rw [observed_after, observed_after, hobs, he]

/-- `Thinned step step' silent silent' s s' is js`: `js` is `is` without some inputs that are silent in
the state they meet, where the run over `is` starts in `s` and the one over `js` in
`s'`. Silence may be judged in either run. -/
inductive Thinned (step : σ → ι → Out σ ε ρ) (step' : τ → ι → Out τ ε ρ)
    (silent : σ → ι → Prop) (silent' : τ → ι → Prop) : σ → τ → List ι → List ι → Prop
  | nil {s : σ} {s' : τ} : Thinned step step' silent silent' s s' [] []
  | keep {s : σ} {s' : τ} {i : ι} {is js : List ι} :
      Thinned step step' silent silent' (step s i).state (step' s' i).state is js →
      Thinned step step' silent silent' s s' (i :: is) (i :: js)
  | drop {s : σ} {s' : τ} {i : ι} {is js : List ι} :
      silent s i ∨ silent' s' i →
      Thinned step step' silent silent' (step s i).state s' is js →
      Thinned step step' silent silent' s s' (i :: is) js

variable {step' : τ → ι → Out τ ε ρ}

theorem Thinned.refl {silent : σ → ι → Prop} {silent' : τ → ι → Prop} :
    ∀ (is : List ι) (s : σ) (s' : τ), Thinned step step' silent silent' s s' is is
  | [], _, _ => .nil
  | _ :: is, _, _ => .keep (Thinned.refl is _ _)

/-- Inputs that are silent where the shorter run starts may all be dropped. -/
theorem Thinned.dropAll {silent : σ → ι → Prop} {silent' : τ → ι → Prop} {s' : τ} {before : List ι}
    (h : ∀ i ∈ before, silent' s' i) (rest : List ι) :
    ∀ s : σ, Thinned step step' silent silent' s s' (before ++ rest) rest := by
  induction before with
  | nil => exact fun s => .refl rest s s'
  | cons i before ih =>
    exact fun s => .drop (.inr (h i List.mem_cons_self))
      (ih (fun j hj => h j (List.mem_cons_of_mem _ hj)) _)

/-- Inputs that are silent in every state may be filtered out. -/
theorem Thinned.filter {silent : σ → ι → Prop} {silent' : τ → ι → Prop} {keep : ι → Bool}
    (h : ∀ s i, ¬ keep i = true → silent s i) :
    ∀ (is : List ι) (s : σ) (s' : τ), Thinned step step' silent silent' s s' is (is.filter keep)
  | [], _, _ => .nil
  | i :: is, s, s' => by
    rw [List.filter_cons]
    split
    · exact .keep (Thinned.filter h is _ _)
    · next hdrop => exact .drop (.inl (h s i hdrop)) (Thinned.filter h is _ _)

/-- Dropping silent inputs changes nothing an observer sees. The relation may depend on
the inputs the first machine has still to read. -/
theorem run_thinned {visible : ε → Bool} {R : σ → τ → List ι → Prop} {silent : σ → ι → Prop}
    {silent' : τ → ι → Prop}
    (hkeep : ∀ s s' i is, R s s' (i :: is) →
      Agree visible (fun t t' => R t t' is) (step s i) (step' s' i))
    (hdrop : ∀ s s' i is, R s s' (i :: is) → silent s i ∨ silent' s' i →
      observed visible (step s i) = ([], none) ∧ R (step s i).state s' is)
    {s : σ} {s' : τ} {is js : List ι} (hR : R s s' is)
    (hthin : Thinned step step' silent silent' s s' is js) :
    Agree visible (fun t t' => R t t' []) (run step s is) (run step' s' js) := by
  induction hthin with
  | nil => exact ⟨rfl, fun _ => hR⟩
  | @keep s s' i is js _ ih =>
    have hagree := hkeep s s' i is hR
    have hhalt : (step s i).halt = (step' s' i).halt := congrArg Prod.snd hagree.1
    cases hi : (step s i).halt with
    | some r =>
      rw [run_cons_halt hi, run_cons_halt (hhalt.symm.trans hi)]
      exact ⟨hagree.1, fun hgo => by rw [hi] at hgo; cases hgo⟩
    | none =>
      rw [run_cons_continue hi, run_cons_continue (hhalt.symm.trans hi)]
      exact (ih (hagree.2 hi)).after (congrArg Prod.fst hagree.1)
  | @drop s s' i is js hsilent _ ih =>
    obtain ⟨hnone, hrel⟩ := hdrop s s' i is hR hsilent
    have hi : (step s i).halt = none := congrArg Prod.snd hnone
    have hevents : (step s i).events.filter visible = [] := congrArg Prod.fst hnone
    rw [run_cons_continue hi]
    -- only the first machine moves; what it showed is filtered out
    have hnothing : (step s i).events.filter visible = ([] : List ε).filter visible := hevents
    have hrest := (ih hrel).after hnothing
    simpa [Out.after] using hrest

/-- Two machines whose steps agree on related states agree on whole runs. -/
theorem run_simulates {visible : ε → Bool} {R : σ → τ → List ι → Prop}
    (hstep : ∀ s s' i is, R s s' (i :: is) →
      Agree visible (fun t t' => R t t' is) (step s i) (step' s' i))
    {s : σ} {s' : τ} {is : List ι} (hR : R s s' is) :
    Agree visible (fun t t' => R t t' []) (run step s is) (run step' s' is) := by
  have hthin : Thinned step step' (fun _ _ => False) (fun _ _ => False) s s' is is := .refl is s s'
  exact run_thinned hstep (fun _ _ _ _ _ h => by simp at h) hR hthin

/-! ## Event by event -/

/-- `Matches view R o o'`: the two steps emit events that look the same through `view`,
end the same way, and if they go on they go on in related states. -/
structure Matches {ε' : Type} (view : ε → ε') (R : σ → τ → Prop) (o : Out σ ε ρ) (o' : Out τ ε ρ) :
    Prop where
  events : o.events.map view = o'.events.map view
  halt : o.halt = o'.halt
  state : o.halt = none → R o.state o'.state

theorem Matches.after {ε' : Type} {view : ε → ε'} {R : σ → τ → Prop} {o : Out σ ε ρ}
    {o' : Out τ ε ρ} (h : Matches view R o o') {earlier earlier' : List ε}
    (he : earlier.map view = earlier'.map view) :
    Matches view R (o.after earlier) (o'.after earlier') := by
  obtain ⟨hevents, hhalt, hstate⟩ := h
  refine ⟨?_, hhalt, hstate⟩
  rw [after_events, after_events, List.map_append, List.map_append, he, hevents]

/-- Two machines whose steps match on related states match on whole runs. -/
theorem run_matches {ε' : Type} {view : ε → ε'} {R : σ → τ → Prop}
    (hstep : ∀ s s' i, R s s' → Matches view R (step s i) (step' s' i)) (is : List ι) :
    ∀ {s : σ} {s' : τ}, R s s' → Matches view R (run step s is) (run step' s' is) := by
  induction is with
  | nil =>
    intro s s' hR
    exact ⟨rfl, rfl, fun _ => hR⟩
  | cons i is ih =>
    intro s s' hR
    have hmatch := hstep s s' i hR
    cases hi : (step s i).halt with
    | some r =>
      rw [run_cons_halt hi, run_cons_halt (hmatch.halt.symm.trans hi)]
      exact hmatch
    | none =>
      rw [run_cons_continue hi, run_cons_continue (hmatch.halt.symm.trans hi)]
      exact (ih (hmatch.state hi)).after hmatch.events

end Runs

end HaltingMachine
