import FountainTransfer.Machine
import Mathlib.Logic.Function.Basic
import Mathlib.Logic.Relation

/-!
# Machines that read from a lossy medium

Each producer puts the messages of its script on a medium, one by one. Each consumer is a
`HaltingMachine` whose inputs are copies of what is on the medium. The medium may lose,
delay, repeat and reorder messages, and a consumer may also read stray inputs that no
producer sent. Results:

1. `Reachable.hasRead`: in every reachable world a consumer is where a run over inputs
   that were offered to it has led.
2. `exists_sent`, `exists_read`: a producer may send all it has left, and a waiting
   consumer may be given any inputs that are on offer.
3. `simulation`: if each step is matched by a step of an abstract system, or by none, each
   run is matched by a run.
-/

namespace Medium

open HaltingMachine

/-- Producers `ι`, consumers `κ`, messages `μ`, and the machines of the consumers. -/
structure Setup (ι κ μ σ α ε ρ : Type) where
  script : ι → List μ
  /-- What the producer sends may get to the consumer. -/
  hears : κ → ι → Prop
  /-- The message may be read as this input. -/
  reads : μ → α → Prop
  stray : κ → α → Prop
  step : κ → σ → α → Out σ ε ρ
  start : κ → σ

/-- How many messages each producer has sent, what the medium holds, and what each
consumer has done. -/
structure World (ι κ μ σ ε ρ : Type) where
  sent : ι → Nat
  pool : List (ι × μ)
  nodes : κ → Out σ ε ρ

section

variable {ι κ μ σ α ε ρ : Type} (S : Setup ι κ μ σ α ε ρ)

def Setup.initial : World ι κ μ σ ε ρ := ⟨fun _ => 0, [], fun j => ⟨S.start j, [], none⟩⟩

/-- Consumer `j` may read `a` now. -/
def OnOffer (w : World ι κ μ σ ε ρ) (j : κ) (a : α) : Prop :=
  S.stray j a ∨ ∃ i m, (i, m) ∈ w.pool ∧ S.hears j i ∧ S.reads m a

/-- Consumer `j` may have read `a` by now. -/
def Offered (w : World ι κ μ σ ε ρ) (j : κ) (a : α) : Prop :=
  S.stray j a ∨ ∃ i, S.hears j i ∧ ∃ m ∈ (S.script i).take (w.sent i), S.reads m a

/-- The medium holds nothing that was not sent. -/
def PoolSent (w : World ι κ μ σ ε ρ) : Prop :=
  ∀ i m, (i, m) ∈ w.pool → m ∈ (S.script i).take (w.sent i)

/-- Consumer `j` is where its machine gets by reading `history`. -/
structure HasRead (w : World ι κ μ σ ε ρ) (j : κ) (history : List α) : Prop where
  run : w.nodes j = run (S.step j) (S.start j) history
  offered : ∀ a ∈ history, Offered S w j a

end

/-! ## Steps -/

section

variable {ι κ μ σ α ε ρ : Type} [DecidableEq ι] [DecidableEq κ] (S : Setup ι κ μ σ α ε ρ)

/-- Producer `i` puts `m` on the medium. -/
def World.put (w : World ι κ μ σ ε ρ) (i : ι) (m : μ) : World ι κ μ σ ε ρ :=
  { w with
    sent := Function.update w.sent i (w.sent i + 1)
    pool := (i, m) :: w.pool }

/-- Consumer `j` reads `a`. -/
def World.read (w : World ι κ μ σ ε ρ) (j : κ) (a : α) : World ι κ μ σ ε ρ :=
  let out := (S.step j (w.nodes j).state a).after (w.nodes j).events
  { w with nodes := Function.update w.nodes j out }

inductive Step : World ι κ μ σ ε ρ → World ι κ μ σ ε ρ → Prop
  | send {w : World ι κ μ σ ε ρ} (i : ι) (m : μ) :
      (S.script i)[w.sent i]? = some m → Step w (w.put i m)
  | lose {w : World ι κ μ σ ε ρ} (pool : List (ι × μ)) :
      pool ⊆ w.pool → Step w { w with pool := pool }
  | read {w : World ι κ μ σ ε ρ} (j : κ) (a : α) :
      (w.nodes j).halt = none → OnOffer S w j a → Step w (w.read S j a)

def Reachable (w : World ι κ μ σ ε ρ) : Prop := Relation.ReflTransGen (Step S) S.initial w

end

/-! ## What consumers have read -/

section

variable {ι κ μ σ α ε ρ : Type} {S : Setup ι κ μ σ α ε ρ} {w w' : World ι κ μ σ ε ρ} {j : κ}
  {a : α} {history : List α}

theorem Offered.later (h : Offered S w j a) (hle : ∀ i, w.sent i ≤ w'.sent i) :
    Offered S w' j a := by
  rcases h with hstray | ⟨i, hhears, m, hmem, hreads⟩
  · exact .inl hstray
  · exact .inr ⟨i, hhears, m, (List.take_prefix_take_left (hle i)).subset hmem, hreads⟩

theorem PoolSent.offered (h : PoolSent S w) (hoffer : OnOffer S w j a) : Offered S w j a :=
  hoffer.imp id fun ⟨i, m, hmem, hhears, hreads⟩ => ⟨i, hhears, m, h i m hmem, hreads⟩

theorem HasRead.later (h : HasRead S w j history) (hnodes : w'.nodes j = w.nodes j)
    (hle : ∀ i, w.sent i ≤ w'.sent i) : HasRead S w' j history :=
  ⟨hnodes.trans h.run, fun a hmem => (h.offered a hmem).later hle⟩

theorem put_sent_self [DecidableEq ι] (w : World ι κ μ σ ε ρ) (i : ι) (m : μ) :
    (w.put i m).sent i = w.sent i + 1 :=
  Function.update_self ..

theorem read_sent [DecidableEq κ] (w : World ι κ μ σ ε ρ) (j : κ) (a : α) :
    (w.read S j a).sent = w.sent := rfl

theorem read_self [DecidableEq κ] (w : World ι κ μ σ ε ρ) (j : κ) (a : α) :
    (w.read S j a).nodes j = (S.step j (w.nodes j).state a).after (w.nodes j).events :=
  Function.update_self ..

theorem read_other [DecidableEq κ] {j' : κ} (h : j' ≠ j) (a : α) :
    (w.read S j a).nodes j' = w.nodes j' :=
  Function.update_of_ne h ..

theorem HasRead.read [DecidableEq κ] (h : HasRead S w j history) (hwaits : (w.nodes j).halt = none)
    (hoffered : Offered S w j a) : HasRead S (w.read S j a) j (history ++ [a]) where
  run := by
    rw [h.run] at hwaits
    rw [read_self, run_concat hwaits, h.run]
  offered b hmem := by
    rcases List.mem_append.mp hmem with hmem | hmem
    · exact h.offered b hmem
    · rw [List.mem_singleton.mp hmem]
      exact hoffered

end

section

variable {ι κ μ σ α ε ρ : Type} [DecidableEq ι] [DecidableEq κ] {S : Setup ι κ μ σ α ε ρ}
  {w w' : World ι κ μ σ ε ρ} {j : κ} {a : α} {history : List α}

/-- Nothing that was sent is taken back. -/
theorem Step.sent_le (h : Step S w w') (i : ι) : w.sent i ≤ w'.sent i := by
  cases h with
  | send i' m _ =>
    by_cases hi : i = i'
    · subst hi
      rw [put_sent_self]
      exact Nat.le_succ _
    · exact Nat.le_of_eq (Function.update_of_ne hi ..).symm
  | lose _ _ => exact Nat.le_refl _
  | read _ _ _ _ => exact Nat.le_refl _

theorem Step.poolSent (hstep : Step S w w') (h : PoolSent S w) : PoolSent S w' := by
  have hle := hstep.sent_le
  cases hstep with
  | send i m hm =>
    intro i' m' hmem
    rcases List.mem_cons.mp hmem with heq | hmem
    · cases heq
      refine List.mem_of_getElem? (i := w.sent i) ?_
      rw [put_sent_self, List.getElem?_take_of_lt (Nat.lt_succ_self _)]
      exact hm
    · exact (List.take_prefix_take_left (hle i')).subset (h i' m' hmem)
  | lose _ hsub => exact fun i m hmem => h i m (hsub hmem)
  | read _ _ _ _ => exact h

theorem Step.hasRead (h : Step S w w') (hpool : PoolSent S w)
    (hhistory : ∀ j, ∃ history, HasRead S w j history) (j : κ) :
    ∃ history, HasRead S w' j history := by
  have hle := h.sent_le
  obtain ⟨history, hj⟩ := hhistory j
  cases h with
  | send _ _ _ => exact ⟨history, hj.later rfl hle⟩
  | lose _ _ => exact ⟨history, hj.later rfl hle⟩
  | read j' a hwaits hoffer =>
    by_cases heq : j = j'
    · subst heq
      exact ⟨_, hj.read hwaits (hpool.offered hoffer)⟩
    · exact ⟨history, hj.later (read_other heq a) hle⟩

theorem Reachable.poolSent (h : Reachable S w) : PoolSent S w := by
  induction h with
  | refl => exact fun _ _ hmem => nomatch hmem
  | tail _ hstep ih => exact hstep.poolSent ih

/-- The run lemma. -/
theorem Reachable.hasRead (h : Reachable S w) : ∀ j, ∃ history, HasRead S w j history := by
  induction h with
  | refl => exact fun j => ⟨[], rfl, fun _ hmem => nomatch hmem⟩
  | tail hreach hstep ih => exact hstep.hasRead (Reachable.poolSent hreach) ih

/-- A consumer that has halted stays as it is. -/
theorem Step.halted (h : Step S w w') {r : ρ} (hr : (w.nodes j).halt = some r) :
    w'.nodes j = w.nodes j := by
  cases h with
  | send _ _ _ => rfl
  | lose _ _ => rfl
  | read j' a hwaits _ =>
    by_cases heq : j = j'
    · subst heq
      rw [hr] at hwaits
      cases hwaits
    · exact read_other heq a

theorem halted_stays (h : Relation.ReflTransGen (Step S) w w') {r : ρ}
    (hr : (w.nodes j).halt = some r) : w'.nodes j = w.nodes j := by
  induction h with
  | refl => rfl
  | tail _ hstep ih => exact (hstep.halted ((congrArg Out.halt ih).trans hr)).trans ih

/-! ## What may still happen -/

theorem exists_sent (i : ι) (w : World ι κ μ σ ε ρ) :
    ∃ w', Relation.ReflTransGen (Step S) w w' ∧ w'.nodes = w.nodes ∧ w.pool ⊆ w'.pool ∧
      ∀ m ∈ (S.script i).drop (w.sent i), (i, m) ∈ w'.pool := by
  -- by induction on what is left to send
  generalize hleft : (S.script i).drop (w.sent i) = left
  induction left generalizing w with
  | nil => exact ⟨w, .refl, rfl, List.Subset.refl _, fun _ hmem => nomatch hmem⟩
  | cons m left ih =>
    have hm : (S.script i)[w.sent i]? = some m := by
      rw [← List.head?_drop, hleft]
      rfl
    have hrest : (S.script i).drop ((w.put i m).sent i) = left := by
      rw [put_sent_self, ← List.tail_drop, hleft]
      rfl
    obtain ⟨w', hsteps, hnodes, hkept, hpool⟩ := ih (w.put i m) hrest
    refine ⟨w', .head (.send i m hm) hsteps, hnodes,
      fun _ hmem => hkept (List.mem_cons_of_mem _ hmem), fun m' hmem => ?_⟩
    rcases List.mem_cons.mp hmem with rfl | hmem
    · exact hkept List.mem_cons_self
    · exact hpool m' hmem

/-- Reading leaves the medium as it is, so the same inputs stay on offer. -/
theorem exists_read {inputs : List α} (w : World ι κ μ σ ε ρ)
    (hoffer : ∀ a ∈ inputs, OnOffer S w j a) (hwaits : (w.nodes j).halt = none) :
    ∃ w', Relation.ReflTransGen (Step S) w w' ∧ w'.pool = w.pool ∧
      w'.nodes = Function.update w.nodes j
        ((run (S.step j) (w.nodes j).state inputs).after (w.nodes j).events) := by
  induction inputs generalizing w with
  | nil =>
    refine ⟨w, .refl, rfl, ?_⟩
    have hsame : (⟨(w.nodes j).state, [], none⟩ : Out σ ε ρ).after (w.nodes j).events =
        w.nodes j := by
      rw [← hwaits]
      simp [Out.after]
    rw [run_nil, hsame, Function.update_eq_self]
  | cons a inputs ih =>
    have hread : Step S w (w.read S j a) := .read j a hwaits (hoffer a List.mem_cons_self)
    have hself : (w.read S j a).nodes j = _ := read_self w j a
    cases ha : (S.step j (w.nodes j).state a).halt with
    | some r => exact ⟨_, .single hread, rfl, by rw [run_cons_halt ha]; rfl⟩
    | none =>
      obtain ⟨w', hsteps, hpool, hnodes⟩ := ih (w.read S j a)
        (fun b hmem => hoffer b (List.mem_cons_of_mem _ hmem)) (by rw [hself, after_halt, ha])
      refine ⟨w', .head hread hsteps, hpool, ?_⟩
      rw [hnodes, hself, run_cons_continue ha]
      simp [World.read, Out.after]

end

/-! ## Simulation -/

/-- `view` matches each step between states of `reachable` with a step of the abstract
system, unless it shows the same before and after. -/
theorem simulation {W A : Type} {step : W → W → Prop} {abstract : A → A → Prop} {view : W → A}
    {start w : W}
    (hstep : ∀ w w', Relation.ReflTransGen step start w → step w w' →
      view w' = view w ∨ abstract (view w) (view w'))
    (h : Relation.ReflTransGen step start w) :
    Relation.ReflTransGen abstract (view start) (view w) := by
  induction h with
  | refl => exact .refl
  | tail hreach hlast ih =>
    rcases hstep _ _ hreach hlast with hsame | hmove
    · rw [hsame]
      exact ih
    · exact ih.tail hmove

end Medium
