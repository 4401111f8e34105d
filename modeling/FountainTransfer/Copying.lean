import Mathlib.Logic.Function.Basic
import Mathlib.Logic.Relation

/-!
# Copying objects to those who wait for one

What a transfer is for, with no packets and no network. A source begins to offer its
object at some time. A destination waits, and then it gets the whole object of one source
it hears that has begun, or it fails; in either case nothing happens to it any more.
Results:

1. `Reachable.got`: what a destination got is the object of a source it hears that has begun.
2. `final`: a destination that no longer waits stays as it is.
-/

namespace Copying

/-- What became of a destination. -/
inductive Fate (β : Type)
  | waiting
  | got (object : β)
  | failed

structure Offers (ι κ β : Type) where
  object : ι → β
  hears : κ → ι → Prop

structure State (ι κ β : Type) where
  begun : ι → Prop
  fate : κ → Fate β

def State.start (ι κ β : Type) : State ι κ β := ⟨fun _ => False, fun _ => .waiting⟩

section

variable {ι κ β : Type} [DecidableEq κ]

/-- Destination `j` no longer waits. -/
def State.settle (s : State ι κ β) (j : κ) (fate : Fate β) : State ι κ β :=
  { s with fate := Function.update s.fate j fate }

inductive Step (O : Offers ι κ β) : State ι κ β → State ι κ β → Prop
  | begins {s : State ι κ β} (i : ι) : Step O s { s with begun := fun i' => i' = i ∨ s.begun i' }
  | copies {s : State ι κ β} (j : κ) (i : ι) : s.fate j = .waiting → s.begun i → O.hears j i →
      Step O s (s.settle j (.got (O.object i)))
  | fails {s : State ι κ β} (j : κ) : s.fate j = .waiting → Step O s (s.settle j .failed)

def Reachable (O : Offers ι κ β) (s : State ι κ β) : Prop :=
  Relation.ReflTransGen (Step O) (State.start ι κ β) s

variable {O : Offers ι κ β} {s s' : State ι κ β} {j : κ}

theorem settle_self (s : State ι κ β) (j : κ) (fate : Fate β) : (s.settle j fate).fate j = fate :=
  Function.update_self ..

theorem settle_other {j' : κ} (h : j' ≠ j) (fate : Fate β) : (s.settle j fate).fate j' = s.fate j' :=
  Function.update_of_ne h ..

/-- A destination that settles was waiting. -/
theorem settle_waiting {j' : κ} {fate : Fate β} (h : s.fate j = .waiting)
    (hj' : s.fate j' ≠ .waiting) : (s.settle j fate).fate j' = s.fate j' :=
  settle_other (fun heq : j' = j => hj' (heq ▸ h)) fate

theorem Step.final (h : Step O s s') (hj : s.fate j ≠ .waiting) : s'.fate j = s.fate j := by
  cases h with
  | begins _ => rfl
  | copies _ _ hwaits _ _ => exact settle_waiting hwaits hj
  | fails _ hwaits => exact settle_waiting hwaits hj

theorem final (h : Relation.ReflTransGen (Step O) s s') (hj : s.fate j ≠ .waiting) :
    s'.fate j = s.fate j := by
  induction h with
  | refl => rfl
  | tail _ hstep ih => exact (hstep.final (ih.symm ▸ hj)).trans ih

/-- Every object that some destination got is one it could get. -/
def Sourced (O : Offers ι κ β) (s : State ι κ β) : Prop :=
  ∀ j object, s.fate j = .got object → ∃ i, O.hears j i ∧ s.begun i ∧ object = O.object i

theorem Step.sourced (h : Step O s s') (hs : Sourced O s) : Sourced O s' := by
  intro j object hgot
  cases h with
  | begins i =>
    obtain ⟨i', hhears, hbegun, hobject⟩ := hs j object hgot
    exact ⟨i', hhears, .inr hbegun, hobject⟩
  | copies j' i hwaits hbegun hhears =>
    by_cases heq : j = j'
    · subst heq
      rw [settle_self] at hgot
      cases hgot
      exact ⟨i, hhears, hbegun, rfl⟩
    · rw [settle_other heq] at hgot
      exact hs j object hgot
  | fails j' hwaits =>
    by_cases heq : j = j'
    · subst heq
      rw [settle_self] at hgot
      cases hgot
    · rw [settle_other heq] at hgot
      exact hs j object hgot

theorem Reachable.got (h : Reachable O s) : Sourced O s := by
  induction h with
  | refl => exact fun _ _ hgot => nomatch hgot
  | tail _ hstep ih => exact hstep.sourced ih

end

end Copying
