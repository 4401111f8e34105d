import FountainTransfer.Network

/-!
# Session ids from the clock

`random_session_id` in `session.rs`: a sender without a fixed id takes the nanoseconds
since 1970, with bits 32 to 95 xored onto bits 0 to 63.

1. `randomSessionId_inj`: two times share an id only if they are at least one wrap of the
   64-bit counter apart, which is 584 years.
2. `clocked_senders_identified`: senders that started at different times and took their
   ids from the clock are told apart by every receiver.
-/

namespace FountainTransfer

open HaltingMachine Medium

/-- `now` is `none` when the clock is set before 1970, which counts as 0. -/
def randomSessionId (now : Option Nat) : UInt64 :=
  let nanos := now.getD 0
  UInt64.ofNat nanos ^^^ UInt64.ofNat (nanos >>> 32)

theorem randomSessionId_testBit (nanos p : Nat) (hp : p < 64) :
    (randomSessionId (some nanos)).toNat.testBit p = (nanos.testBit p ^^ nanos.testBit (p + 32)) := by
  simp only [randomSessionId, Option.getD_some, UInt64.toNat_xor, UInt64.toNat_ofNat',
    Nat.testBit_xor, Nat.testBit_mod_two_pow, hp, decide_true, Bool.true_and, Nat.testBit_shiftRight,
    Nat.add_comm 32 p]

/-- Times with the same bits from 64 on. -/
def SameEra (nanos nanos' : Nat) : Prop := nanos / 2 ^ 64 = nanos' / 2 ^ 64

theorem SameEra.testBit {nanos nanos' : Nat} (h : SameEra nanos nanos') {p : Nat} (hp : 64 ≤ p) :
    nanos.testBit p = nanos'.testBit p := by
  obtain ⟨q, rfl⟩ := Nat.exists_eq_add_of_le hp
  have hshift : (nanos >>> 64).testBit q = (nanos' >>> 64).testBit q := by
    rw [Nat.shiftRight_eq_div_pow, Nat.shiftRight_eq_div_pow, h]
  simpa only [Nat.testBit_shiftRight] using hshift

theorem randomSessionId_inj {nanos nanos' : Nat} (hera : SameEra nanos nanos')
    (hid : randomSessionId (some nanos) = randomSessionId (some nanos')) : nanos = nanos' := by
  -- bit `p` of the id is bit `p` of the time, given bit `p + 32`
  have hbit : ∀ p, p < 64 → nanos.testBit (p + 32) = nanos'.testBit (p + 32) →
      nanos.testBit p = nanos'.testBit p := by
    intro p hp hhigher
    have hsame := randomSessionId_testBit nanos p hp
    rw [hid, randomSessionId_testBit nanos' p hp, hhigher] at hsame
    exact (Bool.xor_left_inj.mp hsame).symm
  have hmiddle : ∀ p, 32 ≤ p → p < 64 → nanos.testBit p = nanos'.testBit p := fun p hlo hhi =>
    hbit p hhi (hera.testBit (by omega))
  refine Nat.eq_of_testBit_eq fun p => ?_
  by_cases hhigh : 64 ≤ p
  · exact hera.testBit hhigh
  · by_cases hlow : 32 ≤ p
    · exact hmiddle p hlow (by omega)
    · exact hbit p (by omega) (hmiddle (p + 32) (by omega) (by omega))

/-! ## Senders without a fixed id -/

/-- Senders that took their ids from the clock, each at its own time. -/
structure ClockedSenders (eng : Engines) (ι : Type) where
  clock : ι → Nat
  session : ι → SessionParams
  transmission : ι → Transmission
  built : ∀ i, ∃ f t kind,
    SessionParams.fromFileAndCli (randomSessionId (some (clock i))) f t kind = .ok (session i)
  esisFit : ∀ i, (transmission i).EsisFit eng (session i)
  sameEra : ∀ i i', SameEra (clock i) (clock i')
  distinct : ∀ {i i'}, clock i = clock i' → i = i'

section

variable {eng : Engines} {encode : EncodingMap} {ι κ : Type} (C : ClockedSenders eng ι)

theorem ClockedSenders.sessionId (i : ι) :
    (C.session i).sessionId = randomSessionId (some (C.clock i)) := by
  obtain ⟨f, t, kind, hsession⟩ := C.built i
  obtain ⟨_, _, heq⟩ := fromFileAndCli_eq_ok.mp hsession
  rw [heq]

theorem ClockedSenders.sessionId_inj {i i' : ι}
    (h : (C.session i).sessionId = (C.session i').sessionId) : i = i' := by
  rw [C.sessionId, C.sessionId] at h
  exact C.distinct (randomSessionId_inj (C.sameEra i i') h)

/-- On one network with any receivers. -/
def ClockedSenders.deployment (task : κ → RecvTask) (hears : κ → ι → Prop) :
    Deployment eng ι κ where
  session := C.session
  transmission := C.transmission
  task := task
  hears := hears
  built i := by
    rw [C.sessionId]
    exact C.built i
  esisFit := C.esisFit
  consistent _ _ hid := by
    cases C.sessionId_inj hid
    exact ⟨rfl, rfl⟩

/-- For all senders that took their ids from the clock at different times of one era, all
receivers and every run of the network: a receiver that returned an object holds the
session of exactly one sender, and the object is the one of this sender. -/
theorem clocked_senders_identified [DecidableEq ι] [DecidableEq κ] (faithful : eng.Faithful encode)
    {task : κ → RecvTask} {hears : κ → ι → Prop} {w : (C.deployment task hears).World}
    (hreach : Reachable (C.deployment task hears).setup w) {j : κ} {object : Bytes}
    (hreturned : Returned (C.deployment task hears) w j object) :
    ∃ i, hears j i ∧ object = (C.transmission i).object ∧
      ∀ i', HoldsSession (C.session i').sessionId (w.nodes j).state ↔ i' = i := by
  obtain ⟨outcome, hok, rfl⟩ := hreturned
  obtain ⟨i, ⟨hhears, _⟩, _, ⟨active, hactive, hid⟩, hobject⟩ :=
    Deployment.returned faithful hreach hok
  refine ⟨i, hhears, hobject, fun i' => ⟨?_, ?_⟩⟩
  · rintro ⟨active', hactive', hid'⟩
    cases hactive.symm.trans hactive'
    exact C.sessionId_inj (hid'.symm.trans hid)
  · rintro rfl
    exact ⟨active, hactive, hid⟩

end

namespace Repetition

/-- The senders of `pairDeployment`, started at 7 and 8 nanoseconds. -/
def pairClocked : ClockedSenders engines Bool where
  clock
    | true => 7
    | false => 8
  session := pairDeployment.session
  transmission := pairDeployment.transmission
  built
    | true => ⟨4, 1, .raptor10, rfl⟩
    | false => ⟨1, 1, .raptorQ, rfl⟩
  esisFit := pairDeployment.esisFit
  sameEra i i' := by cases i <;> cases i' <;> rfl
  distinct {i i'} h := by
    cases i <;> cases i'
    · rfl
    · cases h
    · cases h
    · rfl

end Repetition

open Repetition in
theorem clocked_pair_identified : ∃ (w : pairDeployment.World) (i : Bool),
    Returned pairDeployment w true [1, 2, 3, 4] ∧
    [1, 2, 3, 4] = (pairClocked.transmission i).object ∧
    ∀ i', HoldsSession (pairClocked.session i').sessionId (w.nodes true).state ↔ i' = i := by
  obtain ⟨w, hreach, hnodes⟩ := pair_received
  have hreturned : Returned pairDeployment w true [1, 2, 3, 4] :=
    ⟨outcome10, by rw [hnodes]; rfl, rfl⟩
  obtain ⟨i, _, hobject, hone⟩ := @clocked_senders_identified engines encode Bool Bool pairClocked
    _ _ engines_faithful (fun _ => openTask) (fun _ _ => True) w hreach true _ hreturned
  exact ⟨w, i, hreturned, hobject, hone⟩

end FountainTransfer
