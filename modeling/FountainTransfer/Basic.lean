/-!
# Bytes, machine integers and calls

A record field of a fixed-width type keeps that type here (`UInt8` to `UInt64`, and
`Usize` for `usize`). What the functions compute with these fields is a `Nat`, and a
`usize` operation that can leave the range is one of the guarded operations below. The
counts that only grow by one or by a datagram are added up without a guard:
`ignoredDatagrams` and `packetsReceived` of the receiver, as no run is long enough, and the
planned and sent bytes of the sender, whose packets are all in memory at once.
-/

namespace FountainTransfer

/-- `Vec<u8>` and `&[u8]`. -/
abbrev Bytes := List UInt8

/-- `usize` of a 64-bit target. -/
abbrev Usize := UInt64

def usizeMax : Nat := 18446744073709551615

def isizeMax : Nat := 9223372036854775807

/-- Why a call never returned. `overflow` is `usize` arithmetic leaving its range (a
build without overflow checks would go on with the wrapped value instead). -/
inductive Panic
  | overflow
  | capacity
  | divideByZero
  | sliceRange
  | assertion (text : String)
  | expect (text : String)
  | engine (text : String)
deriving DecidableEq, Repr

/-- A call of the program: it returns a value or it panics. -/
abbrev Call (α : Type) := Except Panic α

/-- The program's own `Result`. -/
abbrev Result (ε α : Type) := Except ε α

def addUsize (a b : Nat) : Call Nat :=
  if a + b ≤ usizeMax then .ok (a + b) else .error .overflow

def mulUsize (a b : Nat) : Call Nat :=
  if a * b ≤ usizeMax then .ok (a * b) else .error .overflow

def saturatingAdd (a b : Nat) : Nat := min (a + b) usizeMax

def saturatingMul (a b : Nat) : Nat := min (a * b) usizeMax

/-- `assert!` and `assert_eq!`. -/
def assert (holds : Bool) (text : String) : Call Unit :=
  if holds then .ok () else .error (.assertion text)

/-- `Vec::with_capacity` for so many bytes. Up to `isize::MAX` bytes the allocation is
taken to succeed. -/
def withCapacity (bytes : Nat) : Call Unit :=
  if bytes ≤ isizeMax then .ok () else .error .capacity

/-- `&v[start..end]`. -/
def slice (v : Bytes) (start stop : Nat) : Call Bytes :=
  if start ≤ stop ∧ stop ≤ v.length then .ok ((v.drop start).take (stop - start))
  else .error .sliceRange

/-- `usize::div_ceil` for a divisor that is not zero. -/
def divCeil (a b : Nat) : Nat :=
  if 0 < a % b then a / b + 1 else a / b

/-! ## What a successful call did -/

theorem bind_eq_ok {ε α β : Type} {x : Except ε α} {f : α → Except ε β} {b : β} :
    (x >>= f) = .ok b ↔ ∃ a, x = .ok a ∧ f a = .ok b := by
  cases x with
  | error e =>
    constructor
    · intro h; cases h
    · rintro ⟨_, h, _⟩; cases h
  | ok a =>
    constructor
    · exact fun h => ⟨a, rfl, h⟩
    · rintro ⟨_, h, hf⟩; cases h; exact hf

theorem bind_eq_error {ε α β : Type} {x : Except ε α} {f : α → Except ε β} {e : ε} :
    (x >>= f) = .error e ↔ x = .error e ∨ ∃ a, x = .ok a ∧ f a = .error e := by
  cases x with
  | error e' =>
    constructor
    · intro h
      cases h
      exact .inl rfl
    · rintro (h | ⟨_, h, _⟩)
      · cases h
        rfl
      · cases h
  | ok a =>
    constructor
    · exact fun h => .inr ⟨a, rfl, h⟩
    · rintro (h | ⟨_, h, hf⟩)
      · cases h
      · cases h
        exact hf

@[simp] theorem ok_bind {ε α β : Type} (a : α) (f : α → Except ε β) :
    ((Except.ok a : Except ε α) >>= f) = f a := rfl

@[simp] theorem pure_eq_ok {ε α : Type} (a : α) : (pure a : Except ε α) = .ok a := rfl

@[simp] theorem ok_mapError {ε ε' α : Type} (f : ε → ε') (a : α) :
    (Except.ok a : Except ε α).mapError f = .ok a := rfl

@[simp] theorem mapError_eq_ok {ε ε' α : Type} {f : ε → ε'} {x : Except ε α} {a : α} :
    x.mapError f = .ok a ↔ x = .ok a := by
  cases x with
  | error e => exact ⟨(fun h => nomatch h), (fun h => nomatch h)⟩
  | ok a => simp

theorem map_eq_ok {ε α β : Type} {f : α → β} {x : Except ε α} {b : β} :
    x.map f = .ok b ↔ ∃ a, x = .ok a ∧ f a = b := by
  constructor
  · intro h
    cases x with
    | error e => cases h
    | ok a => exact ⟨a, rfl, Except.ok.inj h⟩
  · rintro ⟨a, rfl, rfl⟩
    rfl

@[simp] theorem assert_true (text : String) : assert true text = .ok () := rfl

@[simp] theorem addUsize_eq_ok {a b c : Nat} :
    addUsize a b = .ok c ↔ a + b ≤ usizeMax ∧ c = a + b := by
  unfold addUsize
  split
  · next h => simp [h, eq_comm]
  · next h => simp [h]

@[simp] theorem mulUsize_eq_ok {a b c : Nat} :
    mulUsize a b = .ok c ↔ a * b ≤ usizeMax ∧ c = a * b := by
  unfold mulUsize
  split
  · next h => simp [h, eq_comm]
  · next h => simp [h]

theorem addUsize_eq_error {a b : Nat} {panic : Panic} (h : addUsize a b = .error panic) :
    panic = .overflow := by
  unfold addUsize at h
  split at h
  · cases h
  · cases h
    rfl

@[simp] theorem assert_eq_ok {holds : Bool} {text : String} {u : Unit} :
    assert holds text = .ok u ↔ holds = true := by
  cases holds <;> simp [assert]

@[simp] theorem withCapacity_eq_ok {n : Nat} {u : Unit} :
    withCapacity n = .ok u ↔ n ≤ isizeMax := by
  unfold withCapacity
  split
  · next h => simp [h]
  · next h => simp [h]

theorem slice_eq_ok {v w : Bytes} {start stop : Nat} :
    slice v start stop = .ok w ↔
      (start ≤ stop ∧ stop ≤ v.length) ∧ w = (v.drop start).take (stop - start) := by
  unfold slice
  split
  · next h => simp [h, eq_comm]
  · next h => simp [h]

theorem isizeMax_le_usizeMax : isizeMax ≤ usizeMax := by decide

/-! ## Ceiling division -/

theorem divCeil_pos {a b : Nat} (ha : 0 < a) (hb : 0 < b) : 0 < divCeil a b := by
  unfold divCeil
  split
  · exact Nat.succ_pos _
  · next h =>
    have hmod : a % b = 0 := Nat.eq_zero_of_not_pos h
    exact Nat.div_pos (Nat.le_of_dvd ha (Nat.dvd_of_mod_eq_zero hmod)) hb

theorem divCeil_le (a b : Nat) : divCeil a b ≤ a := by
  have hdiv := Nat.div_add_mod a b
  unfold divCeil
  split
  · next h =>
    cases b with
    | zero => simp at h ⊢; exact h
    | succ b =>
      -- a remainder leaves room for one more than the quotient
      have hquot : a / (b + 1) ≤ (b + 1) * (a / (b + 1)) := Nat.le_mul_of_pos_left _ b.succ_pos
      omega
  · exact Nat.div_le_self a b

/-- `divCeil a b` pieces of length `b` cover `a`. -/
theorem le_divCeil_mul {a b : Nat} (hb : 0 < b) : a ≤ divCeil a b * b := by
  have hdiv := Nat.div_add_mod a b
  have hlt := Nat.mod_lt a hb
  unfold divCeil
  split
  · rw [Nat.add_mul, Nat.mul_comm (a / b) b]
    omega
  · rw [Nat.mul_comm (a / b) b]
    omega

/-- One piece less does not cover `a`. -/
theorem divCeil_pred_mul_lt {a b : Nat} (ha : 0 < a) (hb : 0 < b) :
    (divCeil a b - 1) * b < a := by
  have hdiv := Nat.div_add_mod a b
  unfold divCeil
  split
  · rw [Nat.add_sub_cancel, Nat.mul_comm (a / b) b]
    omega
  · rw [Nat.sub_mul, Nat.mul_comm (a / b) b, Nat.one_mul]
    omega

end FountainTransfer
