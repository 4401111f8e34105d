import Mathlib.Algebra.Group.Nat.Defs

/-!
# Prefix codes over bytes

A `Code` writes a value as bytes and reads one value off the front of a byte list. Its
two laws say that reading what was written gives the value back and leaves the
following bytes alone, and that nothing is accepted but what is written for the value
read. Both laws are fields, so a code built from the combinators below is lawful by
construction:

* `Code.littleEndian`: fixed-width unsigned integers;
* `Code.map`: the same bytes for another type;
* `Code.pair`, `Code.counted`, `Code.either`: concatenation, a byte vector behind its
  length, and a sum of two variants behind an index.

`Code.decode_append`, `Code.decode_prefix_none` and `Code.encode_prefix_free` follow for
every code.
-/

namespace PrefixCode

/-! ## Little-endian numbers -/

/-- The low `w` bytes of `n`, least significant first. -/
def leBytes : Nat → Nat → List UInt8
  | 0, _ => []
  | w + 1, n => UInt8.ofNat n :: leBytes w (n / 256)

/-- The number that little-endian bytes spell. -/
def leValue : List UInt8 → Nat
  | [] => 0
  | b :: bs => b.toNat + 256 * leValue bs

@[simp] theorem leBytes_length (w n : Nat) : (leBytes w n).length = w := by
  induction w generalizing n with
  | zero => rfl
  | succ w ih => simp [leBytes, ih]

theorem leValue_leBytes (w n : Nat) : leValue (leBytes w n) = n % 256 ^ w := by
  induction w generalizing n with
  | zero => simp [leBytes, leValue, Nat.mod_one]
  | succ w ih =>
    have hbyte : (UInt8.ofNat n).toNat = n % 256 := by simp
    rw [leBytes, leValue, ih, hbyte, Nat.pow_succ, Nat.mul_comm (256 ^ w) 256, Nat.mod_mul]

theorem leValue_lt (bytes : List UInt8) : leValue bytes < 256 ^ bytes.length := by
  induction bytes with
  | nil => simp [leValue]
  | cons b bs ih =>
    have hb : b.toNat < 256 := b.toNat_lt
    simp only [leValue, List.length_cons, Nat.pow_succ]
    omega

theorem leBytes_leValue (bytes : List UInt8) : leBytes bytes.length (leValue bytes) = bytes := by
  induction bytes with
  | nil => rfl
  | cons b bs ih =>
    have hb : b.toNat < 256 := b.toNat_lt
    have hhigh : (b.toNat + 256 * leValue bs) / 256 = leValue bs := by omega
    have hlow : UInt8.ofNat (b.toNat + 256 * leValue bs) = b := by
      apply UInt8.toNat_inj.mp
      simp only [UInt8.toNat_ofNat']
      omega
    simp only [List.length_cons, leValue, leBytes, hhigh, hlow, ih]

/-- The first `w` bytes and the rest, when there are that many. -/
def takeBytes (w : Nat) (bytes : List UInt8) : Option (List UInt8 × List UInt8) :=
  if w ≤ bytes.length then some (bytes.take w, bytes.drop w) else none

theorem takeBytes_append {w : Nat} {front rest : List UInt8} (h : front.length = w) :
    takeBytes w (front ++ rest) = some (front, rest) := by
  subst h
  simp [takeBytes]

theorem takeBytes_eq_some {w : Nat} {bytes front rest : List UInt8} :
    takeBytes w bytes = some (front, rest) ↔ front.length = w ∧ bytes = front ++ rest := by
  constructor
  · intro h
    unfold takeBytes at h
    split at h
    · next hw =>
      cases h
      exact ⟨List.length_take_of_le hw, (List.take_append_drop w bytes).symm⟩
    · cases h
  · rintro ⟨h, rfl⟩
    exact takeBytes_append h

/-! ## Codes -/

/-- A code with its laws. `Fits` bounds the values that can be written, such as a
vector whose length fits the length field. -/
structure Code (α : Type) where
  encode : α → List UInt8
  decode : List UInt8 → Option (α × List UInt8)
  Fits : α → Prop
  decode_encode : ∀ a rest, Fits a → decode (encode a ++ rest) = some (a, rest)
  encode_of_decode : ∀ bytes a rest, decode bytes = some (a, rest) →
    Fits a ∧ bytes = encode a ++ rest

namespace Code

variable {α β : Type}

/-- An unsigned integer of `w` bytes, least significant first. -/
def littleEndian (w : Nat) : Code Nat where
  encode n := leBytes w n
  decode bytes :=
    match takeBytes w bytes with
    | none => none
    | some (front, rest) => some (leValue front, rest)
  Fits n := n < 256 ^ w
  decode_encode n rest h := by
    rw [takeBytes_append (leBytes_length w n)]
    simp [leValue_leBytes, Nat.mod_eq_of_lt h]
  encode_of_decode bytes n rest h := by
    split at h
    · cases h
    · next front rest' hsplit =>
      cases h
      obtain ⟨hlen, hbytes⟩ := takeBytes_eq_some.mp hsplit
      subst hlen
      exact ⟨leValue_lt front, by rw [leBytes_leValue]; exact hbytes⟩

/-- The same bytes read as another type. -/
def map (c : Code α) (f : α → β) (g : β → α) (hgf : ∀ a, c.Fits a → g (f a) = a)
    (hfg : ∀ b, f (g b) = b) : Code β where
  encode b := c.encode (g b)
  decode bytes :=
    match c.decode bytes with
    | none => none
    | some (a, rest) => some (f a, rest)
  Fits b := c.Fits (g b)
  decode_encode b rest h := by
    rw [c.decode_encode (g b) rest h]
    simp [hfg]
  encode_of_decode bytes b rest h := by
    split at h
    · cases h
    · next a rest' ha =>
      cases h
      obtain ⟨hfits, hbytes⟩ := c.encode_of_decode bytes a rest ha
      rw [hgf a hfits]
      exact ⟨hfits, hbytes⟩

/-- One value after the other. -/
def pair (c : Code α) (d : Code β) : Code (α × β) where
  encode p := c.encode p.1 ++ d.encode p.2
  decode bytes :=
    match c.decode bytes with
    | none => none
    | some (a, rest) =>
      match d.decode rest with
      | none => none
      | some (b, rest) => some ((a, b), rest)
  Fits p := c.Fits p.1 ∧ d.Fits p.2
  decode_encode p rest h := by
    rw [List.append_assoc, c.decode_encode p.1 _ h.1]
    simp only [d.decode_encode p.2 rest h.2]
  encode_of_decode bytes p rest h := by
    split at h
    · cases h
    · next a mid ha =>
      split at h
      · cases h
      · next b rest' hb =>
        cases h
        obtain ⟨hfa, hbytes⟩ := c.encode_of_decode bytes a mid ha
        obtain ⟨hfb, hmid⟩ := d.encode_of_decode mid b rest hb
        exact ⟨⟨hfa, hfb⟩, by rw [hbytes, hmid, List.append_assoc]⟩

/-- A byte vector behind its length. -/
def counted (len : Code Nat) : Code (List UInt8) where
  encode v := len.encode v.length ++ v
  decode bytes :=
    match len.decode bytes with
    | none => none
    | some (n, rest) => takeBytes n rest
  Fits v := len.Fits v.length
  decode_encode v rest h := by
    rw [List.append_assoc, len.decode_encode v.length _ h]
    exact takeBytes_append rfl
  encode_of_decode bytes v rest h := by
    split at h
    · cases h
    · next n mid hn =>
      obtain ⟨hfits, hbytes⟩ := len.encode_of_decode bytes n mid hn
      obtain ⟨hlen, hmid⟩ := takeBytes_eq_some.mp h
      subst hlen
      exact ⟨hfits, by rw [hbytes, hmid, List.append_assoc]⟩

/-- Two variants behind an index that is `0` or `1`. -/
def either (tag : Code Nat) (h0 : tag.Fits 0) (h1 : tag.Fits 1) (c : Code α) (d : Code β) :
    Code (α ⊕ β) where
  encode
    | .inl a => tag.encode 0 ++ c.encode a
    | .inr b => tag.encode 1 ++ d.encode b
  decode bytes :=
    match tag.decode bytes with
    | none => none
    | some (index, rest) =>
      if index = 0 then
        match c.decode rest with
        | none => none
        | some (a, rest) => some (.inl a, rest)
      else if index = 1 then
        match d.decode rest with
        | none => none
        | some (b, rest) => some (.inr b, rest)
      else none
  Fits
    | .inl a => c.Fits a
    | .inr b => d.Fits b
  decode_encode v rest h := by
    cases v with
    | inl a =>
      rw [List.append_assoc, tag.decode_encode 0 _ h0]
      simp only [c.decode_encode a rest h, ↓reduceIte]
    | inr b =>
      rw [List.append_assoc, tag.decode_encode 1 _ h1]
      simp only [d.decode_encode b rest h, ↓reduceIte, Nat.one_ne_zero]
  encode_of_decode bytes v rest h := by
    split at h
    · cases h
    · next index mid htag =>
      have hbytes := (tag.encode_of_decode bytes index mid htag).2
      split at h
      · next h0 =>
        subst h0
        split at h
        · cases h
        · next a rest' ha =>
          cases h
          obtain ⟨hfits, hmid⟩ := c.encode_of_decode mid a rest ha
          exact ⟨hfits, by rw [hbytes, hmid, List.append_assoc]⟩
      · split at h
        · next h1 =>
          subst h1
          split at h
          · cases h
          · next b rest' hb =>
            cases h
            obtain ⟨hfits, hmid⟩ := d.encode_of_decode mid b rest hb
            exact ⟨hfits, by rw [hbytes, hmid, List.append_assoc]⟩
        · cases h

/-! ## What the laws give -/

variable (c : Code α)

/-- Bytes behind what was read are left for the next reader. -/
theorem decode_append {bytes rest : List UInt8} {a : α} (h : c.decode bytes = some (a, rest))
    (more : List UInt8) : c.decode (bytes ++ more) = some (a, rest ++ more) := by
  obtain ⟨hfits, rfl⟩ := c.encode_of_decode bytes a rest h
  rw [List.append_assoc]
  exact c.decode_encode a (rest ++ more) hfits

/-- No value's bytes begin another value's bytes. -/
theorem encode_prefix_free {a b : α} (ha : c.Fits a) (hb : c.Fits b)
    (h : c.encode a <+: c.encode b) : a = b := by
  obtain ⟨more, hmore⟩ := h
  have hda := c.decode_encode a more ha
  have hdb := c.decode_encode b [] hb
  rw [List.append_nil, ← hmore, hda] at hdb
  cases hdb
  rfl

/-- A proper prefix of a value's bytes is not accepted. -/
theorem decode_prefix_none {a : α} {bytes more : List UInt8} (ha : c.Fits a)
    (hsplit : c.encode a = bytes ++ more) (hmore : more ≠ []) : c.decode bytes = none := by
  cases hd : c.decode bytes with
  | none => rfl
  | some p =>
    obtain ⟨b, rest⟩ := p
    have hwhole := c.decode_append hd more
    rw [← hsplit, ← List.append_nil (c.encode a), c.decode_encode a [] ha] at hwhole
    simp only [Option.some.injEq, Prod.mk.injEq] at hwhole
    exact absurd (List.append_eq_nil_iff.mp hwhole.2.symm).2 hmore

end Code

end PrefixCode
