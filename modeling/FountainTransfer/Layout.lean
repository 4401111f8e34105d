import FountainTransfer.Engine

/-!
# Object layout

`rfc6330_layout` and `rfc5053_layout`: an object of `F` bytes is cut into `K = ceil(F/T)`
symbols of `T` bytes, the last one padded with zeroes, and put together again by
concatenation and truncation. The two modules hold the same three functions;
`splitIntoSymbols` and `paddedObjectZ1` exist in `rfc6330_layout` only.
-/

namespace FountainTransfer.Layout

def calcK (transferLengthF symbolSizeT : Nat) : Call Nat := do
  assert (0 < symbolSizeT) "symbol_size_t must be > 0"
  return divCeil transferLengthF symbolSizeT

/-- The source multiplies `k * symbol_size` up to three times; the first product that
leaves the range ends the call. -/
def padObjectToKSymbols (object : Bytes) (k symbolSize : Nat) : Call Bytes := do
  let targetLen ← mulUsize k symbolSize
  assert (k = 0 ∨ object.length ≤ targetLen) "object.len() must be <= k * symbol_size"
  withCapacity targetLen
  return object ++ List.replicate (targetLen - object.length) 0

def paddedObjectZ1 (object : Bytes) (transferLengthF symbolSizeT : Nat) : Call Bytes := do
  assert (object.length = transferLengthF) "object.len() == transfer_length_f"
  let k ← calcK transferLengthF symbolSizeT
  padObjectToKSymbols object k symbolSizeT

/-- Symbol `i` of the padded object, as the encoders and `splitIntoSymbols` slice it. -/
def symbolSlice (padded : Bytes) (symbolSize i : Nat) : Call Bytes := do
  let start ← mulUsize i symbolSize
  let stop ← addUsize start symbolSize
  slice padded start stop

def splitIntoSymbols (padded : Bytes) (k symbolSize : Nat) : Call (List Bytes) := do
  let targetLen ← mulUsize k symbolSize
  assert (padded.length = targetLen) "padded.len() == k * symbol_size"
  (List.range k).mapM (symbolSlice padded symbolSize)

def assemblePayloadFromSymbols (symbols : List Bytes) (transferLengthF symbolSize : Nat) :
    Call Bytes := do
  assert (symbols ≠ []) "!symbols.is_empty()"
  assert ((symbols.headD []).length = symbolSize) "symbols[0].len() == symbol_size"
  withCapacity transferLengthF
  return symbols.flatten.take transferLengthF

/-! ## Cutting -/

/-- The symbols of a padded object. -/
def blockOf (padded : Bytes) (k t : Nat) : List Bytes :=
  (List.range k).map fun i => (padded.drop (i * t)).take t

@[simp] theorem blockOf_length (padded : Bytes) (k t : Nat) : (blockOf padded k t).length = k := by
  simp [blockOf]

theorem slice_end_le {i k t : Nat} (h : i < k) : i * t + t ≤ k * t := by
  rw [← Nat.succ_mul]
  exact Nat.mul_le_mul_right t h

theorem blockOf_isBlock {padded : Bytes} {k t : Nat} (h : padded.length = k * t) :
    IsBlock k t (blockOf padded k t) := by
  refine ⟨blockOf_length padded k t, fun symbol hmem => ?_⟩
  obtain ⟨i, hi, rfl⟩ := List.mem_map.mp hmem
  have hend := slice_end_le (t := t) (List.mem_range.mp hi)
  rw [List.length_take, List.length_drop, h]
  omega

theorem blockOf_succ (padded : Bytes) (k t : Nat) :
    blockOf padded (k + 1) t = blockOf padded k t ++ [(padded.drop (k * t)).take t] := by
  simp [blockOf, List.range_succ]

theorem blockOf_flatten_take (padded : Bytes) (k t : Nat) :
    (blockOf padded k t).flatten = padded.take (k * t) := by
  induction k with
  | zero => simp [blockOf]
  | succ k ih =>
    rw [blockOf_succ, List.flatten_append, ih, Nat.succ_mul, List.take_add]
    simp

/-- The symbols put end to end are the padded object. -/
theorem blockOf_flatten {padded : Bytes} {k t : Nat} (h : padded.length = k * t) :
    (blockOf padded k t).flatten = padded := by
  rw [blockOf_flatten_take, ← h, List.take_length]

theorem symbolSlice_eq {padded : Bytes} {k t i : Nat} (hlen : padded.length = k * t)
    (hfit : k * t ≤ usizeMax) (hi : i < k) :
    symbolSlice padded t i = .ok ((padded.drop (i * t)).take t) := by
  have hend := slice_end_le (t := t) hi
  have hstart : mulUsize i t = .ok (i * t) := mulUsize_eq_ok.mpr ⟨by omega, rfl⟩
  have hstop : addUsize (i * t) t = .ok (i * t + t) := addUsize_eq_ok.mpr ⟨by omega, rfl⟩
  have hslice : slice padded (i * t) (i * t + t) = .ok ((padded.drop (i * t)).take t) := by
    rw [slice_eq_ok]
    exact ⟨⟨by omega, by omega⟩, by rw [Nat.add_sub_cancel_left]⟩
  simp only [symbolSlice, hstart, hstop, ok_bind]
  exact hslice

/-! ## Padding and assembling -/

theorem calcK_eq_ok {f t k : Nat} : calcK f t = .ok k ↔ 0 < t ∧ k = divCeil f t := by
  simp only [calcK, bind_eq_ok, assert_eq_ok, pure_eq_ok, Except.ok.injEq,
    decide_eq_true_eq]
  constructor
  · rintro ⟨_, ht, rfl⟩
    exact ⟨ht, rfl⟩
  · rintro ⟨ht, rfl⟩
    exact ⟨(), ht, rfl⟩

/-- The object with its tail of zeroes. -/
def zeroPadded (object : Bytes) (k t : Nat) : Bytes :=
  object ++ List.replicate (k * t - object.length) 0

theorem zeroPadded_length {object : Bytes} {k t : Nat} (h : object.length ≤ k * t) :
    (zeroPadded object k t).length = k * t := by
  simp [zeroPadded]
  omega

theorem zeroPadded_take (object : Bytes) (k t : Nat) :
    (zeroPadded object k t).take object.length = object := by
  simp [zeroPadded]

theorem padObjectToKSymbols_eq_ok {object padded : Bytes} {k t : Nat} :
    padObjectToKSymbols object k t = .ok padded ↔
      k * t ≤ isizeMax ∧ (k = 0 ∨ object.length ≤ k * t) ∧ padded = zeroPadded object k t := by
  have hle := isizeMax_le_usizeMax
  simp only [padObjectToKSymbols, bind_eq_ok, mulUsize_eq_ok, assert_eq_ok, withCapacity_eq_ok,
    zeroPadded, pure_eq_ok, Except.ok.injEq, decide_eq_true_eq]
  constructor
  · rintro ⟨n, ⟨_, rfl⟩, _, hfits, _, hcap, rfl⟩
    exact ⟨hcap, hfits, rfl⟩
  · rintro ⟨hcap, hfits, rfl⟩
    exact ⟨k * t, ⟨by omega, rfl⟩, (), hfits, (), hcap, rfl⟩

theorem assemblePayloadFromSymbols_eq_ok {symbols : List Bytes} {f t : Nat} {out : Bytes} :
    assemblePayloadFromSymbols symbols f t = .ok out ↔
      symbols ≠ [] ∧ (symbols.headD []).length = t ∧ f ≤ isizeMax ∧
        out = symbols.flatten.take f := by
  simp only [assemblePayloadFromSymbols, bind_eq_ok, assert_eq_ok, withCapacity_eq_ok,
    pure_eq_ok, Except.ok.injEq, decide_eq_true_eq]
  constructor
  · rintro ⟨_, hne, _, hhead, _, hcap, rfl⟩
    exact ⟨hne, hhead, hcap, rfl⟩
  · rintro ⟨hne, hhead, hcap, rfl⟩
    exact ⟨(), hne, (), hhead, (), hcap, rfl⟩

theorem IsBlock.headD_length {k t : Nat} {block : List Bytes} (h : IsBlock k t block)
    (hk : 0 < k) : block ≠ [] ∧ (block.headD []).length = t := by
  obtain ⟨hlen, hall⟩ := h
  cases block with
  | nil => simp at hlen; omega
  | cons symbol rest => exact ⟨List.cons_ne_nil _ _, hall symbol List.mem_cons_self⟩

/-- Cutting the padded object and assembling the symbols gives the object back. -/
theorem assemble_blockOf {object : Bytes} {k t : Nat} (hk : 0 < k)
    (hlen : object.length ≤ k * t) (hcap : k * t ≤ isizeMax) :
    assemblePayloadFromSymbols (blockOf (zeroPadded object k t) k t) object.length t =
      .ok object := by
  have hpadded := zeroPadded_length hlen
  have hhead := IsBlock.headD_length (blockOf_isBlock hpadded) hk
  rw [assemblePayloadFromSymbols_eq_ok, blockOf_flatten hpadded, zeroPadded_take]
  exact ⟨hhead.1, hhead.2, by omega, rfl⟩

end FountainTransfer.Layout
