import FountainTransfer.Repetition

/-!
# The layout round trip

An object and the block it is cut into determine each other, up to the padding: cutting
and assembling gives the object back, assembling and cutting gives the block back with
zeroes where the padding is. `layout_round_trip` states both directions for the functions
of the two layout modules, with every overflow and allocation on the way.
-/

namespace FountainTransfer.Layout

/-- The block with zeroes for the last `n` bytes of its last symbol. -/
def clearTail (n : Nat) : List Bytes → List Bytes
  | [] => []
  | [symbol] => [symbol.take (symbol.length - n) ++ List.replicate n 0]
  | symbol :: next :: rest => symbol :: clearTail n (next :: rest)

/-! ## Blocks of one shape -/

section

variable {k t n : Nat} {block block' : List Bytes}

theorem symbolLengths_of_isBlock (h : IsBlock k t block) :
    block.map List.length = List.replicate k t := by
  obtain ⟨hlength, hall⟩ := h
  rw [List.eq_replicate_iff]
  refine ⟨by rw [List.length_map, hlength], fun n hn => ?_⟩
  obtain ⟨symbol, hmem, rfl⟩ := List.mem_map.mp hn
  exact hall symbol hmem

theorem flatten_length_of_isBlock (h : IsBlock k t block) : block.flatten.length = k * t := by
  rw [List.length_flatten, symbolLengths_of_isBlock h, List.sum_replicate_nat]

/-- Blocks of one shape are equal when their bytes are. -/
theorem isBlock_ext (h : IsBlock k t block) (h' : IsBlock k t block')
    (hbytes : block.flatten = block'.flatten) : block = block' := by
  rw [List.eq_iff_flatten_eq]
  refine ⟨hbytes, ?_⟩
  rw [symbolLengths_of_isBlock h, symbolLengths_of_isBlock h']

/-! ## Clearing the padding -/

theorem clearTail_length (n : Nat) : ∀ block : List Bytes, (clearTail n block).length = block.length
  | [] => rfl
  | [_] => rfl
  | _ :: next :: rest => congrArg (· + 1) (clearTail_length n (next :: rest))

theorem clearTail_isBlock (h : IsBlock k t block) (hn : n ≤ t) :
    IsBlock k t (clearTail n block) := by
  obtain ⟨hlength, hall⟩ := h
  refine ⟨(clearTail_length n block).trans hlength, ?_⟩
  clear hlength
  induction block using clearTail.induct with
  | case1 => exact hall
  | case2 symbol =>
    intro cleared hcleared
    have hsymbol : symbol.length = t := hall symbol List.mem_cons_self
    cases List.mem_singleton.mp hcleared
    rw [List.length_append, List.length_take, List.length_replicate]
    omega
  | case3 symbol next rest ih =>
    intro cleared hcleared
    rcases List.mem_cons.mp hcleared with rfl | hrest
    · exact hall cleared List.mem_cons_self
    · exact ih (fun symbol hsymbol => hall symbol (List.mem_cons_of_mem _ hsymbol)) cleared hrest

/-- Only the end of the bytes changes. -/
theorem clearTail_flatten (h : IsBlock k t block) (hk : 0 < k) (hn : n ≤ t) :
    (clearTail n block).flatten =
      block.flatten.take (block.flatten.length - n) ++ List.replicate n 0 := by
  obtain ⟨hlength, hall⟩ := h
  have hne : block ≠ [] := by
    rintro rfl
    exact Nat.ne_of_lt hk hlength
  clear hlength
  induction block using clearTail.induct with
  | case1 => exact absurd rfl hne
  | case2 symbol => simp [clearTail]
  | case3 symbol next rest ih =>
    have hrest := ih (fun symbol hsymbol => hall symbol (List.mem_cons_of_mem _ hsymbol))
      (List.cons_ne_nil _ _)
    have hnext : next.length = t := hall next (by simp)
    -- the cut falls behind the first symbol, which is kept whole
    have hcut : (symbol ++ (next :: rest).flatten).length - n =
        symbol.length + ((next :: rest).flatten.length - n) := by
      simp only [List.length_append, List.flatten_cons]
      omega
    show symbol ++ (clearTail n (next :: rest)).flatten = _
    rw [hrest, List.flatten_cons (L := next :: rest), hcut, List.take_length_add_append,
      List.append_assoc]

end

/-! ## Both directions -/

/-- `ceil(f/t)` symbols hold fewer than `t` bytes of padding, and their size is a `usize`. -/
theorem layout_size {f t : Nat} (ht : 1 ≤ t) (htop : t ≤ usizeMax) (hf : 1 ≤ f)
    (hftop : f ≤ isizeMax) :
    0 < divCeil f t ∧ (divCeil f t - 1) * t < f ∧ f ≤ divCeil f t * t ∧
      divCeil f t * t - f ≤ t ∧ divCeil f t * t ≤ usizeMax := by
  have hk := divCeil_pos hf ht
  have hlower := divCeil_pred_mul_lt hf ht
  have hupper := le_divCeil_mul (a := f) ht
  have hlast : divCeil f t * t = (divCeil f t - 1) * t + t := by
    rw [← Nat.succ_mul, Nat.succ_eq_add_one, Nat.sub_add_cancel hk]
  refine ⟨hk, hlower, hupper, by omega, ?_⟩
  by_cases hle : t ≤ f
  · -- less than twice the object
    unfold isizeMax at hftop
    unfold usizeMax
    omega
  · -- the object is shorter than one symbol
    have hone : divCeil f t - 1 = 0 := by
      cases hpred : divCeil f t - 1 with
      | zero => rfl
      | succ n =>
        rw [hpred] at hlower
        have hsymbol : t ≤ (n + 1) * t := Nat.le_mul_of_pos_left t n.succ_pos
        omega
    rw [hlast, hone]
    omega

theorem splitIntoSymbols_eq {padded : Bytes} {k t : Nat} (hlen : padded.length = k * t)
    (hfit : k * t ≤ usizeMax) : splitIntoSymbols padded k t = .ok (blockOf padded k t) := by
  have hmul : mulUsize k t = .ok (k * t) := mulUsize_eq_ok.mpr ⟨hfit, rfl⟩
  have hslices : ∀ is : List Nat, (∀ i ∈ is, i < k) →
      is.mapM (symbolSlice padded t) = .ok (is.map fun i => (padded.drop (i * t)).take t) := by
    intro is his
    induction is with
    | nil => rfl
    | cons i is ih =>
      have hi : i < k := his i List.mem_cons_self
      rw [List.mapM_cons, symbolSlice_eq hlen hfit hi, ok_bind,
        ih fun j hj => his j (List.mem_cons_of_mem _ hj)]
      rfl
  simp only [splitIntoSymbols, hmul, hlen, ok_bind, decide_true, assert_true]
  exact hslices (List.range k) fun i hi => List.mem_range.mp hi

/-- Cutting what a block was assembled to gives the block, but for the padding. -/
theorem blockOf_assembled {k t f : Nat} {symbols : List Bytes} (h : IsBlock k t symbols)
    (hk : 0 < k) (hf : f ≤ k * t) (hpad : k * t - f ≤ t) :
    blockOf (zeroPadded (symbols.flatten.take f) k t) k t = clearTail (k * t - f) symbols := by
  have hbytes := flatten_length_of_isBlock h
  have hlength : (symbols.flatten.take f).length = f := by
    rw [List.length_take, hbytes, Nat.min_eq_left hf]
  have hpadded : (zeroPadded (symbols.flatten.take f) k t).length = k * t :=
    zeroPadded_length (by rw [hlength]; exact hf)
  refine isBlock_ext (blockOf_isBlock hpadded) (clearTail_isBlock h hpad) ?_
  rw [blockOf_flatten hpadded, clearTail_flatten h hk hpad, zeroPadded, hlength, hbytes,
    Nat.sub_sub_self hf]

/-- Objects of `f` bytes against blocks of `k` symbols of `t` bytes: an object is padded,
cut and assembled again, a block is assembled, padded and cut again. -/
structure RoundTrips (ops : DataOperators) (f t k : Nat) : Prop where
  cut : ∀ object : Bytes, object.length = f → ∃ padded symbols,
    padObjectToKSymbols object k t = .ok padded ∧ paddedObjectZ1 object f t = .ok padded ∧
    padded.length = k * t ∧ splitIntoSymbols padded k t = .ok symbols ∧ IsBlock k t symbols ∧
    (∀ operator, insertSymbols ops padded t operator (List.range k) =
      .ok (ops.insertBlock operator symbols)) ∧
    assemblePayloadFromSymbols symbols f t = .ok object
  assembled : ∀ symbols, IsBlock k t symbols → ∃ object padded,
    assemblePayloadFromSymbols symbols f t = .ok object ∧ object.length = f ∧
    padObjectToKSymbols object k t = .ok padded ∧
    splitIntoSymbols padded k t = .ok (clearTail (k * t - f) symbols)

theorem roundTrips_of_size (ops : DataOperators) {f t k : Nat} (hk : 0 < k) (hf : f ≤ k * t)
    (hpad : k * t - f ≤ t) (hcalc : calcK f t = .ok k) (hcap : k * t ≤ isizeMax) :
    RoundTrips ops f t k := by
  have hfit := Nat.le_trans hcap isizeMax_le_usizeMax
  refine ⟨?_, ?_⟩
  · rintro object rfl
    have hpadded := zeroPadded_length hf
    have hpadObject := padObjectToKSymbols_eq_ok.mpr ⟨hcap, .inr hf, rfl⟩
    refine ⟨_, _, hpadObject, ?_, hpadded, splitIntoSymbols_eq hpadded hfit,
      blockOf_isBlock hpadded, fun operator => ?_, assemble_blockOf hk hf hcap⟩
    · simp only [paddedObjectZ1, decide_true, assert_true, ok_bind, hcalc]
      exact hpadObject
    · rw [insertSymbols_eq hpadded hfit _ _ fun i hi => List.mem_range.mp hi]
      simp [DataOperators.insertBlock]
  · intro symbols hsymbols
    obtain ⟨hne, hhead⟩ := IsBlock.headD_length hsymbols hk
    have hlength : (symbols.flatten.take f).length = f := by
      rw [List.length_take, flatten_length_of_isBlock hsymbols, Nat.min_eq_left hf]
    have hfits : (symbols.flatten.take f).length ≤ k * t := by
      rw [hlength]
      exact hf
    refine ⟨symbols.flatten.take f, _,
      assemblePayloadFromSymbols_eq_ok.mpr ⟨hne, hhead, Nat.le_trans hf hcap, rfl⟩,
      hlength, padObjectToKSymbols_eq_ok.mpr ⟨hcap, .inr hfits, rfl⟩, ?_⟩
    rw [splitIntoSymbols_eq (zeroPadded_length hfits) hfit, blockOf_assembled hsymbols hk hf hpad]

/-- For every symbol size and every object length a vector can have, `K = calc_k(F, T)`
is the number of symbols the object needs and `K * T` does not overflow; when `K * T`
bytes can be allocated, objects and blocks round trip. -/
theorem layout_round_trip (ops : DataOperators) {f t : Nat} (ht : 1 ≤ t) (htop : t ≤ usizeMax)
    (hf : 1 ≤ f) (hftop : f ≤ isizeMax) :
    ∃ k, calcK f t = .ok k ∧ (k - 1) * t < f ∧ f ≤ k * t ∧ mulUsize k t = .ok (k * t) ∧
      (k * t ≤ isizeMax → RoundTrips ops f t k) := by
  obtain ⟨hk, hlower, hupper, hpad, hfit⟩ := layout_size ht htop hf hftop
  have hcalc : calcK f t = .ok (divCeil f t) := calcK_eq_ok.mpr ⟨ht, rfl⟩
  exact ⟨divCeil f t, hcalc, hlower, hupper, mulUsize_eq_ok.mpr ⟨hfit, rfl⟩,
    roundTrips_of_size ops hk hupper hpad hcalc⟩

/-- Five bytes in symbols of two. -/
theorem layout_round_trip_five : RoundTrips Repetition.operators 5 2 3 := by
  obtain ⟨k, hcalc, _, _, _, hround⟩ :=
    layout_round_trip Repetition.operators (f := 5) (t := 2) (by decide) (by decide) (by decide)
      (by decide)
  have hk : k = 3 := (calcK_eq_ok.mp hcalc).2
  subst hk
  exact hround (by decide)

end FountainTransfer.Layout
