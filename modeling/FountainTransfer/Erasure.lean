/-!
# Erasure codes seen from outside

A block `b` is sent as symbols `encode c b`, one for each coded id `c` the sender picks.
A decoder is fed pairs of an id and a symbol, reports a status for each, and at some
point exposes a block. This module says what it means for the two ends to fit together,
for any ids, blocks, symbols and reports:

* `Agrees encode b fed`: every fed pair is one that `b` is sent as;
* `Encoder.Faithful`: the encoder hands out exactly these symbols;
* `Decoder.Sound`: fed only pairs of one block, a complete decoder exposes that block;
* `Decoder.Prompt`: it takes such pairs, and is done once it has seen every source id.
-/

namespace ErasureCode

variable {χ δ ι β γ ς ε : Type}

/-- Every pair in `fed` is a pair that the block `b` is sent as. -/
def Agrees (encode : ι → β → γ) (b : β) (fed : List (ι × γ)) : Prop :=
  ∀ x ∈ fed, x.2 = encode x.1 b

@[simp] theorem agrees_nil (encode : ι → β → γ) (b : β) : Agrees encode b [] :=
  fun _ h => nomatch h

theorem agrees_append {encode : ι → β → γ} {b : β} {fed more : List (ι × γ)} :
    Agrees encode b (fed ++ more) ↔ Agrees encode b fed ∧ Agrees encode b more := by
  constructor
  · exact fun h => ⟨fun x hx => h x (List.mem_append_left _ hx),
      fun x hx => h x (List.mem_append_right _ hx)⟩
  · rintro ⟨hfed, hmore⟩ x hx
    rcases List.mem_append.mp hx with hx | hx
    · exact hfed x hx
    · exact hmore x hx

theorem Agrees.snoc {encode : ι → β → γ} {b : β} {fed : List (ι × γ)} {c : ι} {v : γ}
    (h : Agrees encode b fed) (hv : v = encode c b) : Agrees encode b (fed ++ [(c, v)]) :=
  agrees_append.mpr ⟨h, fun x hx => by rw [List.mem_singleton.mp hx]; exact hv⟩

/-! ## Encoders -/

/-- An encoder. `Loaded e b` says that `e` was just built for the block `b`, `prepare`
computes the symbol of an id that is not a source id, `symbol` reads a symbol. -/
structure Encoder (χ ι β γ : Type) where
  Loaded : χ → β → Prop
  prepare : χ → ι → Option χ
  symbol : χ → ι → γ

/-- `e` serves the block `b` after any number of `prepare` calls. -/
inductive Encoder.Serves (e : Encoder χ ι β γ) (b : β) : χ → Prop
  | loaded {x : χ} : e.Loaded x b → e.Serves b x
  | prepared {x x' : χ} {c : ι} : e.Serves b x → e.prepare x c = some x' → e.Serves b x'

/-- `e`, serving `b`, hands out `v` as the symbol of `c`: at a source id from the start, and at
any other id once it is prepared. -/
inductive Encoder.HandsOut (e : Encoder χ ι β γ) (Source : ι → Prop) (b : β) : ι → γ → Prop
  | source {x : χ} {c : ι} : e.Serves b x → Source c → e.HandsOut Source b c (e.symbol x c)
  | prepared {x x' : χ} {c : ι} : e.Serves b x → e.prepare x c = some x' →
      e.HandsOut Source b c (e.symbol x' c)

/-- The symbols an encoder hands out are those of `encode`. -/
def Encoder.Faithful (e : Encoder χ ι β γ) (encode : ι → β → γ) (Source : ι → Prop) : Prop :=
  ∀ {b : β} {c : ι} {v : γ}, e.HandsOut Source b c v → v = encode c b

/-! ## Decoders -/

/-- A decoder. `add` may stop with a failure; otherwise it reports a status. -/
structure Decoder (δ ι β γ ς ε : Type) where
  Start : δ → Prop
  add : δ → ι → γ → Except ε (δ × ς)
  Complete : δ → Prop
  expose : δ → β

/-- `D.Fed fed reports d`: `d` is a decoder that took the pairs `fed`, in this order, and
answered with `reports`. -/
inductive Decoder.Fed (D : Decoder δ ι β γ ς ε) : List (ι × γ) → List ς → δ → Prop
  | start {d : δ} : D.Start d → D.Fed [] [] d
  | add {fed : List (ι × γ)} {reports : List ς} {d d' : δ} {c : ι} {v : γ} {r : ς} :
      D.Fed fed reports d → D.add d c v = .ok (d', r) →
      D.Fed (fed ++ [(c, v)]) (reports ++ [r]) d'

/-- Fed only pairs of one block, a complete decoder exposes that block. -/
def Decoder.Sound (D : Decoder δ ι β γ ς ε) (encode : ι → β → γ) (Block : β → Prop) : Prop :=
  ∀ {fed : List (ι × γ)} {reports : List ς} {d : δ} {b : β},
    D.Fed fed reports d → Block b → Agrees encode b fed → D.Complete d → D.expose d = b

/-- A decoder that makes progress on the pairs of one block whose ids are `Admitted`. Where
not `Again`, it is only asked to take ids that are new to it. -/
structure Decoder.Prompt (D : Decoder δ ι β γ ς ε) (encode : ι → β → γ) (Block : β → Prop)
    (Admitted : ι → Prop) (sources : List ι) (done : ς) (Again : Prop) : Prop where
  takes : ∀ {fed : List (ι × γ)} {reports : List ς} {d : δ} {b : β} {c : ι},
    D.Fed fed reports d → Block b → Agrees encode b fed → (∀ x ∈ fed, Admitted x.1) →
    Admitted c → (Again ∨ ∀ x ∈ fed, x.1 ≠ c) → ∃ d' r, D.add d c (encode c b) = .ok (d', r)
  reports_complete : ∀ {fed : List (ι × γ)} {reports : List ς} {d d' : δ} {c : ι} {v : γ},
    D.Fed fed reports d → D.add d c v = .ok (d', done) → D.Complete d'
  done_of_sources : ∀ {fed : List (ι × γ)} {reports : List ς} {d : δ} {b : β},
    D.Fed fed reports d → Block b → Agrees encode b fed → fed ≠ [] →
    (∀ c ∈ sources, ∃ v, (c, v) ∈ fed) → done ∈ reports

end ErasureCode
