import FountainTransfer.Basic
import FountainTransfer.Erasure

/-!
# The fountain engine and schemes

`fountain_engine`, `fountain_scheme`, `fountain_operators` and `fountain_utility` are
other crates. What the transfer crates call of them is the interface `Engine`, one
instance for each codec. What they rely on is stated as laws of this interface, each
result naming those it needs:

* `Faithful`: both ends agree on one symbol for each coded id;
* `SymbolsSized`, `Encodes`: what an encoder hands out, and that it can;
* `Prompt`, `ReportsStatus`, `DataSized`, `Robust`: how a decoder goes on and ends;
* `Builds`: for which `K` and `T` there is an encoder and a decoder.
-/

namespace FountainTransfer

open ErasureCode

/-- `fountain_scheme::rfc::rq::LDPCType`. Only the reversed precode is named here; any
other variant is passed on as it is. -/
inductive LDPCType
  | reversedLDPC
  | other (tag : Nat)
deriving DecidableEq, Repr

/-- `fountain_engine::types::DecodeStatus`. The code only ever asks whether a status is
`Decoded`, so the other variants are one. -/
inductive DecodeStatus
  | decoded
  | pending
deriving DecidableEq, Repr

/-- Implementations of the `DataOperator` trait. `Fresh t op`: `op` is a new operator
for symbols of `t` bytes. -/
structure DataOperators where
  Operator : Type
  vecDataOperater : Nat → Operator
  insertVector : Operator → Bytes → Nat → Operator
  Fresh : Nat → Operator → Prop
  fresh_vec : ∀ t, Fresh t (vecDataOperater t)

/-- The scheme, encoder and decoder of one codec. `sysCode` builds the scheme for `K`
source symbols and panics where it supports no such code. The constructors for symbols of
`T` bytes may panic where there is a scheme. A panic is its message. -/
structure Engine (Operator Config : Type) where
  Scheme : Type
  Encoder : Type
  Decoder : Type
  sysCode : Nat → Config → Except String Scheme
  numTotal : Scheme → Nat
  newEncoder : Scheme → Operator → Nat → Except String Encoder
  encodeCodedVector : Encoder → Nat → Option Encoder
  getCodedVector : Encoder → Nat → Bytes
  newDecoder : Scheme → Operator → Nat → Except String Decoder
  addCodedVector : Decoder → Nat → Bytes → Except String (Decoder × DecodeStatus)
  decodeStatus : Decoder → DecodeStatus
  getDataVector : Decoder → Nat → Bytes

/-- A call into the engine. -/
def engineCall {α : Type} (result : Except String α) : Call α := result.mapError .engine

@[simp] theorem engineCall_eq_ok {α : Type} {result : Except String α} {a : α} :
    engineCall result = .ok a ↔ result = .ok a :=
  mapError_eq_ok

/-- A source block: `k` symbols of `t` bytes. -/
def IsBlock (k t : Nat) (block : List Bytes) : Prop :=
  block.length = k ∧ ∀ symbol ∈ block, symbol.length = t

/-- The operator after symbol `i` of the block was inserted under id `i`, for each `i`. -/
def DataOperators.insertBlock (ops : DataOperators) (op : ops.Operator) (block : List Bytes) :
    ops.Operator :=
  (List.range block.length).foldl (fun op i => ops.insertVector op (block.getD i []) i) op

namespace Engine

variable {Config : Type} (ops : DataOperators) (eng : Engine ops.Operator Config)

/-- The encoders that can be built for `k` source symbols of `t` bytes. -/
def encoderSide (k : Nat) (config : Config) (t : Nat) :
    ErasureCode.Encoder eng.Encoder Nat (List Bytes) Bytes where
  Loaded e block := ∃ scheme op, eng.sysCode k config = .ok scheme ∧ ops.Fresh t op ∧
    IsBlock k t block ∧ eng.newEncoder scheme (ops.insertBlock op block) t = .ok e
  prepare := eng.encodeCodedVector
  symbol := eng.getCodedVector

/-- The decoders that can be built for `k` source symbols of `t` bytes. -/
def decoderSide (k : Nat) (config : Config) (t : Nat) :
    ErasureCode.Decoder eng.Decoder Nat (List Bytes) Bytes DecodeStatus String where
  Start d := ∃ scheme op, eng.sysCode k config = .ok scheme ∧ ops.Fresh t op ∧
    eng.newDecoder scheme op t = .ok d
  add := eng.addCodedVector
  Complete d := eng.decodeStatus d = .decoded
  expose d := (List.range k).map (eng.getDataVector d)

/-! ## What both ends rely on -/

/-- For a fixed `k` and configuration each coded id `c` has one encoding map
`encode k config c`, which is the projection to symbol `c` when `c < k`; the encoder hands
out these symbols and the decoder is sound for them. -/
structure Faithful (encode : Nat → Config → Nat → List Bytes → Bytes) : Prop where
  systematic : ∀ {k t config c block}, IsBlock k t block → c < k →
    block[c]? = some (encode k config c block)
  symbol_length : ∀ {k t config c block}, 0 < k → IsBlock k t block →
    (encode k config c block).length = t
  encoder : ∀ k config t,
    (eng.encoderSide ops k config t).Faithful (encode k config) (· < k)
  decoder : ∀ k config t,
    (eng.decoderSide ops k config t).Sound (encode k config) (IsBlock k t)

/-- The ids an encoder can put on a packet: the source ids and those past the internal
precode symbols. -/
def Emittable (k numTotal c : Nat) : Prop := c < k ∨ numTotal ≤ c

/-- There is a scheme, and its constructor returns, exactly where the limits allow `k` and `t`:
the encoder's on the operator that holds a block, the decoder's on a fresh one. -/
structure Builds (encoder decoder : Config → Nat → Nat → Prop) : Prop where
  encoder : ∀ {k config t op block}, ops.Fresh t op → IsBlock k t block →
    ((∃ scheme e, eng.sysCode k config = .ok scheme ∧
      eng.newEncoder scheme (ops.insertBlock op block) t = .ok e) ↔ encoder config k t)
  decoder : ∀ {k config t op}, ops.Fresh t op →
    ((∃ scheme d, eng.sysCode k config = .ok scheme ∧ eng.newDecoder scheme op t = .ok d) ↔
      decoder config k t)

/-! ## Encoders -/

/-- The symbols an encoder hands out have `t` bytes. -/
def SymbolsSized : Prop :=
  ∀ {k config t block c symbol}, 0 < k → IsBlock k t block →
    (eng.encoderSide ops k config t).HandsOut (· < k) block c symbol → symbol.length = t

variable {ops eng} in
theorem Faithful.symbolsSized {encode : Nat → Config → Nat → List Bytes → Bytes}
    (faithful : eng.Faithful ops encode) : eng.SymbolsSized ops := by
  intro k config t block c symbol hk hblock h
  rw [faithful.encoder k config t h]
  exact faithful.symbol_length hk hblock

/-- An encoder that serves a block can prepare every id past the internal ones. -/
def Encodes : Prop :=
  ∀ {k : Nat} {config : Config} {t : Nat} {scheme : eng.Scheme} {block : List Bytes}
    {e : eng.Encoder} {c : Nat}, eng.sysCode k config = .ok scheme →
    (eng.encoderSide ops k config t).Serves block e → eng.numTotal scheme ≤ c →
    ∃ e', eng.encodeCodedVector e c = some e'

/-! ## Decoders -/

/-- Recovery. Where an encoder was built a decoder can be; it takes every emittable id of
one block, one that it was given before only where `Again`; what it reports it can give; and
it is done by the time all source ids were fed. -/
structure Prompt (encode : Nat → Config → Nat → List Bytes → Bytes) (Again : Prop) : Prop where
  starts : ∀ {k config t scheme op block e}, eng.sysCode k config = .ok scheme →
    ops.Fresh t op → (eng.encoderSide ops k config t).Loaded e block →
    ∃ d, eng.newDecoder scheme op t = .ok d
  progress : ∀ {k config scheme} (t : Nat), 0 < k → eng.sysCode k config = .ok scheme →
    (eng.decoderSide ops k config t).Prompt (encode k config) (IsBlock k t)
      (Emittable k (eng.numTotal scheme)) (List.range k) .decoded Again

/-- Until a decoder has reported `Decoded`, what it reports is its status. -/
def ReportsStatus : Prop :=
  ∀ {k config t fed reports d c symbol d' status},
    (eng.decoderSide ops k config t).Fed fed reports d → .decoded ∉ reports →
    eng.addCodedVector d c symbol = .ok (d', status) → eng.decodeStatus d' = status

/-- Fed symbols of the right length, a decoder that is done has data vectors of that
length. -/
def DataSized : Prop :=
  ∀ {k config t fed reports d i},
    (eng.decoderSide ops k config t).Fed fed reports d → (∀ x ∈ fed, x.2.length = t) →
    eng.decodeStatus d = .decoded → i < k → (eng.getDataVector d i).length = t

/-- On arbitrary symbols of the right length: the decoder takes any id at any time and
reports its status; once it is done its data vectors are of that length, and being in memory
they are no more than `isize::MAX` bytes together. -/
structure Robust : Prop where
  takes : ∀ {k config t fed reports d c symbol},
    (eng.decoderSide ops k config t).Fed fed reports d → (∀ x ∈ fed, x.2.length = t) →
    symbol.length = t → ∃ d' status, eng.addCodedVector d c symbol = .ok (d', status) ∧
      eng.decodeStatus d' = status
  data : eng.DataSized ops
  room : ∀ {k config t fed reports d},
    (eng.decoderSide ops k config t).Fed fed reports d → (∀ x ∈ fed, x.2.length = t) →
    eng.decodeStatus d = .decoded → k * t ≤ isizeMax

end Engine

end FountainTransfer
