import FountainTransfer.Blocks

/-!
# The transfer facade

`fountain_transfer_core/src/lib.rs` with both codec features, the default build: transfer
specs and their validation, and the encoder and decoder that dispatch on the codec.
-/

namespace FountainTransfer

/-! ## Transfer specs -/

inductive CodecKind
  | raptorQ
  | raptor10
deriving DecidableEq, Repr

inductive CodecConfig
  | raptorQ (dmax : Usize) (ldpcType : LDPCType)
  | raptor10 (dmax : Usize)
deriving DecidableEq, Repr

structure TransferSpec where
  transferLengthF : Usize
  symbolSizeT : Usize
  codec : CodecConfig
deriving DecidableEq, Repr

inductive TransferError
  | invalidObjectLength (expected actual : Nat)
  | invalidSymbolSize
  | invalidTransferLength
  | unsupportedSourceBlock (sbn : UInt32)
  | symbolLengthMismatch (expected actual : Nat)
  | decodeNotComplete
  | codecNotEnabled (kind : CodecKind)
deriving DecidableEq, Repr

/-- `DEFAULT_DMAX`. -/
def defaultDmax : Usize := 30

def CodecConfig.kind : CodecConfig → CodecKind
  | .raptorQ _ _ => .raptorQ
  | .raptor10 _ => .raptor10

def TransferSpec.codecKind (spec : TransferSpec) : CodecKind := spec.codec.kind

theorem TransferSpec.codecKind_of_codec {spec : TransferSpec} {config : CodecConfig}
    (h : spec.codec = config) : spec.codecKind = config.kind := congrArg CodecConfig.kind h

/-- Both `raptor-q` and `raptor-10` are default features. -/
def ensureCodecEnabled (kind : CodecKind) : Result TransferError Unit :=
  match kind with
  | .raptorQ => .ok ()
  | .raptor10 => .ok ()

def validateDimensions (transferLengthF symbolSizeT : Usize) : Result TransferError Unit :=
  if transferLengthF = 0 then .error .invalidTransferLength
  else if symbolSizeT = 0 then .error .invalidSymbolSize
  else .ok ()

/-- `validate_spec` and `TransferSpec::validate`. -/
def validateSpec (spec : TransferSpec) : Result TransferError Unit := do
  validateDimensions spec.transferLengthF spec.symbolSizeT
  ensureCodecEnabled spec.codecKind

def raptorQLdpcType : LDPCType := .reversedLDPC

def buildCodecConfig (kind : CodecKind) (dmax : Usize) : Result TransferError CodecConfig := do
  ensureCodecEnabled kind
  match kind with
  | .raptorQ => return .raptorQ dmax raptorQLdpcType
  | .raptor10 => return .raptor10 dmax

def codecConfigFromKind (kind : CodecKind) : Result TransferError CodecConfig :=
  buildCodecConfig kind defaultDmax

def TransferSpec.withCodec (transferLengthF symbolSizeT : Usize) (codec : CodecConfig) :
    Result TransferError TransferSpec := do
  let spec : TransferSpec := { transferLengthF, symbolSizeT, codec }
  validateSpec spec
  return spec

def TransferSpec.new (transferLengthF symbolSizeT : Usize) (kind : CodecKind) :
    Result TransferError TransferSpec := do
  validateDimensions transferLengthF symbolSizeT
  let codec ← codecConfigFromKind kind
  TransferSpec.withCodec transferLengthF symbolSizeT codec

/-- `K = ceil(F/T)` of a spec. -/
def TransferSpec.sourceK (spec : TransferSpec) : Nat :=
  divCeil spec.transferLengthF.toNat spec.symbolSizeT.toNat

/-- The configuration `codec_config_from_kind` builds. -/
def CodecKind.defaultConfig : CodecKind → CodecConfig
  | .raptorQ => .raptorQ defaultDmax raptorQLdpcType
  | .raptor10 => .raptor10 defaultDmax

@[simp] theorem defaultConfig_kind (kind : CodecKind) : kind.defaultConfig.kind = kind := by
  cases kind <;> rfl

theorem codecConfigFromKind_eq (kind : CodecKind) :
    codecConfigFromKind kind = .ok kind.defaultConfig := by
  cases kind <;> rfl

theorem usize_pos {n : Usize} : 0 < n.toNat ↔ n ≠ 0 := by
  rw [Nat.pos_iff_ne_zero, ne_eq, ne_eq, ← UInt64.toNat_inj]
  rfl

theorem usize_le_max (n : Usize) : n.toNat ≤ usizeMax :=
  Nat.le_of_lt_succ n.toNat_lt

theorem toNat_ofNat_usize {n : Nat} (h : n ≤ usizeMax) : (UInt64.ofNat n).toNat = n :=
  UInt64.toNat_ofNat_of_lt' (Nat.lt_succ_of_le h)

theorem sourceK_le_usizeMax (spec : TransferSpec) : spec.sourceK ≤ usizeMax :=
  Nat.le_trans (divCeil_le _ _) (usize_le_max _)

theorem validateDimensions_eq_ok {f t : Usize} {u : Unit} :
    validateDimensions f t = .ok u ↔ 0 < f.toNat ∧ 0 < t.toNat := by
  rw [usize_pos, usize_pos]
  unfold validateDimensions
  split
  · next h => simp [h]
  · split
    · next h => simp [h]
    · next hf ht => simp [hf, ht]

theorem validateSpec_eq_ok {spec : TransferSpec} {u : Unit} :
    validateSpec spec = .ok u ↔ 0 < spec.transferLengthF.toNat ∧ 0 < spec.symbolSizeT.toNat := by
  have henabled : ensureCodecEnabled spec.codecKind = .ok () := by
    cases spec.codecKind <;> rfl
  simp only [validateSpec, henabled, bind_eq_ok]
  exact ⟨fun ⟨_, h, _⟩ => validateDimensions_eq_ok.mp h,
    fun h => ⟨(), validateDimensions_eq_ok.mpr h, trivial⟩⟩

theorem TransferSpec.withCodec_eq_ok {f t : Usize} {codec : CodecConfig} {spec : TransferSpec} :
    TransferSpec.withCodec f t codec = .ok spec ↔
      0 < f.toNat ∧ 0 < t.toNat ∧ spec = ⟨f, t, codec⟩ := by
  simp only [TransferSpec.withCodec, bind_eq_ok, validateSpec_eq_ok, pure_eq_ok, Except.ok.injEq]
  constructor
  · rintro ⟨_, ⟨hf, ht⟩, rfl⟩
    exact ⟨hf, ht, rfl⟩
  · rintro ⟨hf, ht, rfl⟩
    exact ⟨(), ⟨hf, ht⟩, rfl⟩

theorem TransferSpec.new_eq_ok {f t : Usize} {kind : CodecKind} {spec : TransferSpec} :
    TransferSpec.new f t kind = .ok spec ↔
      0 < f.toNat ∧ 0 < t.toNat ∧ spec = ⟨f, t, kind.defaultConfig⟩ := by
  simp only [TransferSpec.new, bind_eq_ok, validateDimensions_eq_ok, codecConfigFromKind_eq,
    TransferSpec.withCodec_eq_ok, Except.ok.injEq]
  constructor
  · rintro ⟨_, _, _, rfl, h⟩
    exact h
  · rintro ⟨hf, ht, rfl⟩
    exact ⟨(), ⟨hf, ht⟩, _, rfl, hf, ht, rfl⟩

/-! ## The engines behind the facade -/

/-- The engine of each codec, over one kind of data operators. -/
structure Engines where
  ops : DataOperators
  raptorQ : Engine ops.Operator (Usize × LDPCType)
  raptor10 : Engine ops.Operator Usize

/-- A `StorageManager` as the codecs use it: it supplies fresh operators for its symbol
size. -/
structure StorageManager (eng : Engines) where
  symbolSize : Usize
  newOperator : eng.ops.Operator
  fresh : eng.ops.Fresh symbolSize.toNat newOperator

/-- Codec-neutral payload of a transport. -/
structure TransferPacket where
  sbn : UInt32
  esi : Usize
  symbol : Bytes
deriving DecidableEq, Repr

def TransferPacket.ofEncodingPacket (packet : EncodingPacket) : TransferPacket :=
  ⟨packet.payloadId.sbn, packet.payloadId.esi, packet.symbol⟩

def TransferPacket.toEncodingPacket (packet : TransferPacket) : EncodingPacket :=
  ⟨⟨packet.sbn, packet.esi⟩, packet.symbol⟩

@[simp] theorem toEncodingPacket_of (packet : EncodingPacket) :
    (TransferPacket.ofEncodingPacket packet).toEncodingPacket = packet := rfl

/-! ## Encoder -/

inductive TransferEncoderImpl (eng : Engines)
  | raptorQ (encoder : Rfc6330Encoder eng.raptorQ) (spec : TransferSpec)
  | raptor10 (encoder : Rfc5053Encoder eng.raptor10) (spec : TransferSpec)

/-- The codec dispatch of the two constructors. -/
def TransferEncoderImpl.withOperator (eng : Engines) (spec : TransferSpec) (object : Bytes)
    (operator : eng.ops.Operator) : Call (TransferEncoderImpl eng) :=
  match spec.codec with
  | .raptorQ dmax ldpcType => do
    let params ← Rfc6330TransmissionParams.forObject spec.transferLengthF.toNat
      spec.symbolSizeT.toNat dmax ldpcType
    let encoder ← BlockEncoder.newWithOperator eng.raptorQ params object operator
    return .raptorQ encoder spec
  | .raptor10 dmax => do
    let params ← Rfc5053TransmissionParams.forObject spec.transferLengthF.toNat
      spec.symbolSizeT.toNat dmax
    let encoder ← BlockEncoder.newWithOperator eng.raptor10 params object operator
    return .raptor10 encoder spec

/-- The default operator is the vector operator for the spec's symbol size. -/
def TransferEncoderImpl.new (eng : Engines) (spec : TransferSpec) (object : Bytes) :
    Call (Result TransferError (TransferEncoderImpl eng)) :=
  match validateSpec spec with
  | .error e => .ok (.error e)
  | .ok () =>
    if object.length ≠ spec.transferLengthF.toNat then
      .ok (.error (.invalidObjectLength spec.transferLengthF.toNat object.length))
    else do
      let encoder ← TransferEncoderImpl.withOperator eng spec object
        (eng.ops.vecDataOperater spec.symbolSizeT.toNat)
      return .ok encoder

def TransferEncoderImpl.newWithStorageManager (eng : Engines) (spec : TransferSpec)
    (object : Bytes) (manager : StorageManager eng) :
    Call (Result TransferError (TransferEncoderImpl eng)) :=
  match validateSpec spec with
  | .error e => .ok (.error e)
  | .ok () =>
    if manager.symbolSize ≠ spec.symbolSizeT then
      .ok (.error (.symbolLengthMismatch spec.symbolSizeT.toNat manager.symbolSize.toNat))
    else if object.length ≠ spec.transferLengthF.toNat then
      .ok (.error (.invalidObjectLength spec.transferLengthF.toNat object.length))
    else do
      let encoder ← TransferEncoderImpl.withOperator eng spec object manager.newOperator
      return .ok encoder

section

variable {eng : Engines}

def TransferEncoderImpl.spec : TransferEncoderImpl eng → TransferSpec
  | .raptorQ _ spec => spec
  | .raptor10 _ spec => spec

def TransferEncoderImpl.sourcePackets : TransferEncoderImpl eng → List TransferPacket
  | .raptorQ enc _ => enc.sourcePackets.map TransferPacket.ofEncodingPacket
  | .raptor10 enc _ => enc.sourcePackets.map TransferPacket.ofEncodingPacket

def TransferEncoderImpl.repairPackets (enc : TransferEncoderImpl eng)
    (startRepairIndex count : Nat) : Call (TransferEncoderImpl eng × List TransferPacket) :=
  match enc with
  | .raptorQ enc spec => do
    let out ← Rfc6330Encoder.repairPackets enc startRepairIndex count
    return (.raptorQ out.1 spec, out.2.map TransferPacket.ofEncodingPacket)
  | .raptor10 enc spec => do
    let out ← Rfc5053Encoder.repairPackets enc startRepairIndex count
    return (.raptor10 out.1 spec, out.2.map TransferPacket.ofEncodingPacket)

end

/-! ## Decoder -/

inductive TransferDecoderImpl (eng : Engines)
  | raptorQ (decoder : Rfc6330Decoder eng.raptorQ) (spec : TransferSpec)
  | raptor10 (decoder : Rfc5053Decoder eng.raptor10) (spec : TransferSpec)

/-- The codec dispatch of the two constructors. -/
def TransferDecoderImpl.withOperator (eng : Engines) (spec : TransferSpec)
    (operator : eng.ops.Operator) : Call (TransferDecoderImpl eng) :=
  match spec.codec with
  | .raptorQ dmax ldpcType => do
    let params ← Rfc6330TransmissionParams.forObject spec.transferLengthF.toNat
      spec.symbolSizeT.toNat dmax ldpcType
    let decoder ← Rfc6330Decoder.newWithOperator eng.raptorQ params operator
    return .raptorQ decoder spec
  | .raptor10 dmax => do
    let params ← Rfc5053TransmissionParams.forObject spec.transferLengthF.toNat
      spec.symbolSizeT.toNat dmax
    let decoder ← Rfc5053Decoder.newWithOperator eng.raptor10 params operator
    return .raptor10 decoder spec

def TransferDecoderImpl.new (eng : Engines) (spec : TransferSpec) :
    Call (Result TransferError (TransferDecoderImpl eng)) :=
  match validateSpec spec with
  | .error e => .ok (.error e)
  | .ok () => do
    let decoder ← TransferDecoderImpl.withOperator eng spec
      (eng.ops.vecDataOperater spec.symbolSizeT.toNat)
    return .ok decoder

def TransferDecoderImpl.newWithStorageManager (eng : Engines) (spec : TransferSpec)
    (manager : StorageManager eng) : Call (Result TransferError (TransferDecoderImpl eng)) :=
  match validateSpec spec with
  | .error e => .ok (.error e)
  | .ok () =>
    if manager.symbolSize ≠ spec.symbolSizeT then
      .ok (.error (.symbolLengthMismatch spec.symbolSizeT.toNat manager.symbolSize.toNat))
    else do
      let decoder ← TransferDecoderImpl.withOperator eng spec manager.newOperator
      return .ok decoder

section

variable {eng : Engines}

def TransferDecoderImpl.spec : TransferDecoderImpl eng → TransferSpec
  | .raptorQ _ spec => spec
  | .raptor10 _ spec => spec

/-- A rejected packet leaves the decoder as it was; an accepted one yields the decoder
after the engine took the symbol. -/
def TransferDecoderImpl.addPacket (dec : TransferDecoderImpl eng) (packet : TransferPacket) :
    Call (Result TransferError (TransferDecoderImpl eng × DecodeStatus)) :=
  if packet.sbn ≠ 0 then .ok (.error (.unsupportedSourceBlock packet.sbn))
  else if packet.symbol.length ≠ dec.spec.symbolSizeT.toNat then
    .ok (.error (.symbolLengthMismatch dec.spec.symbolSizeT.toNat packet.symbol.length))
  else
    match dec with
    | .raptorQ dec spec => do
      let added ← dec.addPacket packet.toEncodingPacket
      return .ok (.raptorQ added.1 spec, added.2)
    | .raptor10 dec spec => do
      let added ← Rfc5053Decoder.addPacket dec packet.toEncodingPacket
      return .ok (.raptor10 added.1 spec, added.2)

def TransferDecoderImpl.decodeStatus : TransferDecoderImpl eng → DecodeStatus
  | .raptorQ dec _ => dec.decodeStatus
  | .raptor10 dec _ => dec.decodeStatus

def TransferDecoderImpl.recoverObject (dec : TransferDecoderImpl eng) :
    Call (Result TransferError Bytes) :=
  if dec.decodeStatus ≠ .decoded then .ok (.error .decodeNotComplete)
  else
    match dec with
    | .raptorQ dec _ => do
      let object ← dec.recoverObject
      return .ok object
    | .raptor10 dec _ => do
      let object ← dec.recoverObject
      return .ok object

end

end FountainTransfer
