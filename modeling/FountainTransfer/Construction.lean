import FountainTransfer.Encoding
import FountainTransfer.Pinning

/-!
# Construction

`validate` checks that `F` and `T` are not zero. The constructors rely on more: the
scheme must support `K = ceil(F/T)` source symbols, the engine must build its side for `K`
symbols of `T` bytes, and `K * T` bytes must be allocatable. `construction_sound_iff` says
that a constructor of a validated spec returns exactly when all hold, and
`metadata_panics_iff` what this means for a receiver: metadata for which there is no
decoder ends it with a panic.
-/

namespace FountainTransfer

open Layout HaltingMachine

/-- The numbers of source symbols that RFC 6330 and RFC 5053 have a code for. -/
def CodecKind.Supports : CodecKind → Nat → Prop
  | .raptorQ, k => k ≤ 56403
  | .raptor10, k => 4 ≤ k ∧ k ≤ 8192

instance CodecKind.decidableSupports : (kind : CodecKind) → (k : Nat) → Decidable (kind.Supports k)
  | .raptorQ, k => inferInstanceAs (Decidable (k ≤ 56403))
  | .raptor10, k => inferInstanceAs (Decidable (4 ≤ k ∧ k ≤ 8192))

/-- The scheme constructors panic outside the ranges of the two RFCs, and nowhere else. -/
structure Engines.DocumentedRanges (eng : Engines) : Prop where
  raptorQ : ∀ k config, 0 < k →
    ((∃ scheme, eng.raptorQ.sysCode k config = .ok scheme) ↔ CodecKind.raptorQ.Supports k)
  raptor10 : ∀ k dmax, 0 < k →
    ((∃ scheme, eng.raptor10.sysCode k dmax = .ok scheme) ↔ CodecKind.raptor10.Supports k)

/-- For which `K` and `T` the engine has an encoder and a decoder of a codec configuration. -/
structure BuildLimits where
  encoder : CodecConfig → Nat → Nat → Prop
  decoder : CodecConfig → Nat → Nat → Prop

/-- The engines build their sides exactly within the limits. -/
structure Engines.Builds (eng : Engines) (limits : BuildLimits) : Prop where
  raptorQ : eng.raptorQ.Builds eng.ops (fun config => limits.encoder (.raptorQ config.1 config.2))
    fun config => limits.decoder (.raptorQ config.1 config.2)
  raptor10 : eng.raptor10.Builds eng.ops (fun dmax => limits.encoder (.raptor10 dmax))
    fun dmax => limits.decoder (.raptor10 dmax)

/-- The engine's own constructors return on what the encoder of an object hands them. -/
def Engines.BuildsEncoder (eng : Engines) (spec : TransferSpec) (object : Bytes) : Prop :=
  match spec.codec with
  | .raptorQ dmax ldpcType => ∃ scheme encoder,
    eng.raptorQ.sysCode spec.sourceK (dmax, ldpcType) = .ok scheme ∧
      eng.raptorQ.newEncoder scheme (eng.ops.insertBlock
        (eng.ops.vecDataOperater spec.symbolSizeT.toNat) (spec.block object))
        spec.symbolSizeT.toNat = .ok encoder
  | .raptor10 dmax => ∃ scheme encoder, eng.raptor10.sysCode spec.sourceK dmax = .ok scheme ∧
      eng.raptor10.newEncoder scheme (eng.ops.insertBlock
        (eng.ops.vecDataOperater spec.symbolSizeT.toNat) (spec.block object))
        spec.symbolSizeT.toNat = .ok encoder

/-- The same for the decoder. -/
def Engines.BuildsDecoder (eng : Engines) (spec : TransferSpec) : Prop :=
  match spec.codec with
  | .raptorQ dmax ldpcType => ∃ scheme decoder,
    eng.raptorQ.sysCode spec.sourceK (dmax, ldpcType) = .ok scheme ∧
      eng.raptorQ.newDecoder scheme (eng.ops.vecDataOperater spec.symbolSizeT.toNat)
        spec.symbolSizeT.toNat = .ok decoder
  | .raptor10 dmax => ∃ scheme decoder, eng.raptor10.sysCode spec.sourceK dmax = .ok scheme ∧
      eng.raptor10.newDecoder scheme (eng.ops.vecDataOperater spec.symbolSizeT.toNat)
        spec.symbolSizeT.toNat = .ok decoder

/-- `num_total` counts the source symbols and the internal ones, and is small. -/
structure Engines.TotalsFit (eng : Engines) : Prop where
  raptorQ : ∀ {k config scheme}, eng.raptorQ.sysCode k config = .ok scheme →
    k ≤ eng.raptorQ.numTotal scheme ∧ eng.raptorQ.numTotal scheme ≤ 2 ^ 32
  raptor10 : ∀ {k dmax scheme}, eng.raptor10.sysCode k dmax = .ok scheme →
    k ≤ eng.raptor10.numTotal scheme ∧ eng.raptor10.numTotal scheme ≤ 2 ^ 32

section

variable {eng : Engines} {spec : TransferSpec} {numTotal : Nat}

/-! ## Schemes -/

theorem numTotal_raptorQ_eq_ok {dmax : Usize} {ldpcType : LDPCType}
    (hcodec : spec.codec = .raptorQ dmax ldpcType) :
    eng.numTotal spec = .ok numTotal ↔
      ∃ scheme, eng.raptorQ.sysCode spec.sourceK (dmax, ldpcType) = .ok scheme ∧
        eng.raptorQ.numTotal scheme = numTotal := by
  unfold Engines.numTotal
  rw [hcodec]
  exact map_eq_ok

theorem numTotal_raptor10_eq_ok {dmax : Usize} (hcodec : spec.codec = .raptor10 dmax) :
    eng.numTotal spec = .ok numTotal ↔
      ∃ scheme, eng.raptor10.sysCode spec.sourceK dmax = .ok scheme ∧
        eng.raptor10.numTotal scheme = numTotal := by
  unfold Engines.numTotal
  rw [hcodec]
  exact map_eq_ok

theorem Engines.DocumentedRanges.numTotal_iff (ranges : eng.DocumentedRanges)
    (hk : 0 < spec.sourceK) :
    (∃ numTotal, eng.numTotal spec = .ok numTotal) ↔ spec.codecKind.Supports spec.sourceK := by
  cases hcodec : spec.codec with
  | raptorQ dmax ldpcType =>
    rw [TransferSpec.codecKind_of_codec hcodec]
    refine Iff.trans ⟨?_, ?_⟩ (ranges.raptorQ _ (dmax, ldpcType) hk)
    · rintro ⟨numTotal, h⟩
      obtain ⟨scheme, hscheme, _⟩ := (numTotal_raptorQ_eq_ok hcodec).mp h
      exact ⟨scheme, hscheme⟩
    · rintro ⟨scheme, hscheme⟩
      exact ⟨_, (numTotal_raptorQ_eq_ok hcodec).mpr ⟨scheme, hscheme, rfl⟩⟩
  | raptor10 dmax =>
    rw [TransferSpec.codecKind_of_codec hcodec]
    refine Iff.trans ⟨?_, ?_⟩ (ranges.raptor10 _ dmax hk)
    · rintro ⟨numTotal, h⟩
      obtain ⟨scheme, hscheme, _⟩ := (numTotal_raptor10_eq_ok hcodec).mp h
      exact ⟨scheme, hscheme⟩
    · rintro ⟨scheme, hscheme⟩
      exact ⟨_, (numTotal_raptor10_eq_ok hcodec).mpr ⟨scheme, hscheme, rfl⟩⟩

theorem Engines.TotalsFit.of_numTotal (totals : eng.TotalsFit) (h : eng.numTotal spec = .ok numTotal) :
    spec.sourceK ≤ numTotal ∧ numTotal ≤ 2 ^ 32 := by
  cases hcodec : spec.codec with
  | raptorQ dmax ldpcType =>
    obtain ⟨scheme, hscheme, rfl⟩ := (numTotal_raptorQ_eq_ok hcodec).mp h
    exact totals.raptorQ hscheme
  | raptor10 dmax =>
    obtain ⟨scheme, hscheme, rfl⟩ := (numTotal_raptor10_eq_ok hcodec).mp h
    exact totals.raptor10 hscheme

/-- The symbols of a scheme, of a size that metadata can carry, can be allocated. -/
theorem Engines.TotalsFit.padded (totals : eng.TotalsFit) (h : eng.numTotal spec = .ok numTotal)
    (ht : spec.symbolSizeT.toNat ≤ 65535) : spec.sourceK * spec.symbolSizeT.toNat ≤ isizeMax := by
  obtain ⟨hle, hsmall⟩ := totals.of_numTotal h
  exact Nat.le_trans (Nat.mul_le_mul (Nat.le_trans hle hsmall) ht) (by decide)

/-! ## Constructors -/

/-- A decoder for a validated spec is built exactly where the engine builds one. -/
theorem TransferDecoderImpl.new_iff (hvalid : validateSpec spec = .ok ()) :
    (∃ decoder, TransferDecoderImpl.new eng spec = .ok (.ok decoder)) ↔ eng.BuildsDecoder spec := by
  obtain ⟨hf, ht⟩ := validateSpec_eq_ok.mp hvalid
  simp only [TransferDecoderImpl.new_eq_ok, hf, ht, true_and, TransferDecoderImpl.withOperator,
    Engines.BuildsDecoder]
  cases spec.codec with
  | raptorQ dmax ldpcType =>
    simp only [Rfc6330TransmissionParams.forObject_eq hf ht, ok_bind,
      Rfc6330Decoder.newWithOperator, bind_eq_ok, engineCall_eq_ok]
    constructor
    · rintro ⟨_, _, ⟨scheme, hscheme, decoder, hnew, _⟩, _⟩
      exact ⟨scheme, decoder, hscheme, hnew⟩
    · rintro ⟨scheme, decoder, hscheme, hnew⟩
      exact ⟨_, _, ⟨scheme, hscheme, decoder, hnew, rfl⟩, rfl⟩
  | raptor10 dmax =>
    simp only [Rfc5053TransmissionParams.forObject_eq hf ht, ok_bind,
      Rfc5053Decoder.newWithOperator, bind_eq_ok, engineCall_eq_ok]
    constructor
    · rintro ⟨_, _, ⟨scheme, hscheme, decoder, hnew, _⟩, _⟩
      exact ⟨scheme, decoder, hscheme, hnew⟩
    · rintro ⟨scheme, decoder, hscheme, hnew⟩
      exact ⟨_, _, ⟨scheme, hscheme, decoder, hnew, rfl⟩, rfl⟩

/-- A valid spec is not refused, so the constructor returns a decoder or panics. -/
theorem TransferDecoderImpl.new_returns_iff (hvalid : validateSpec spec = .ok ()) :
    (∃ result, TransferDecoderImpl.new eng spec = .ok result) ↔ eng.BuildsDecoder spec := by
  rw [← TransferDecoderImpl.new_iff hvalid]
  constructor
  · rintro ⟨result, hnew⟩
    obtain ⟨hf, ht⟩ := validateSpec_eq_ok.mp hvalid
    cases result with
    | error e => exact absurd hnew (TransferDecoderImpl.new_ne_error hf ht e)
    | ok decoder => exact ⟨decoder, hnew⟩
  · rintro ⟨decoder, hnew⟩
    exact ⟨.ok decoder, hnew⟩

/-- The symbols of an object cover it. -/
theorem length_le_sourceK (ht : 0 < spec.symbolSizeT.toNat) :
    spec.transferLengthF.toNat ≤ spec.sourceK * spec.symbolSizeT.toNat :=
  le_divCeil_mul ht

/-- An encoder for a validated spec and a matching object is built exactly where the padded
object can be allocated and the engine builds an encoder. -/
theorem TransferEncoderImpl.new_iff {object : Bytes} (hvalid : validateSpec spec = .ok ())
    (hlength : object.length = spec.transferLengthF.toNat) :
    (∃ encoder, TransferEncoderImpl.new eng spec object = .ok (.ok encoder)) ↔
      spec.sourceK * spec.symbolSizeT.toNat ≤ isizeMax ∧ eng.BuildsEncoder spec object := by
  obtain ⟨hf, ht⟩ := validateSpec_eq_ok.mp hvalid
  have hk : 0 < spec.sourceK := sourceK_pos hf ht
  have hle : object.length ≤ spec.sourceK * spec.symbolSizeT.toNat := hlength ▸ length_le_sourceK ht
  simp only [TransferEncoderImpl.new_eq_ok, hf, ht, hlength, true_and,
    TransferEncoderImpl.withOperator, Engines.BuildsEncoder]
  cases spec.codec with
  | raptorQ dmax ldpcType =>
    simp only [Rfc6330TransmissionParams.forObject_eq hf ht, ok_bind, bind_eq_ok]
    constructor
    · rintro ⟨_, _, hencoder, _⟩
      obtain ⟨_, _, hcap, scheme, encoder, hscheme, hnew, _⟩ :=
        (BlockEncoder.newWithOperator_eq_ok hk).mp hencoder
      exact ⟨hcap, scheme, encoder, hscheme, hnew⟩
    · rintro ⟨hcap, scheme, encoder, hscheme, hnew⟩
      have hencoder : BlockEncoder.newWithOperator eng.raptorQ
          ⟨spec.transferLengthF.toNat, spec.symbolSizeT.toNat, spec.sourceK, (dmax, ldpcType)⟩ object
          (eng.ops.vecDataOperater spec.symbolSizeT.toNat) =
            .ok ⟨encoder, _, eng.raptorQ.numTotal scheme⟩ :=
        (BlockEncoder.newWithOperator_eq_ok hk).mpr
          ⟨hlength, hle, hcap, scheme, encoder, hscheme, hnew, rfl⟩
      exact ⟨_, _, hencoder, rfl⟩
  | raptor10 dmax =>
    simp only [Rfc5053TransmissionParams.forObject_eq hf ht, ok_bind, bind_eq_ok]
    constructor
    · rintro ⟨_, _, hencoder, _⟩
      obtain ⟨_, _, hcap, scheme, encoder, hscheme, hnew, _⟩ :=
        (BlockEncoder.newWithOperator_eq_ok hk).mp hencoder
      exact ⟨hcap, scheme, encoder, hscheme, hnew⟩
    · rintro ⟨hcap, scheme, encoder, hscheme, hnew⟩
      have hencoder : BlockEncoder.newWithOperator eng.raptor10
          ⟨spec.transferLengthF.toNat, spec.symbolSizeT.toNat, spec.sourceK, dmax⟩ object
          (eng.ops.vecDataOperater spec.symbolSizeT.toNat) =
            .ok ⟨encoder, _, eng.raptor10.numTotal scheme⟩ :=
        (BlockEncoder.newWithOperator_eq_ok hk).mpr
          ⟨hlength, hle, hcap, scheme, encoder, hscheme, hnew, rfl⟩
      exact ⟨_, _, hencoder, rfl⟩

/-- A matching object is not refused. -/
theorem TransferEncoderImpl.new_ne_error {object : Bytes} (hvalid : validateSpec spec = .ok ())
    (hlength : object.length = spec.transferLengthF.toNat) (e : TransferError) :
    TransferEncoderImpl.new eng spec object ≠ .ok (.error e) := by
  simp [TransferEncoderImpl.new, hvalid, hlength, bind_eq_ok]

theorem TransferEncoderImpl.new_returns_iff {object : Bytes} (hvalid : validateSpec spec = .ok ())
    (hlength : object.length = spec.transferLengthF.toNat) :
    (∃ result, TransferEncoderImpl.new eng spec object = .ok result) ↔
      spec.sourceK * spec.symbolSizeT.toNat ≤ isizeMax ∧ eng.BuildsEncoder spec object := by
  rw [← TransferEncoderImpl.new_iff hvalid hlength]
  constructor
  · rintro ⟨result, hnew⟩
    cases result with
    | error e => exact absurd hnew (TransferEncoderImpl.new_ne_error hvalid hlength e)
    | ok encoder => exact ⟨encoder, hnew⟩
  · rintro ⟨encoder, hnew⟩
    exact ⟨.ok encoder, hnew⟩

/-! ## Where the engine builds -/

section

variable {limits : BuildLimits} {object : Bytes}

theorem Engines.BuildsEncoder.exists_numTotal (h : eng.BuildsEncoder spec object) :
    ∃ numTotal, eng.numTotal spec = .ok numTotal := by
  unfold Engines.BuildsEncoder at h
  split at h
  · next hcodec =>
    obtain ⟨scheme, _, hscheme, _⟩ := h
    exact ⟨_, (numTotal_raptorQ_eq_ok hcodec).mpr ⟨scheme, hscheme, rfl⟩⟩
  · next hcodec =>
    obtain ⟨scheme, _, hscheme, _⟩ := h
    exact ⟨_, (numTotal_raptor10_eq_ok hcodec).mpr ⟨scheme, hscheme, rfl⟩⟩

theorem Engines.BuildsDecoder.exists_numTotal (h : eng.BuildsDecoder spec) :
    ∃ numTotal, eng.numTotal spec = .ok numTotal := by
  unfold Engines.BuildsDecoder at h
  split at h
  · next hcodec =>
    obtain ⟨scheme, _, hscheme, _⟩ := h
    exact ⟨_, (numTotal_raptorQ_eq_ok hcodec).mpr ⟨scheme, hscheme, rfl⟩⟩
  · next hcodec =>
    obtain ⟨scheme, _, hscheme, _⟩ := h
    exact ⟨_, (numTotal_raptor10_eq_ok hcodec).mpr ⟨scheme, hscheme, rfl⟩⟩

theorem Engines.Builds.encoder_iff (builds : eng.Builds limits) (ht : 0 < spec.symbolSizeT.toNat)
    (hlength : object.length = spec.transferLengthF.toNat) :
    eng.BuildsEncoder spec object ↔
      limits.encoder spec.codec spec.sourceK spec.symbolSizeT.toNat := by
  have hfresh := eng.ops.fresh_vec spec.symbolSizeT.toNat
  have hblock : IsBlock spec.sourceK spec.symbolSizeT.toNat (spec.block object) :=
    blockOf_isBlock (zeroPadded_length (hlength ▸ length_le_sourceK ht))
  unfold Engines.BuildsEncoder
  cases spec.codec with
  | raptorQ dmax ldpcType => exact builds.raptorQ.encoder hfresh hblock
  | raptor10 dmax => exact builds.raptor10.encoder hfresh hblock

theorem Engines.Builds.decoder_iff (builds : eng.Builds limits) :
    eng.BuildsDecoder spec ↔ limits.decoder spec.codec spec.sourceK spec.symbolSizeT.toNat := by
  have hfresh := eng.ops.fresh_vec spec.symbolSizeT.toNat
  unfold Engines.BuildsDecoder
  cases spec.codec with
  | raptorQ dmax ldpcType => exact builds.raptorQ.decoder hfresh
  | raptor10 dmax => exact builds.raptor10.decoder hfresh

/-- Where an encoder was built there is a decoder. -/
theorem Engines.PromptWhere.buildsDecoder {Again : Prop} {encode : EncodingMap}
    (prompt : eng.PromptWhere Again encode) (hcarries : spec.Carries object)
    (h : eng.BuildsEncoder spec object) : eng.BuildsDecoder spec := by
  have hfresh := eng.ops.fresh_vec spec.symbolSizeT.toNat
  unfold Engines.BuildsEncoder at h
  unfold Engines.BuildsDecoder
  cases hcodec : spec.codec with
  | raptorQ dmax ldpcType =>
    rw [hcodec] at h
    obtain ⟨scheme, encoder, hscheme, hnew⟩ := h
    obtain ⟨decoder, hdecoder⟩ :=
      prompt.raptorQ.starts hscheme hfresh ⟨scheme, _, hscheme, hfresh, hcarries.isBlock, hnew⟩
    exact ⟨scheme, decoder, hscheme, hdecoder⟩
  | raptor10 dmax =>
    rw [hcodec] at h
    obtain ⟨scheme, encoder, hscheme, hnew⟩ := h
    obtain ⟨decoder, hdecoder⟩ :=
      prompt.raptor10.starts hscheme hfresh ⟨scheme, _, hscheme, hfresh, hcarries.isBlock, hnew⟩
    exact ⟨scheme, decoder, hscheme, hdecoder⟩

end

/-! ## What validation leaves open -/

/-- The encoder asks for the scheme before it pads the object. -/
theorem newWithOperator_of_sysCode_error {ops : DataOperators} {Config : Type}
    {engine : Engine ops.Operator Config} {params : TransmissionParams Config} {object : Bytes}
    {operator : ops.Operator} {text : String} (hlength : object.length = params.transferLengthF)
    (hscheme : engine.sysCode params.k params.config = .error text) :
    BlockEncoder.newWithOperator engine params object operator = .error (.engine text) := by
  have hcall : engineCall (engine.sysCode params.k params.config) = .error (.engine text) :=
    congrArg engineCall hscheme
  simp only [BlockEncoder.newWithOperator, hlength, decide_true, assert_true, hcall]
  rfl

/-- Both constructors return on `spec`; the encoder's on every object that can exist. -/
structure ConstructionSound (eng : Engines) (spec : TransferSpec) : Prop where
  decoder : ∃ result, TransferDecoderImpl.new eng spec = .ok result
  encoder : ∀ object : Bytes, object.length = spec.transferLengthF.toNat →
    object.length ≤ isizeMax → ∃ result, TransferEncoderImpl.new eng spec object = .ok result

theorem validateSpec_of_meta {message : WireMessage} (h : specFromSessionMeta message = .ok spec) :
    validateSpec spec = .ok () := by
  obtain ⟨_, _, f, t, kind, _, _, hf, ht, rfl⟩ := specFromSessionMeta_eq_ok.mp h
  exact validateSpec_eq_ok.mpr ⟨hf, by simpa using ht⟩

end

/-- For every spec that `validate` accepts or that a metadata frame is turned into: the
constructors return exactly when the scheme supports `K`, the engine has a decoder for `K`
and `T` and, as far as an object of `F` bytes can exist at all, its `K * T` padded bytes can
be allocated and the engine has an encoder. -/
theorem construction_sound_iff {eng : Engines} {limits : BuildLimits} (ranges : eng.DocumentedRanges)
    (builds : eng.Builds limits) {spec : TransferSpec}
    (h : validateSpec spec = .ok () ∨ ∃ message, specFromSessionMeta message = .ok spec) :
    ConstructionSound eng spec ↔
      spec.codecKind.Supports spec.sourceK ∧
      limits.decoder spec.codec spec.sourceK spec.symbolSizeT.toNat ∧
      (spec.transferLengthF.toNat ≤ isizeMax →
        spec.sourceK * spec.symbolSizeT.toNat ≤ isizeMax ∧
          limits.encoder spec.codec spec.sourceK spec.symbolSizeT.toNat) := by
  have hvalid : validateSpec spec = .ok () := by
    rcases h with hvalid | ⟨message, hmeta⟩
    · exact hvalid
    · exact validateSpec_of_meta hmeta
  obtain ⟨hf, ht⟩ := validateSpec_eq_ok.mp hvalid
  have hk := sourceK_pos hf ht
  constructor
  · rintro ⟨hdecoder, hencoder⟩
    have hbuilds := (TransferDecoderImpl.new_returns_iff hvalid).mp hdecoder
    have hsupports := (ranges.numTotal_iff hk).mp hbuilds.exists_numTotal
    refine ⟨hsupports, builds.decoder_iff.mp hbuilds, fun hexists => ?_⟩
    -- any object of this length will do
    have hlength : (List.replicate spec.transferLengthF.toNat (0 : UInt8)).length =
        spec.transferLengthF.toNat := List.length_replicate
    have hreturns := hencoder _ hlength (Nat.le_trans (Nat.le_of_eq hlength) hexists)
    obtain ⟨hcap, hencoder⟩ := (TransferEncoderImpl.new_returns_iff hvalid hlength).mp hreturns
    exact ⟨hcap, (builds.encoder_iff ht hlength).mp hencoder⟩
  · rintro ⟨_, hlimit, hexists⟩
    refine ⟨(TransferDecoderImpl.new_returns_iff hvalid).mpr (builds.decoder_iff.mpr hlimit),
      fun object hlength hle => ?_⟩
    obtain ⟨hcap, hencoder⟩ := hexists (hlength ▸ hle)
    exact (TransferEncoderImpl.new_returns_iff hvalid hlength).mpr
      ⟨hcap, (builds.encoder_iff ht hlength).mpr hencoder⟩

namespace Repetition

theorem engines_ranges : engines.DocumentedRanges where
  raptorQ k config hk := by
    constructor
    · rintro ⟨scheme, h⟩
      have hsupported := (sysCode_eq_ok.mp h).1
      exact (of_decide_eq_true hsupported).2
    · intro hle
      exact ⟨k, sysCode_eq_ok.mpr ⟨decide_eq_true ⟨hk, hle⟩, rfl⟩⟩
  raptor10 k dmax _ := by
    constructor
    · rintro ⟨scheme, h⟩
      exact of_decide_eq_true (sysCode_eq_ok.mp h).1
    · intro hrange
      exact ⟨k, sysCode_eq_ok.mpr ⟨decide_eq_true hrange, rfl⟩⟩

/-- Where a code has an encoder and a decoder. -/
def Code.Encodes (code : Code) (k t : Nat) : Prop :=
  code.supported k = true ∧ code.encodable k = true ∧ k * t ≤ isizeMax

def Code.Decodes (code : Code) (k t : Nat) : Prop := code.supported k = true ∧ k * t ≤ isizeMax

def limits : BuildLimits where
  encoder codec :=
    match codec with
    | .raptorQ _ _ => codeQ.Encodes
    | .raptor10 _ => code10.Encodes
  decoder codec :=
    match codec with
    | .raptorQ _ _ => codeQ.Decodes
    | .raptor10 _ => code10.Decodes

theorem builds (Config : Type) (code : Code) : (engine Config code).Builds operators
    (fun _ => code.Encodes) fun _ => code.Decodes where
  encoder {k config t op block} _ _ := by
    constructor
    · rintro ⟨scheme, e, hscheme, hnew⟩
      obtain ⟨hsupported, rfl⟩ := sysCode_eq_ok.mp hscheme
      exact ⟨hsupported, (newEncoder_eq_ok.mp hnew).1⟩
    · rintro ⟨hsupported, hlimit⟩
      exact ⟨k, _, sysCode_eq_ok.mpr ⟨hsupported, rfl⟩, newEncoder_eq_ok.mpr ⟨hlimit, rfl⟩⟩
  decoder {k config t op} _ := by
    constructor
    · rintro ⟨scheme, d, hscheme, hnew⟩
      obtain ⟨hsupported, rfl⟩ := sysCode_eq_ok.mp hscheme
      exact ⟨hsupported, (newDecoder_eq_ok.mp hnew).1⟩
    · rintro ⟨hsupported, hlimit⟩
      exact ⟨k, _, sysCode_eq_ok.mpr ⟨hsupported, rfl⟩, newDecoder_eq_ok.mpr ⟨hlimit, rfl⟩⟩

theorem engines_builds : engines.Builds limits where
  raptorQ := builds _ codeQ
  raptor10 := builds _ code10

theorem engines_totals : engines.TotalsFit where
  raptorQ {k config scheme} h := by
    obtain ⟨hsupported, hscheme⟩ := sysCode_eq_ok.mp h
    have hrange : 1 ≤ k ∧ k ≤ 56403 := of_decide_eq_true hsupported
    have htotal : engines.raptorQ.numTotal scheme = max 27 (k + 1) := congrArg codeQ.numTotal hscheme
    rw [htotal]
    omega
  raptor10 {k dmax scheme} h := by
    obtain ⟨hsupported, hscheme⟩ := sysCode_eq_ok.mp h
    have hrange : 4 ≤ k ∧ k ≤ 8192 := of_decide_eq_true hsupported
    have htotal : engines.raptor10.numTotal scheme = max 14 (k + 1) :=
      congrArg code10.numTotal hscheme
    rw [htotal]
    omega

/-- One symbol more than RaptorQ has codes for. -/
def specLong : TransferSpec := ⟨56404, 1, CodecKind.raptorQ.defaultConfig⟩

def metaLong : Arrival :=
  .datagram (wireCode.encode (sessionMetaFromSpec 7 specLong)) ⟨2130706433, 5000⟩

theorem decoderLong_panics : TransferDecoderImpl.new engines specLong =
    .error (.engine "unsupported number of source symbols") := rfl

theorem encoderLong_panics {object : Bytes} (hlength : object.length = 56404) :
    TransferEncoderImpl.new engines specLong object =
      .error (.engine "unsupported number of source symbols") := by
  have hvalid : validateSpec specLong = .ok () := rfl
  have hmatches : object.length = specLong.transferLengthF.toNat := hlength
  have hblock : BlockEncoder.newWithOperator engines.raptorQ
      ⟨56404, 1, 56404, (defaultDmax, raptorQLdpcType)⟩ object (engines.ops.vecDataOperater 1) =
        .error (.engine "unsupported number of source symbols") :=
    newWithOperator_of_sysCode_error hlength rfl
  have hencoder : TransferEncoderImpl.withOperator engines specLong object
      (engines.ops.vecDataOperater 1) =
        .error (.engine "unsupported number of source symbols") :=
    congrArg (· >>= fun encoder => pure (TransferEncoderImpl.raptorQ encoder specLong)) hblock
  unfold TransferEncoderImpl.new
  simp only [hvalid, hmatches, ne_eq, not_true_eq_false, if_false]
  exact congrArg (· >>= fun encoder => pure (Except.ok (ε := TransferError) encoder)) hencoder

end Repetition

open Repetition in
theorem construction_sound_four : ConstructionSound engines spec10 :=
  (construction_sound_iff engines_ranges engines_builds (.inl rfl)).mpr
    ⟨by decide, ⟨rfl, by decide⟩, fun _ => ⟨by decide, rfl, rfl, by decide⟩⟩

open Repetition in
/-- An object of 56404 bytes in symbols of one byte by RaptorQ: the spec validates and both
constructors panic, the decoder's also on the metadata of a receiver that has seen nothing
else. -/
theorem raptorQ_56404_bytes :
    engines.DocumentedRanges ∧ engines.Builds limits ∧ validateSpec specLong = .ok () ∧
    TransferDecoderImpl.new engines specLong =
      .error (.engine "unsupported number of source symbols") ∧
    (∀ object : Bytes, object.length = 56404 → TransferEncoderImpl.new engines specLong object =
      .error (.engine "unsupported number of source symbols")) ∧
    (receive engines openTask [metaLong]).halt =
      some (.error (.engine "unsupported number of source symbols")) ∧
    ¬ ConstructionSound engines specLong := by
  refine ⟨engines_ranges, engines_builds, rfl, rfl, fun _ => encoderLong_panics, rfl, ?_⟩
  rintro ⟨⟨result, hnew⟩, _⟩
  cases decoderLong_panics.symm.trans hnew

/-- The receiver constructs a decoder for admitted metadata before it has seen any packet: it
goes on exactly when the engine has a decoder for the `K` and `T` of the metadata. -/
theorem metadata_panics_iff {eng : Engines} {limits : BuildLimits} (builds : eng.Builds limits)
    {task : RecvTask} {s : RecvState eng} {arrival : Arrival} {session : SessionParams}
    (hannounces : Announces arrival session) (hadmits : Admits task s session.sessionId) :
    (∃ panic, (step task s arrival).halt = some (.error panic)) ↔
      ¬ limits.decoder session.spec.codec session.spec.sourceK session.spec.symbolSizeT.toNat := by
  obtain ⟨hf, ht, _⟩ := hannounces.dimensions
  have hvalid : validateSpec session.spec = .ok () := validateSpec_eq_ok.mpr ⟨hf, ht⟩
  rw [← builds.decoder_iff, ← TransferDecoderImpl.new_iff hvalid]
  rcases step_announced hannounces hadmits with ⟨panic, hnew, hstep⟩ | ⟨decoder, hnew, hstep⟩
  · refine iff_of_true ⟨panic, by rw [hstep]; rfl⟩ ?_
    rintro ⟨decoder, hbuilt⟩
    cases hnew.symm.trans hbuilt
  · refine iff_of_false ?_ (not_not_intro ⟨decoder, hnew⟩)
    rintro ⟨panic, hhalt⟩
    rw [hstep, establish_eq ht] at hhalt
    cases hhalt

end FountainTransfer
