import FountainTransfer.Protocol

/-!
# Session metadata

The receiver builds its spec from `transfer_length_f`, `symbol_size_t` and one codec byte.
`metadata_agreement` says what of a sender's spec this preserves: the lengths and the
codec kind, but of the codec configuration only the default (`custom_dmax_lost`).
-/

namespace FountainTransfer

/-- The spec the receiver reconstructs from the sender's metadata message. -/
def reconstructedSpec (sessionId : UInt64) (spec : TransferSpec) :
    Result ProtocolError TransferSpec := do
  let bytes ← encodeMessage (sessionMetaFromSpec sessionId spec)
  let message ← decodeMessage bytes
  specFromSessionMeta message

theorem sessionMeta_fits (sessionId : UInt64) (spec : TransferSpec) :
    wireCode.Fits (sessionMetaFromSpec sessionId spec) :=
  wireCode_fits _ fun _ _ _ _ _ h => nomatch h

theorem specFromSessionMeta_of_spec {spec : TransferSpec} (sessionId : UInt64)
    (hf : 0 < spec.transferLengthF.toNat) (ht : 0 < spec.symbolSizeT.toNat)
    (hsize : spec.symbolSizeT.toNat < 2 ^ 16) :
    specFromSessionMeta (sessionMetaFromSpec sessionId spec) =
      .ok { spec with codec := spec.codecKind.defaultConfig } := by
  have hcast := symbolSize_through_wire hsize
  have ht16 : 0 < spec.symbolSizeT.toUInt16.toNat := by
    rw [← UInt16.toNat_toUInt64, hcast]
    exact ht
  refine specFromSessionMeta_eq_ok.mpr ⟨sessionId, _, _, _, spec.codecKind, rfl, ?_, hf, ht16, ?_⟩
  · cases spec.codecKind <;> rfl
  · rw [hcast]

theorem reconstructedSpec_eq {spec : TransferSpec} (sessionId : UInt64)
    (hf : 0 < spec.transferLengthF.toNat) (ht : 0 < spec.symbolSizeT.toNat)
    (hsize : spec.symbolSizeT.toNat < 2 ^ 16) :
    reconstructedSpec sessionId spec =
      .ok { spec with codec := spec.codecKind.defaultConfig } := by
  have hdecode := decodeMessage_encode (sessionMeta_fits sessionId spec) []
  rw [List.append_nil] at hdecode
  simp only [reconstructedSpec, encodeMessage, ok_bind, hdecode]
  exact specFromSessionMeta_of_spec sessionId hf ht hsize

/-- The lengths and the codec kind cross the wire. The configuration does not: the
receiver takes the default of the kind, so the specs agree entirely exactly when the
sender's configuration is that default, as `TransferSpec::new` makes it. -/
theorem metadata_agreement {spec : TransferSpec} (sessionId : UInt64)
    (hvalid : validateSpec spec = .ok ()) (hsize : spec.symbolSizeT.toNat ≤ 65535) :
    ∃ received, reconstructedSpec sessionId spec = .ok received ∧
      received.transferLengthF = spec.transferLengthF ∧
      received.symbolSizeT = spec.symbolSizeT ∧
      received.codecKind = spec.codecKind ∧
      received.codec = spec.codecKind.defaultConfig ∧
      (received = spec ↔ spec.codec = spec.codecKind.defaultConfig) ∧
      (∀ kind, TransferSpec.new spec.transferLengthF spec.symbolSizeT kind = .ok spec →
        received = spec) := by
  obtain ⟨hf, ht⟩ := validateSpec_eq_ok.mp hvalid
  have hsame : ({ spec with codec := spec.codecKind.defaultConfig } : TransferSpec) = spec ↔
      spec.codec = spec.codecKind.defaultConfig := by
    constructor
    · exact fun h => (congrArg TransferSpec.codec h).symm
    · exact fun h => by rw [← h]
  refine ⟨_, reconstructedSpec_eq sessionId hf ht (Nat.lt_succ_of_le hsize), rfl, rfl,
    defaultConfig_kind _, rfl, hsame, fun kind hnew => hsame.mpr ?_⟩
  obtain ⟨_, _, hspec⟩ := TransferSpec.new_eq_ok.mp hnew
  rw [hspec, TransferSpec.codecKind, defaultConfig_kind]

theorem metadata_agreement_default :
    ∃ received, reconstructedSpec 99 ⟨199, 10, .raptorQ 30 .reversedLDPC⟩ = .ok received ∧
      received.transferLengthF = 199 ∧ received.symbolSizeT = 10 ∧
      received.codecKind = .raptorQ ∧
      received.codec = CodecKind.raptorQ.defaultConfig ∧
      (received = ⟨199, 10, .raptorQ 30 .reversedLDPC⟩ ↔
        CodecConfig.raptorQ 30 .reversedLDPC = CodecKind.raptorQ.defaultConfig) ∧
      (∀ kind, TransferSpec.new 199 10 kind = .ok ⟨199, 10, .raptorQ 30 .reversedLDPC⟩ →
        received = ⟨199, 10, .raptorQ 30 .reversedLDPC⟩) :=
  metadata_agreement 99 rfl (by decide)

/-- A sender with `dmax = 31` is decoded with `dmax = 30`. -/
theorem custom_dmax_lost :
    validateSpec ⟨199, 10, .raptorQ 31 .reversedLDPC⟩ = .ok () ∧
    reconstructedSpec 99 ⟨199, 10, .raptorQ 31 .reversedLDPC⟩ =
      .ok ⟨199, 10, .raptorQ 30 .reversedLDPC⟩ ∧
    reconstructedSpec 99 ⟨199, 10, .raptorQ 31 .reversedLDPC⟩ ≠
      .ok ⟨199, 10, .raptorQ 31 .reversedLDPC⟩ := by
  have hreconstructed : reconstructedSpec 99 ⟨199, 10, .raptorQ 31 .reversedLDPC⟩ =
      .ok ⟨199, 10, .raptorQ 30 .reversedLDPC⟩ :=
    reconstructedSpec_eq 99 (by decide) (by decide) (by decide)
  refine ⟨rfl, hreconstructed, ?_⟩
  rw [hreconstructed]
  exact fun h => absurd (Except.ok.inj h) (by decide)

end FountainTransfer
