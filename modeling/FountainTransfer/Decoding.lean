import FountainTransfer.Facade

/-!
# Facade decoders over faithful engines

`add_packet` computes a coded id and hands it to the engine with the symbol
(`addPacket_eq`). `TransferDecoderImpl.Took` follows what a decoder was handed since it
was constructed, by either constructor and for either codec. A decoder that was handed
only symbols of one object recovers this object (`Took.recoverObject_eq`).
-/

namespace FountainTransfer

open ErasureCode Layout

/-- `encode codec k c block` is the symbol of coded id `c`, for each codec
configuration. -/
abbrev EncodingMap := CodecConfig → Nat → Nat → List Bytes → Bytes

structure Engines.Faithful (eng : Engines) (encode : EncodingMap) : Prop where
  raptorQ : eng.raptorQ.Faithful eng.ops fun k config => encode (.raptorQ config.1 config.2) k
  raptor10 : eng.raptor10.Faithful eng.ops fun k dmax => encode (.raptor10 dmax) k

/-- Decoders that recover, and take a packet again only where `Again`. -/
structure Engines.PromptWhere (eng : Engines) (Again : Prop) (encode : EncodingMap) : Prop where
  raptorQ : eng.raptorQ.Prompt eng.ops (fun k config => encode (.raptorQ config.1 config.2) k) Again
  raptor10 : eng.raptor10.Prompt eng.ops (fun k dmax => encode (.raptor10 dmax) k) Again

/-- Decoders that recover from packets in any order, with repetitions. -/
def Engines.Prompt (eng : Engines) (encode : EncodingMap) : Prop := eng.PromptWhere True encode

/-- Decoders that recover from packets in any order. -/
def Engines.PromptOnce (eng : Engines) (encode : EncodingMap) : Prop := eng.PromptWhere False encode

/-- The engine answers `add_coded_vector` with its decode status, until it is done. -/
structure Engines.ReportsStatus (eng : Engines) : Prop where
  raptorQ : eng.raptorQ.ReportsStatus eng.ops
  raptor10 : eng.raptor10.ReportsStatus eng.ops

/-- `num_total` of the scheme a spec's encoder and decoder are built with. -/
def Engines.numTotal (eng : Engines) (spec : TransferSpec) : Except String Nat :=
  match spec.codec with
  | .raptorQ dmax ldpcType =>
    (eng.raptorQ.sysCode spec.sourceK (dmax, ldpcType)).map eng.raptorQ.numTotal
  | .raptor10 dmax => (eng.raptor10.sysCode spec.sourceK dmax).map eng.raptor10.numTotal

/-- The source block of an object under a spec. -/
def TransferSpec.block (spec : TransferSpec) (object : Bytes) : List Bytes :=
  blockOf (zeroPadded object spec.sourceK spec.symbolSizeT.toNat) spec.sourceK
    spec.symbolSizeT.toNat

/-- `spec` is valid and `object` is as long as it says and can be padded. -/
structure TransferSpec.Carries (spec : TransferSpec) (object : Bytes) : Prop where
  length_pos : 0 < spec.transferLengthF.toNat
  symbol_pos : 0 < spec.symbolSizeT.toNat
  length : object.length = spec.transferLengthF.toNat
  padded : spec.sourceK * spec.symbolSizeT.toNat ≤ isizeMax

section Carries

variable {spec : TransferSpec} {object : Bytes}

theorem sourceK_pos (hf : 0 < spec.transferLengthF.toNat) (ht : 0 < spec.symbolSizeT.toNat) :
    0 < spec.sourceK :=
  divCeil_pos hf ht

theorem TransferSpec.Carries.sourceK_pos (h : spec.Carries object) : 0 < spec.sourceK :=
  FountainTransfer.sourceK_pos h.length_pos h.symbol_pos

theorem TransferSpec.Carries.length_le (h : spec.Carries object) :
    object.length ≤ spec.sourceK * spec.symbolSizeT.toNat := by
  rw [h.length]
  exact le_divCeil_mul h.symbol_pos

theorem TransferSpec.Carries.isBlock (h : spec.Carries object) :
    IsBlock spec.sourceK spec.symbolSizeT.toNat (spec.block object) :=
  blockOf_isBlock (zeroPadded_length h.length_le)

theorem TransferSpec.Carries.assemble (h : spec.Carries object) :
    assemblePayloadFromSymbols (spec.block object) spec.transferLengthF.toNat
      spec.symbolSizeT.toNat = .ok object := by
  rw [← h.length]
  exact assemble_blockOf h.sourceK_pos h.length_le h.padded

end Carries

namespace TransferDecoderImpl

variable {eng : Engines}

/-! ## What `add_packet` hands to the engine -/

/-- The coded id that `add_packet` computes for an ESI. -/
def codedId : TransferDecoderImpl eng → Nat → Call Nat
  | .raptorQ dec _, esi => payloadEsiToCodedId esi dec.params.k dec.numTotal
  | .raptor10 _ _, esi => .ok esi

/-- `add_coded_vector` of the decoder behind the facade. -/
def feed : TransferDecoderImpl eng → Nat → Bytes → Call (TransferDecoderImpl eng × DecodeStatus)
  | .raptorQ dec spec, c, symbol => do
    let added ← dec.toBlockDecoder.addCodedVector c symbol
    return (.raptorQ { dec with toBlockDecoder := added.1 } spec, added.2)
  | .raptor10 dec spec, c, symbol => do
    let added ← dec.addCodedVector c symbol
    return (.raptor10 added.1 spec, added.2)

/-- The facade accepts a packet of block 0 whose symbol has the right length. -/
def WellFormed (dec : TransferDecoderImpl eng) (packet : TransferPacket) : Prop :=
  packet.sbn = 0 ∧ packet.symbol.length = dec.spec.symbolSizeT.toNat

/-- The codec layer asserts what the facade checked already, so a well-formed packet
goes straight to the engine. -/
theorem addPacket_eq {dec : TransferDecoderImpl eng} {packet : TransferPacket}
    (h : dec.WellFormed packet) :
    dec.addPacket packet = do
      let c ← dec.codedId packet.esi.toNat
      let added ← dec.feed c packet.symbol
      return .ok added := by
  obtain ⟨hsbn, hlength⟩ := h
  cases dec with
  | raptorQ dec spec =>
    have hlength : packet.symbol.length = spec.symbolSizeT.toNat := hlength
    simp [addPacket, hsbn, hlength, TransferDecoderImpl.spec, Rfc6330Decoder.addPacket, codedId,
      feed, TransferPacket.toEncodingPacket]
  | raptor10 dec spec =>
    have hlength : packet.symbol.length = spec.symbolSizeT.toNat := hlength
    simp [addPacket, hsbn, hlength, TransferDecoderImpl.spec, Rfc5053Decoder.addPacket, codedId,
      feed, TransferPacket.toEncodingPacket]

/-- A packet that is not well-formed is rejected with an error. -/
theorem addPacket_rejects {dec : TransferDecoderImpl eng} {packet : TransferPacket}
    (h : ¬ dec.WellFormed packet) : ∃ e, dec.addPacket packet = .ok (.error e) := by
  unfold addPacket
  by_cases hsbn : packet.sbn = 0
  · have hlength : packet.symbol.length ≠ dec.spec.symbolSizeT.toNat := fun hl => h ⟨hsbn, hl⟩
    exact ⟨_, by rw [if_neg (not_not_intro hsbn), if_pos hlength]⟩
  · exact ⟨_, by rw [if_pos hsbn]⟩

theorem addPacket_eq_ok {dec dec' : TransferDecoderImpl eng} {packet : TransferPacket}
    {status : DecodeStatus} :
    dec.addPacket packet = .ok (.ok (dec', status)) ↔
      dec.WellFormed packet ∧ ∃ c, dec.codedId packet.esi.toNat = .ok c ∧
        dec.feed c packet.symbol = .ok (dec', status) := by
  by_cases h : dec.WellFormed packet
  · rw [addPacket_eq h]
    simp only [bind_eq_ok, pure_eq_ok, Except.ok.injEq, h, true_and]
    constructor
    · rintro ⟨c, hc, added, hadded, rfl⟩
      exact ⟨c, hc, hadded⟩
    · rintro ⟨c, hc, hadded⟩
      exact ⟨c, hc, _, hadded, rfl⟩
  · obtain ⟨e, he⟩ := addPacket_rejects h
    simp [he, h]

/-! ## The history of a decoder -/

/-- `dec` is as a constructor built it, up to the engine's own state: its parameters are
those of its spec. -/
def Built : TransferDecoderImpl eng → Prop
  | .raptorQ dec spec =>
    ∃ dmax ldpcType, spec.codec = .raptorQ dmax ldpcType ∧
      dec.params = ⟨spec.transferLengthF.toNat, spec.symbolSizeT.toNat, spec.sourceK,
        (dmax, ldpcType)⟩ ∧
      eng.numTotal spec = .ok dec.numTotal
  | .raptor10 dec spec =>
    ∃ dmax, spec.codec = .raptor10 dmax ∧
      dec.params = ⟨spec.transferLengthF.toNat, spec.symbolSizeT.toNat, spec.sourceK, dmax⟩ ∧
      ∃ numTotal, eng.numTotal spec = .ok numTotal

/-- `dec` was constructed, handed the pairs `fed` in this order, and answered with
`reports`. -/
def Took (dec : TransferDecoderImpl eng) (fed : List (Nat × Bytes))
    (reports : List DecodeStatus) : Prop :=
  0 < dec.spec.transferLengthF.toNat ∧ 0 < dec.spec.symbolSizeT.toNat ∧ dec.Built ∧
    match dec with
    | .raptorQ dec _ => dec.toBlockDecoder.Took fed reports
    | .raptor10 dec _ => dec.Took fed reports

theorem withOperator_took {spec : TransferSpec} {operator : eng.ops.Operator}
    {dec : TransferDecoderImpl eng} (hf : 0 < spec.transferLengthF.toNat)
    (ht : 0 < spec.symbolSizeT.toNat) (hfresh : eng.ops.Fresh spec.symbolSizeT.toNat operator)
    (h : withOperator eng spec operator = .ok dec) : dec.spec = spec ∧ dec.Took [] [] := by
  unfold withOperator at h
  split at h
  · next dmax ldpcType hcodec =>
    rw [Rfc6330TransmissionParams.forObject_eq hf ht, ok_bind, bind_eq_ok] at h
    obtain ⟨decoder, hdecoder, hdec⟩ := h
    cases hdec
    simp only [Rfc6330Decoder.newWithOperator, bind_eq_ok, engineCall_eq_ok, pure_eq_ok] at hdecoder
    obtain ⟨scheme, hscheme, decoder, hnew, hdecoder⟩ := hdecoder
    cases hdecoder
    refine ⟨rfl, hf, ht, ⟨dmax, ldpcType, hcodec, rfl, ?_⟩,
      .start ⟨scheme, operator, hscheme, hfresh, hnew⟩⟩
    have hscheme : eng.raptorQ.sysCode spec.sourceK (dmax, ldpcType) = .ok scheme := hscheme
    simp [Engines.numTotal, hcodec, hscheme, Except.map]
  · next dmax hcodec =>
    rw [Rfc5053TransmissionParams.forObject_eq hf ht, ok_bind, bind_eq_ok] at h
    obtain ⟨decoder, hdecoder, hdec⟩ := h
    cases hdec
    simp only [Rfc5053Decoder.newWithOperator, bind_eq_ok, engineCall_eq_ok, pure_eq_ok] at hdecoder
    obtain ⟨scheme, hscheme, decoder, hnew, hdecoder⟩ := hdecoder
    cases hdecoder
    refine ⟨rfl, hf, ht, ⟨dmax, hcodec, rfl, eng.raptor10.numTotal scheme, ?_⟩,
      .start ⟨scheme, operator, hscheme, hfresh, hnew⟩⟩
    have hscheme : eng.raptor10.sysCode spec.sourceK dmax = .ok scheme := hscheme
    simp [Engines.numTotal, hcodec, hscheme, Except.map]

/-- Both constructors, with a manager or without. -/
inductive Constructed (eng : Engines) (spec : TransferSpec) (dec : TransferDecoderImpl eng) : Prop
  | new : TransferDecoderImpl.new eng spec = .ok (.ok dec) → Constructed eng spec dec
  | newWithStorageManager {manager : StorageManager eng} :
      TransferDecoderImpl.newWithStorageManager eng spec manager = .ok (.ok dec) →
      Constructed eng spec dec

theorem new_eq_ok {spec : TransferSpec} {dec : TransferDecoderImpl eng} :
    new eng spec = .ok (.ok dec) ↔
      0 < spec.transferLengthF.toNat ∧ 0 < spec.symbolSizeT.toNat ∧
        withOperator eng spec (eng.ops.vecDataOperater spec.symbolSizeT.toNat) = .ok dec := by
  unfold new
  split
  · next e he =>
    have hbad : ¬ (0 < spec.transferLengthF.toNat ∧ 0 < spec.symbolSizeT.toNat) := fun h => by
      have hok : validateSpec spec = .ok () := validateSpec_eq_ok.mpr h
      rw [he] at hok
      cases hok
    simp only [Except.ok.injEq, reduceCtorEq, false_iff]
    exact fun h => hbad ⟨h.1, h.2.1⟩
  · next he =>
    obtain ⟨hf, ht⟩ := validateSpec_eq_ok.mp he
    simp [bind_eq_ok, hf, ht]

/-- A valid spec is not refused. -/
theorem new_ne_error {spec : TransferSpec} (hf : 0 < spec.transferLengthF.toNat)
    (ht : 0 < spec.symbolSizeT.toNat) (e : TransferError) : new eng spec ≠ .ok (.error e) := by
  have hvalid : validateSpec spec = .ok () := validateSpec_eq_ok.mpr ⟨hf, ht⟩
  simp [new, hvalid, bind_eq_ok]

theorem Constructed.took {spec : TransferSpec} {dec : TransferDecoderImpl eng}
    (h : Constructed eng spec dec) : dec.spec = spec ∧ dec.Took [] [] := by
  cases h with
  | new h =>
    obtain ⟨hf, ht, h⟩ := new_eq_ok.mp h
    exact withOperator_took hf ht (eng.ops.fresh_vec _) h
  | @newWithStorageManager manager h =>
    unfold TransferDecoderImpl.newWithStorageManager at h
    split at h
    · cases h
    · next hvalid =>
      obtain ⟨hf, ht⟩ := validateSpec_eq_ok.mp hvalid
      split at h
      · cases h
      · next hsize =>
        have hsize : manager.symbolSize = spec.symbolSizeT := Decidable.not_not.mp hsize
        simp only [bind_eq_ok, pure_eq_ok, Except.ok.injEq] at h
        obtain ⟨decoder, h, rfl⟩ := h
        exact withOperator_took hf ht (hsize ▸ manager.fresh) h

theorem Constructed.built {spec : TransferSpec} {dec : TransferDecoderImpl eng}
    (h : Constructed eng spec dec) : dec.Built :=
  h.took.2.2.2.1

theorem Took.feed {dec dec' : TransferDecoderImpl eng} {fed : List (Nat × Bytes)}
    {reports : List DecodeStatus} {c : Nat} {symbol : Bytes} {status : DecodeStatus}
    (h : dec.Took fed reports) (hfeed : dec.feed c symbol = .ok (dec', status)) :
    dec'.spec = dec.spec ∧ dec'.Took (fed ++ [(c, symbol)]) (reports ++ [status]) := by
  obtain ⟨hf, ht, hbuilt, htook⟩ := h
  cases dec with
  | raptorQ dec spec =>
    simp only [TransferDecoderImpl.feed, bind_eq_ok, pure_eq_ok, Except.ok.injEq,
      Prod.mk.injEq] at hfeed
    obtain ⟨⟨decoder, status⟩, hadd, rfl, rfl⟩ := hfeed
    obtain ⟨hnext, hparams⟩ := BlockDecoder.Took.add htook hadd
    obtain ⟨dmax, ldpcType, hcodec, hdec, htotal⟩ := hbuilt
    exact ⟨rfl, hf, ht, ⟨dmax, ldpcType, hcodec, hparams.trans hdec, htotal⟩, hnext⟩
  | raptor10 dec spec =>
    simp only [TransferDecoderImpl.feed, bind_eq_ok, pure_eq_ok, Except.ok.injEq,
      Prod.mk.injEq] at hfeed
    obtain ⟨⟨decoder, status⟩, hadd, rfl, rfl⟩ := hfeed
    obtain ⟨hnext, hparams⟩ := BlockDecoder.Took.add htook hadd
    obtain ⟨dmax, hcodec, hdec, htotal⟩ := hbuilt
    exact ⟨rfl, hf, ht, ⟨dmax, hcodec, hparams.trans hdec, htotal⟩, hnext⟩

theorem Took.addPacket {dec dec' : TransferDecoderImpl eng} {fed : List (Nat × Bytes)}
    {reports : List DecodeStatus} {packet : TransferPacket} {status : DecodeStatus}
    (h : dec.Took fed reports) (hadd : dec.addPacket packet = .ok (.ok (dec', status))) :
    ∃ c, dec.codedId packet.esi.toNat = .ok c ∧ dec'.spec = dec.spec ∧
      dec'.Took (fed ++ [(c, packet.symbol)]) (reports ++ [status]) := by
  obtain ⟨_, c, hc, hfeed⟩ := addPacket_eq_ok.mp hadd
  exact ⟨c, hc, h.feed hfeed⟩

/-! ## Recovery -/

/-- What `recover_object` returns once the symbols of one object were handed over and
the engine is done. -/
theorem Took.recoverObject_eq {encode : EncodingMap} (faithful : eng.Faithful encode)
    {dec : TransferDecoderImpl eng} {fed : List (Nat × Bytes)} {reports : List DecodeStatus}
    {object : Bytes} (h : dec.Took fed reports) (hobject : dec.spec.Carries object)
    (hfed : Agrees (encode dec.spec.codec dec.spec.sourceK) (dec.spec.block object) fed)
    (hstatus : dec.decodeStatus = .decoded) : dec.recoverObject = .ok (.ok object) := by
  obtain ⟨_, _, hbuilt, htook⟩ := h
  have hassemble := hobject.assemble
  have hblock := hobject.isBlock
  cases dec with
  | raptorQ dec spec =>
    obtain ⟨dmax, ldpcType, hcodec, hparams, _⟩ := hbuilt
    simp only [TransferDecoderImpl.spec, hcodec] at hfed hblock hassemble
    rw [← show dec.params.k = spec.sourceK by rw [hparams],
      ← show dec.params.symbolSizeT = spec.symbolSizeT.toNat by rw [hparams]] at hblock
    rw [← show dec.params.k = spec.sourceK by rw [hparams],
      show CodecConfig.raptorQ dmax ldpcType = .raptorQ dec.params.config.1 dec.params.config.2 by
        rw [hparams]] at hfed
    have hrecover := BlockDecoder.recoverObject_eq faithful.raptorQ htook hblock hfed hstatus
    simp only [hparams, hassemble] at hrecover
    simp [recoverObject, hstatus, hrecover]
  | raptor10 dec spec =>
    obtain ⟨dmax, hcodec, hparams, _⟩ := hbuilt
    simp only [TransferDecoderImpl.spec, hcodec] at hfed hblock hassemble
    rw [← show dec.params.k = spec.sourceK by rw [hparams],
      ← show dec.params.symbolSizeT = spec.symbolSizeT.toNat by rw [hparams]] at hblock
    rw [← show dec.params.k = spec.sourceK by rw [hparams],
      show CodecConfig.raptor10 dmax = .raptor10 dec.params.config by rw [hparams]] at hfed
    have hrecover := BlockDecoder.recoverObject_eq faithful.raptor10 htook hblock hfed hstatus
    simp only [hparams, hassemble] at hrecover
    simp [recoverObject, hstatus, hrecover]

/-- `recover_object` only succeeds on a decoder that is done. -/
theorem status_of_recoverObject {dec : TransferDecoderImpl eng} {object : Bytes}
    (h : dec.recoverObject = .ok (.ok object)) : dec.decodeStatus = .decoded := by
  unfold recoverObject at h
  split at h
  · cases h
  · next hstatus => exact Decidable.not_not.mp hstatus

theorem Took.reportsStatus (status : eng.ReportsStatus) {dec dec' : TransferDecoderImpl eng}
    {fed : List (Nat × Bytes)} {reports : List DecodeStatus} {packet : TransferPacket}
    {report : DecodeStatus} (h : dec.Took fed reports) (hundecided : .decoded ∉ reports)
    (hadd : dec.addPacket packet = .ok (.ok (dec', report))) : dec'.decodeStatus = report := by
  obtain ⟨_, c, _, hfeed⟩ := addPacket_eq_ok.mp hadd
  obtain ⟨_, _, _, htook⟩ := h
  cases dec with
  | raptorQ dec spec =>
    simp only [TransferDecoderImpl.feed, bind_eq_ok, BlockDecoder.addCodedVector, engineCall_eq_ok,
      pure_eq_ok, Except.ok.injEq, Prod.mk.injEq] at hfeed
    obtain ⟨_, ⟨_, hengine, rfl⟩, rfl, rfl⟩ := hfeed
    exact status.raptorQ htook hundecided hengine
  | raptor10 dec spec =>
    simp only [TransferDecoderImpl.feed, bind_eq_ok, BlockDecoder.addCodedVector, engineCall_eq_ok,
      pure_eq_ok, Except.ok.injEq, Prod.mk.injEq] at hfeed
    obtain ⟨_, ⟨_, hengine, rfl⟩, rfl, rfl⟩ := hfeed
    exact status.raptor10 htook hundecided hengine

end TransferDecoderImpl

end FountainTransfer
