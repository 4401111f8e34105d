import FountainTransfer.Codec
import Mathlib.Data.List.Forall2

/-!
# Block encoders and decoders over a faithful engine

What the codec layer adds to the engine: a new encoder is loaded with the symbols of the
padded object, its packets carry what the engine hands out for their coded ids
(`EmittedAs`), which is `encode c` of that block, and a decoder that took only such pairs
recovers the object.
-/

namespace FountainTransfer

open ErasureCode Layout

variable {ops : DataOperators} {Config : Type} {eng : Engine ops.Operator Config}
  {encode : Nat → Config → Nat → List Bytes → Bytes}

/-! ## Encoders -/

/-- `enc` was built for `block` and still serves it. -/
structure BlockEncoder.Serves (enc : BlockEncoder eng) (block : List Bytes) : Prop where
  scheme : ∃ scheme, eng.sysCode enc.params.k enc.params.config = .ok scheme ∧
    enc.numTotal = eng.numTotal scheme
  isBlock : IsBlock enc.params.k enc.params.symbolSizeT block
  serves : (eng.encoderSide ops enc.params.k enc.params.config enc.params.symbolSizeT).Serves
    block enc.encoder

theorem blockOf_getD {padded : Bytes} {k t i : Nat} (hi : i < k) :
    (blockOf padded k t).getD i [] = (padded.drop (i * t)).take t := by
  simp [blockOf, List.getD_eq_getElem?_getD, hi]

theorem insertSymbols_eq {padded : Bytes} {k t : Nat} (hlen : padded.length = k * t)
    (hfit : k * t ≤ usizeMax) :
    ∀ (is : List Nat) (operator : ops.Operator), (∀ i ∈ is, i < k) →
      insertSymbols ops padded t operator is =
        .ok (is.foldl (fun op i => ops.insertVector op ((blockOf padded k t).getD i []) i) operator)
  | [], _, _ => rfl
  | i :: is, operator, his => by
    have hi : i < k := his i List.mem_cons_self
    rw [insertSymbols, symbolSlice_eq hlen hfit hi, ok_bind, List.foldl_cons, blockOf_getD hi]
    exact insertSymbols_eq hlen hfit is _ fun j hj => his j (List.mem_cons_of_mem _ hj)

/-- The encoder that `new_with_operator` builds. -/
theorem BlockEncoder.newWithOperator_eq_ok {params : TransmissionParams Config}
    {object : Bytes} {operator : ops.Operator} {enc : BlockEncoder eng} (hk : 0 < params.k) :
    BlockEncoder.newWithOperator eng params object operator = .ok enc ↔
      object.length = params.transferLengthF ∧ object.length ≤ params.k * params.symbolSizeT ∧
      params.k * params.symbolSizeT ≤ isizeMax ∧
      ∃ scheme encoder, eng.sysCode params.k params.config = .ok scheme ∧
        eng.newEncoder scheme (ops.insertBlock operator
          (blockOf (zeroPadded object params.k params.symbolSizeT) params.k params.symbolSizeT))
          params.symbolSizeT = .ok encoder ∧
        enc = ⟨encoder, params, eng.numTotal scheme⟩ := by
  have hinsert : params.k * params.symbolSizeT ≤ isizeMax →
      object.length ≤ params.k * params.symbolSizeT →
      insertSymbols ops (zeroPadded object params.k params.symbolSizeT) params.symbolSizeT
        operator (List.range params.k) = .ok (ops.insertBlock operator
          (blockOf (zeroPadded object params.k params.symbolSizeT) params.k
            params.symbolSizeT)) := by
    intro hcap hlen
    have hfit := Nat.le_trans hcap isizeMax_le_usizeMax
    rw [insertSymbols_eq (zeroPadded_length hlen) hfit _ _ fun i hi => List.mem_range.mp hi]
    simp [DataOperators.insertBlock]
  simp only [BlockEncoder.newWithOperator, bind_eq_ok, assert_eq_ok, padObjectToKSymbols_eq_ok,
    engineCall_eq_ok, pure_eq_ok, Except.ok.injEq, decide_eq_true_eq]
  constructor
  · rintro ⟨_, hobject, scheme, hscheme, _, ⟨hcap, hlen, rfl⟩, op, hop, encoder, hnew, rfl⟩
    have hlen : object.length ≤ params.k * params.symbolSizeT := by omega
    rw [hinsert hcap hlen] at hop
    cases hop
    exact ⟨hobject, hlen, hcap, scheme, encoder, hscheme, hnew, rfl⟩
  · rintro ⟨hobject, hlen, hcap, scheme, encoder, hscheme, hnew, rfl⟩
    exact ⟨(), hobject, scheme, hscheme, _, ⟨hcap, .inr hlen, rfl⟩, _, hinsert hcap hlen, encoder,
      hnew, rfl⟩

theorem BlockEncoder.newWithOperator_serves {params : TransmissionParams Config}
    {object : Bytes} {operator : ops.Operator} {enc : BlockEncoder eng} (hk : 0 < params.k)
    (hfresh : ops.Fresh params.symbolSizeT operator)
    (h : BlockEncoder.newWithOperator eng params object operator = .ok enc) :
    enc.params = params ∧
      enc.Serves (blockOf (zeroPadded object params.k params.symbolSizeT) params.k
        params.symbolSizeT) := by
  obtain ⟨_, hlen, _, scheme, encoder, hscheme, hnew, rfl⟩ :=
    (BlockEncoder.newWithOperator_eq_ok hk).mp h
  have hblock := blockOf_isBlock (zeroPadded_length hlen)
  exact ⟨rfl, ⟨scheme, hscheme, rfl⟩, hblock,
    .loaded ⟨scheme, operator, hscheme, hfresh, hblock, hnew⟩⟩

/-- `packet` carries, under the ESI of `ids`, what an encoder of `block` hands out for the
coded id of `ids`. -/
structure EmittedAs (eng : Engine ops.Operator Config) (params : TransmissionParams Config)
    (block : List Bytes) (ids : RepairIds) (packet : EncodingPacket) : Prop where
  payloadId : packet.payloadId = ⟨0, UInt64.ofNat ids.esi⟩
  symbol : (eng.encoderSide ops params.k params.config params.symbolSizeT).HandsOut (· < params.k)
    block ids.codedId packet.symbol

theorem BlockEncoder.sourcePackets_emitted {enc : BlockEncoder eng} {block : List Bytes}
    (hs : enc.Serves block) : List.Forall₂ (fun i => EmittedAs eng enc.params block ⟨i, i⟩)
      (List.range enc.params.k) enc.sourcePackets := by
  rw [BlockEncoder.sourcePackets, List.forall₂_map_right_iff, List.forall₂_same]
  exact fun i hi => ⟨rfl, .source hs.serves (List.mem_range.mp hi)⟩

/-- The loop of `repair_packets` emits one packet for each index, in order, and leaves
the encoder serving the same block. -/
theorem BlockEncoder.repairLoop_emitted {ids : Nat → Call RepairIds} {block : List Bytes} :
    ∀ {is : List Nat} {enc enc' : BlockEncoder eng} {packets : List EncodingPacket},
      enc.Serves block → enc.repairLoop ids is = .ok (enc', packets) →
      enc'.params = enc.params ∧ enc'.numTotal = enc.numTotal ∧ enc'.Serves block ∧
      ∃ emitted, is.mapM ids = .ok emitted ∧
        List.Forall₂ (EmittedAs eng enc.params block) emitted packets
  | [], enc, _, _, hs, h => by
    cases h
    exact ⟨rfl, rfl, hs, [], rfl, .nil⟩
  | i :: is, enc, enc', packets, hs, h => by
    rw [BlockEncoder.repairLoop, bind_eq_ok] at h
    obtain ⟨id, hid, h⟩ := h
    split at h
    · cases h
    · next encoder hprepared =>
      rw [bind_eq_ok] at h
      obtain ⟨⟨enc₁, more⟩, hmore, h⟩ := h
      cases h
      have hs' : BlockEncoder.Serves { enc with encoder } block :=
        ⟨hs.scheme, hs.isBlock, .prepared hs.serves hprepared⟩
      obtain ⟨hparams, htotal, hserves, emitted, hemitted, hall⟩ :=
        BlockEncoder.repairLoop_emitted hs' hmore
      refine ⟨hparams, htotal, hserves, id :: emitted, ?_, ?_⟩
      · rw [List.mapM_cons, hid, ok_bind, hemitted]
        rfl
      · exact .cons ⟨rfl, .prepared hs.serves hprepared⟩ hall

theorem BlockEncoder.collectRepair_emitted {ids : Nat → Call RepairIds} {block : List Bytes}
    {enc enc' : BlockEncoder eng} {count : Nat} {packets : List EncodingPacket}
    (hs : enc.Serves block) (h : enc.collectRepair ids count = .ok (enc', packets)) :
    enc'.params = enc.params ∧ enc'.numTotal = enc.numTotal ∧ enc'.Serves block ∧
    count * packetBytes ≤ isizeMax ∧ ∃ emitted, (List.range count).mapM ids = .ok emitted ∧
      List.Forall₂ (EmittedAs eng enc.params block) emitted packets := by
  rw [BlockEncoder.collectRepair, bind_eq_ok] at h
  obtain ⟨_, hroom, hloop⟩ := h
  obtain ⟨hparams, htotal, hserves, hemitted⟩ := BlockEncoder.repairLoop_emitted hs hloop
  exact ⟨hparams, htotal, hserves, withCapacity_eq_ok.mp hroom, hemitted⟩

/-- The packet that carries the symbol of coded id `codedId` under `esi`. -/
def packetOf (symbol : Nat → Bytes) (ids : RepairIds) : EncodingPacket :=
  ⟨⟨0, UInt64.ofNat ids.esi⟩, symbol ids.codedId⟩

theorem EmittedAs.eq_packetOf (faithful : eng.Faithful ops encode)
    {params : TransmissionParams Config} {block : List Bytes} {ids : RepairIds}
    {packet : EncodingPacket} (h : EmittedAs eng params block ids packet) :
    packet = packetOf (encode params.k params.config · block) ids := by
  obtain ⟨payloadId, symbol⟩ := packet
  obtain ⟨hid, hsymbol⟩ := h
  have hid : payloadId = _ := hid
  have hsymbol : symbol = _ := faithful.encoder _ _ _ hsymbol
  rw [packetOf, hid, hsymbol]

/-- Where the ids can be computed and lie past the internal ones, the loop of
`repair_packets` returns. -/
theorem BlockEncoder.repairLoop_returns (encodes : eng.Encodes ops) {ids : Nat → Call RepairIds}
    {idsAt : Nat → RepairIds} {block : List Bytes} :
    ∀ {is : List Nat} {enc : BlockEncoder eng}, enc.Serves block →
      (∀ i ∈ is, ids i = .ok (idsAt i) ∧ enc.numTotal ≤ (idsAt i).codedId) →
      ∃ enc' packets, enc.repairLoop ids is = .ok (enc', packets)
  | [], enc, _, _ => ⟨enc, [], rfl⟩
  | i :: is, enc, hs, hids => by
    obtain ⟨hi, hpast⟩ := hids i List.mem_cons_self
    obtain ⟨scheme, hscheme, htotal⟩ := hs.scheme
    obtain ⟨encoder, hprepared⟩ := encodes hscheme hs.serves (htotal ▸ hpast)
    have hs' : BlockEncoder.Serves { enc with encoder } block :=
      ⟨hs.scheme, hs.isBlock, .prepared hs.serves hprepared⟩
    obtain ⟨enc', packets, hloop⟩ := BlockEncoder.repairLoop_returns encodes hs'
      fun j hj => hids j (List.mem_cons_of_mem _ hj)
    refine ⟨enc', ⟨⟨0, UInt64.ofNat (idsAt i).esi⟩,
      eng.getCodedVector encoder (idsAt i).codedId⟩ :: packets, ?_⟩
    simp only [BlockEncoder.repairLoop, hi, ok_bind, hprepared, hloop, pure_eq_ok]

theorem BlockEncoder.collectRepair_returns (encodes : eng.Encodes ops) {ids : Nat → Call RepairIds}
    {idsAt : Nat → RepairIds} {block : List Bytes} {enc : BlockEncoder eng} {count : Nat}
    (hs : enc.Serves block) (hroom : count * packetBytes ≤ isizeMax)
    (hids : ∀ i ∈ List.range count, ids i = .ok (idsAt i) ∧ enc.numTotal ≤ (idsAt i).codedId) :
    ∃ enc' packets, enc.collectRepair ids count = .ok (enc', packets) := by
  obtain ⟨enc', packets, hloop⟩ := BlockEncoder.repairLoop_returns encodes hs hids
  exact ⟨enc', packets, bind_eq_ok.mpr ⟨(), withCapacity_eq_ok.mpr hroom, hloop⟩⟩

/-! ## Decoders -/

/-- `dec` was built for its parameters, took `fed` and answered with `reports`. -/
def BlockDecoder.Took (dec : BlockDecoder eng) (fed : List (Nat × Bytes))
    (reports : List DecodeStatus) : Prop :=
  (eng.decoderSide ops dec.params.k dec.params.config dec.params.symbolSizeT).Fed fed reports
    dec.decoder

theorem BlockDecoder.addCodedVector_eq_ok {dec dec' : BlockDecoder eng} {c : Nat} {v : Bytes}
    {status : DecodeStatus} :
    dec.addCodedVector c v = .ok (dec', status) ↔
      ∃ decoder, eng.addCodedVector dec.decoder c v = .ok (decoder, status) ∧
        dec' = { dec with decoder } := by
  simp only [BlockDecoder.addCodedVector, bind_eq_ok, engineCall_eq_ok, pure_eq_ok, Except.ok.injEq,
    Prod.mk.injEq]
  constructor
  · rintro ⟨⟨decoder, status⟩, hadd, rfl, rfl⟩
    exact ⟨decoder, hadd, rfl⟩
  · rintro ⟨decoder, hadd, rfl⟩
    exact ⟨(decoder, status), hadd, rfl, rfl⟩

theorem BlockDecoder.Took.add {dec dec' : BlockDecoder eng} {fed : List (Nat × Bytes)}
    {reports : List DecodeStatus} {c : Nat} {v : Bytes} {status : DecodeStatus}
    (h : dec.Took fed reports) (hadd : dec.addCodedVector c v = .ok (dec', status)) :
    dec'.Took (fed ++ [(c, v)]) (reports ++ [status]) ∧ dec'.params = dec.params := by
  obtain ⟨decoder, hengine, rfl⟩ := BlockDecoder.addCodedVector_eq_ok.mp hadd
  exact ⟨Decoder.Fed.add h hengine, rfl⟩

/-- A decoder that took only pairs of `block` puts exactly `block` together. -/
theorem BlockDecoder.recoverObject_eq (faithful : eng.Faithful ops encode)
    {dec : BlockDecoder eng} {fed : List (Nat × Bytes)} {reports : List DecodeStatus}
    {block : List Bytes} (h : dec.Took fed reports)
    (hblock : IsBlock dec.params.k dec.params.symbolSizeT block)
    (hfed : Agrees (encode dec.params.k dec.params.config) block fed)
    (hstatus : dec.decodeStatus = .decoded) :
    dec.recoverObject =
      assemblePayloadFromSymbols block dec.params.transferLengthF dec.params.symbolSizeT := by
  have hsymbols : (List.range dec.params.k).map (eng.getDataVector dec.decoder) = block :=
    faithful.decoder _ _ _ h hblock hfed hstatus
  simp [BlockDecoder.recoverObject, hstatus, hsymbols]

section Progress

variable {dec : BlockDecoder eng} {fed : List (Nat × Bytes)} {reports : List DecodeStatus}
  {block : List Bytes} {scheme : eng.Scheme}

/-- A decoder that took pairs of `block` takes one more, and reports no more than it can
give. -/
theorem BlockDecoder.Took.takes {Again : Prop} (prompt : eng.Prompt ops encode Again)
    (h : dec.Took fed reports)
    (hk : 0 < dec.params.k) (hscheme : eng.sysCode dec.params.k dec.params.config = .ok scheme)
    (hblock : IsBlock dec.params.k dec.params.symbolSizeT block)
    (hfed : Agrees (encode dec.params.k dec.params.config) block fed)
    (hids : ∀ x ∈ fed, Engine.Emittable dec.params.k (eng.numTotal scheme) x.1) {c : Nat}
    (hc : Engine.Emittable dec.params.k (eng.numTotal scheme) c)
    (hagain : Again ∨ ∀ x ∈ fed, x.1 ≠ c) :
    ∃ dec' status,
      dec.addCodedVector c (encode dec.params.k dec.params.config c block) = .ok (dec', status) ∧
        (status = .decoded → dec'.decodeStatus = .decoded) := by
  have hprompt := prompt.progress dec.params.symbolSizeT hk hscheme
  obtain ⟨decoder, status, hadd⟩ := hprompt.takes h hblock hfed hids hc hagain
  refine ⟨{ dec with decoder }, status, ?_, ?_⟩
  · exact BlockDecoder.addCodedVector_eq_ok.mpr ⟨decoder, hadd, rfl⟩
  · rintro rfl
    exact hprompt.reports_complete h hadd

/-- It has reported `Decoded` by the time it took every source id. -/
theorem BlockDecoder.Took.decoded_of_sources {Again : Prop} (prompt : eng.Prompt ops encode Again)
    (h : dec.Took fed reports) (hk : 0 < dec.params.k)
    (hscheme : eng.sysCode dec.params.k dec.params.config = .ok scheme)
    (hblock : IsBlock dec.params.k dec.params.symbolSizeT block)
    (hfed : Agrees (encode dec.params.k dec.params.config) block fed)
    (hall : ∀ c < dec.params.k, ∃ v, (c, v) ∈ fed) : .decoded ∈ reports := by
  obtain ⟨v, hv⟩ := hall 0 hk
  have hprompt := prompt.progress dec.params.symbolSizeT hk hscheme
  exact hprompt.done_of_sources h hblock hfed (List.ne_nil_of_mem hv)
    fun c hc => hall c (List.mem_range.mp hc)

end Progress

end FountainTransfer
