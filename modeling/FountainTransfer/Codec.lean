import FountainTransfer.Layout

/-!
# The RFC 6330 and RFC 5053 codecs

`rfc6330_mapping`, `rfc6330_codec` and `rfc5053_codec`. The two codecs share the block
encoder and decoder below and differ in how they number repair symbols:

* RFC 6330 sends repair symbol `r` under ESI `K + r` and maps it back to coded id
  `num_total + r`;
* RFC 5053 puts the coded id `num_total + r` itself on the wire, and hands the ESI of a
  packet to the engine as it is.
-/

namespace FountainTransfer

open Layout

/-! ## Payload ids -/

structure PayloadId where
  sbn : UInt32
  esi : Usize
deriving DecidableEq, Repr

structure EncodingPacket where
  payloadId : PayloadId
  symbol : Bytes
deriving DecidableEq, Repr

/-- The two ids of one repair symbol. -/
structure RepairIds where
  codedId : Nat
  esi : Nat
deriving DecidableEq, Repr

def repairIndexFromPayloadEsi (esi sourceK : Nat) : Call Nat := do
  assert (esi ≥ sourceK) "esi is not a repair ESI"
  return esi - sourceK

def payloadEsiToCodedId (esi sourceK numTotal : Nat) : Call Nat :=
  if esi < sourceK then .ok esi
  else do
    let repairIndex ← repairIndexFromPayloadEsi esi sourceK
    addUsize numTotal repairIndex

def repairPayloadEsi (sourceK repairIndex : Nat) : Call Nat :=
  addUsize sourceK repairIndex

/-- `esi - K` of a repair ESI never fails, so the only failure is the addition. -/
theorem payloadEsiToCodedId_eq_ok {esi k numTotal c : Nat} :
    payloadEsiToCodedId esi k numTotal = .ok c ↔
      (esi < k ∧ c = esi) ∨ (k ≤ esi ∧ numTotal + (esi - k) ≤ usizeMax ∧ c = numTotal + (esi - k)) := by
  unfold payloadEsiToCodedId
  split
  · next h => simp [h, Nat.not_le.mpr h, eq_comm]
  · next h =>
    have hk : k ≤ esi := Nat.not_lt.mp h
    simp [repairIndexFromPayloadEsi, h, hk]

/-! ## Transmission parameters -/

/-- `Rfc6330TransmissionParams` and `Rfc5053TransmissionParams`; `config` is what the
scheme constructor takes besides `K`. -/
structure TransmissionParams (Config : Type) where
  transferLengthF : Nat
  symbolSizeT : Nat
  k : Nat
  config : Config

abbrev Rfc6330TransmissionParams := TransmissionParams (Usize × LDPCType)

abbrev Rfc5053TransmissionParams := TransmissionParams Usize

def Rfc6330TransmissionParams.forObject (objectLenF symbolSizeT : Nat) (dmax : Usize)
    (ldpcType : LDPCType) : Call Rfc6330TransmissionParams := do
  let k ← calcK objectLenF symbolSizeT
  assert (0 < k) "object_len_f must be > 0 for now"
  assert (0 < symbolSizeT) "symbol_size_t must be > 0"
  return ⟨objectLenF, symbolSizeT, k, (dmax, ldpcType)⟩

def Rfc5053TransmissionParams.forObject (objectLenF symbolSizeT : Nat) (dmax : Usize) :
    Call Rfc5053TransmissionParams := do
  assert (0 < symbolSizeT) "symbol_size_t > 0"
  let k ← calcK objectLenF symbolSizeT
  assert (0 < k) "object_len_f must be > 0 for now"
  return ⟨objectLenF, symbolSizeT, k, dmax⟩

theorem Rfc6330TransmissionParams.forObject_eq {f t : Nat} (hf : 0 < f) (ht : 0 < t)
    (dmax : Usize) (ldpcType : LDPCType) :
    Rfc6330TransmissionParams.forObject f t dmax ldpcType =
      .ok ⟨f, t, divCeil f t, (dmax, ldpcType)⟩ := by
  have hk : 0 < divCeil f t := divCeil_pos hf ht
  have hcalc : calcK f t = .ok (divCeil f t) := calcK_eq_ok.mpr ⟨ht, rfl⟩
  simp [Rfc6330TransmissionParams.forObject, hcalc, hk, ht]

theorem Rfc5053TransmissionParams.forObject_eq {f t : Nat} (hf : 0 < f) (ht : 0 < t)
    (dmax : Usize) :
    Rfc5053TransmissionParams.forObject f t dmax = .ok ⟨f, t, divCeil f t, dmax⟩ := by
  have hk : 0 < divCeil f t := divCeil_pos hf ht
  have hcalc : calcK f t = .ok (divCeil f t) := calcK_eq_ok.mpr ⟨ht, rfl⟩
  simp [Rfc5053TransmissionParams.forObject, hcalc, hk, ht]

/-! ## Block encoder -/

section Blocks

variable {ops : DataOperators} {Config : Type}

/-- `Rfc6330Encoder` and `Rfc5053Encoder`. -/
structure BlockEncoder (eng : Engine ops.Operator Config) where
  encoder : eng.Encoder
  params : TransmissionParams Config
  numTotal : Nat

/-- `for esi in 0..k { operator.insert_vector(&padded[start..end], esi) }`. -/
def insertSymbols (ops : DataOperators) (padded : Bytes) (symbolSizeT : Nat) :
    ops.Operator → List Nat → Call ops.Operator
  | operator, [] => .ok operator
  | operator, esi :: rest => do
    let symbol ← symbolSlice padded symbolSizeT esi
    insertSymbols ops padded symbolSizeT (ops.insertVector operator symbol esi) rest

def BlockEncoder.newWithOperator (eng : Engine ops.Operator Config)
    (params : TransmissionParams Config) (object : Bytes) (operator : ops.Operator) :
    Call (BlockEncoder eng) := do
  assert (object.length = params.transferLengthF) "object.len() == params.transfer_length_f"
  let scheme ← engineCall (eng.sysCode params.k params.config)
  let padded ← padObjectToKSymbols object params.k params.symbolSizeT
  let operator ← insertSymbols ops padded params.symbolSizeT operator (List.range params.k)
  let encoder ← engineCall (eng.newEncoder scheme operator params.symbolSizeT)
  return ⟨encoder, params, eng.numTotal scheme⟩

variable {eng : Engine ops.Operator Config}

/-- No scheme has so many source symbols that their packets had no room. -/
def BlockEncoder.sourcePackets (enc : BlockEncoder eng) : List EncodingPacket :=
  (List.range enc.params.k).map fun esi =>
    ⟨⟨0, UInt64.ofNat esi⟩, eng.getCodedVector enc.encoder esi⟩

/-- `size_of::<EncodingPacket>()`, and of a `TransferPacket`. -/
def packetBytes : Nat := 40

/-- The loop of `repair_packets`. `ids i` computes the ids of packet `i`. -/
def BlockEncoder.repairLoop (ids : Nat → Call RepairIds) :
    BlockEncoder eng → List Nat → Call (BlockEncoder eng × List EncodingPacket)
  | enc, [] => .ok (enc, [])
  | enc, i :: rest => do
    let id ← ids i
    match eng.encodeCodedVector enc.encoder id.codedId with
    | none => .error (.expect "repair coded_id should be encodable")
    | some encoder => do
      let packet : EncodingPacket :=
        ⟨⟨0, UInt64.ofNat id.esi⟩, eng.getCodedVector encoder id.codedId⟩
      let more ← BlockEncoder.repairLoop ids { enc with encoder } rest
      return (more.1, packet :: more.2)

/-- `(0..count).map(..).collect()` has room for `count` packets before it computes the
first. -/
def BlockEncoder.collectRepair (enc : BlockEncoder eng) (ids : Nat → Call RepairIds)
    (count : Nat) : Call (BlockEncoder eng × List EncodingPacket) := do
  withCapacity (count * packetBytes)
  enc.repairLoop ids (List.range count)

/-! ## Block decoder -/

/-- `Rfc5053Decoder`, and all of `Rfc6330Decoder` but its `num_total`. -/
structure BlockDecoder (eng : Engine ops.Operator Config) where
  decoder : eng.Decoder
  params : TransmissionParams Config

def BlockDecoder.addCodedVector (dec : BlockDecoder eng) (codedId : Nat) (symbol : Bytes) :
    Call (BlockDecoder eng × DecodeStatus) := do
  let added ← engineCall (eng.addCodedVector dec.decoder codedId symbol)
  return ({ dec with decoder := added.1 }, added.2)

def BlockDecoder.decodeStatus (dec : BlockDecoder eng) : DecodeStatus :=
  eng.decodeStatus dec.decoder

def BlockDecoder.recoverObject (dec : BlockDecoder eng) : Call Bytes := do
  assert (dec.decodeStatus = .decoded) "decode_status() == Decoded"
  let symbols := (List.range dec.params.k).map (eng.getDataVector dec.decoder)
  assemblePayloadFromSymbols symbols dec.params.transferLengthF dec.params.symbolSizeT

end Blocks

/-! ## RFC 6330 -/

section Rfc6330

variable {ops : DataOperators}

abbrev Rfc6330Encoder (eng : Engine ops.Operator (Usize × LDPCType)) := BlockEncoder eng

structure Rfc6330Decoder (eng : Engine ops.Operator (Usize × LDPCType)) extends
    BlockDecoder eng where
  numTotal : Nat

variable {eng : Engine ops.Operator (Usize × LDPCType)}

def Rfc6330Encoder.repairIds (k numTotal startRepairIndex i : Nat) : Call RepairIds := do
  let repairIndex ← addUsize startRepairIndex i
  let codedId ← addUsize numTotal repairIndex
  let esi ← repairPayloadEsi k repairIndex
  return ⟨codedId, esi⟩

def Rfc6330Encoder.repairPackets (enc : Rfc6330Encoder eng) (startRepairIndex count : Nat) :
    Call (Rfc6330Encoder eng × List EncodingPacket) :=
  enc.collectRepair (Rfc6330Encoder.repairIds enc.params.k enc.numTotal startRepairIndex) count

def Rfc6330Decoder.newWithOperator (eng : Engine ops.Operator (Usize × LDPCType))
    (params : Rfc6330TransmissionParams) (operator : ops.Operator) :
    Call (Rfc6330Decoder eng) := do
  let scheme ← engineCall (eng.sysCode params.k params.config)
  let decoder ← engineCall (eng.newDecoder scheme operator params.symbolSizeT)
  return ⟨⟨decoder, params⟩, eng.numTotal scheme⟩

def Rfc6330Decoder.addPacket (dec : Rfc6330Decoder eng) (packet : EncodingPacket) :
    Call (Rfc6330Decoder eng × DecodeStatus) := do
  assert (packet.payloadId.sbn = 0) "only sbn=0 supported in v1"
  let codedId ← payloadEsiToCodedId packet.payloadId.esi.toNat dec.params.k dec.numTotal
  let added ← dec.toBlockDecoder.addCodedVector codedId packet.symbol
  return ({ dec with toBlockDecoder := added.1 }, added.2)

end Rfc6330

/-! ## RFC 5053 -/

section Rfc5053

variable {ops : DataOperators}

abbrev Rfc5053Encoder (eng : Engine ops.Operator Usize) := BlockEncoder eng

abbrev Rfc5053Decoder (eng : Engine ops.Operator Usize) := BlockDecoder eng

variable {eng : Engine ops.Operator Usize}

/-- The ESI of a repair packet is its coded id. -/
def Rfc5053Encoder.repairIds (numTotal startRepairIndex i : Nat) : Call RepairIds := do
  let base ← addUsize numTotal startRepairIndex
  let codedId ← addUsize base i
  return ⟨codedId, codedId⟩

def Rfc5053Encoder.repairPackets (enc : Rfc5053Encoder eng) (startRepairIndex count : Nat) :
    Call (Rfc5053Encoder eng × List EncodingPacket) :=
  enc.collectRepair (Rfc5053Encoder.repairIds enc.numTotal startRepairIndex) count

def Rfc5053Decoder.newWithOperator (eng : Engine ops.Operator Usize)
    (params : Rfc5053TransmissionParams) (operator : ops.Operator) :
    Call (Rfc5053Decoder eng) := do
  let scheme ← engineCall (eng.sysCode params.k params.config)
  let decoder ← engineCall (eng.newDecoder scheme operator params.symbolSizeT)
  return ⟨decoder, params⟩

def Rfc5053Decoder.addPacket (dec : Rfc5053Decoder eng) (packet : EncodingPacket) :
    Call (Rfc5053Decoder eng × DecodeStatus) := do
  assert (packet.payloadId.sbn = 0) "only sbn=0 supported in v1"
  dec.addCodedVector packet.payloadId.esi.toNat packet.symbol

end Rfc5053

end FountainTransfer
