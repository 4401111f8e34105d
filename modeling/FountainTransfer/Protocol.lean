import FountainTransfer.Facade
import FountainTransfer.Framing

/-!
# The wire protocol

`protocol.rs` and `session.rs`. A message is written by `bincode::serialize`: a `u32`
variant index, then the fields in order, integers little-endian and of fixed width, a
byte vector behind its `u64` length. `bincode::deserialize` reads one message off the
front and ignores trailing bytes. `wireCode` is this format as a `PrefixCode.Code`.
-/

namespace FountainTransfer

open PrefixCode

/-- `WIRE_VERSION`. -/
def wireVersion : UInt8 := 1

/-- `CODEC_RAPTOR_Q`. -/
def codecRaptorQ : UInt8 := 0

/-- `CODEC_RAPTOR_10`. -/
def codecRaptor10 : UInt8 := 1

inductive WireMessage
  | sessionMeta (version : UInt8) (sessionId : UInt64) (codec : UInt8) (transferLengthF : UInt64)
      (symbolSizeT : UInt16)
  | packet (version : UInt8) (sessionId : UInt64) (sbn esi : UInt32) (symbol : Bytes)
deriving DecidableEq, Repr

/-- `encode` stands for any `bincode::Error`; nothing reads its contents. -/
inductive ProtocolError
  | unsupportedVersion (version : UInt8)
  | unknownCodec (codec : UInt8)
  | symbolLengthMismatch (expected actual : Nat)
  | encode
  | transferCore (error : TransferError)
deriving DecidableEq, Repr

/-- The session id both variants carry. -/
def WireMessage.sessionId : WireMessage → UInt64
  | .sessionMeta _ sessionId _ _ _ => sessionId
  | .packet _ sessionId _ _ _ => sessionId

/-! ## The wire format -/

namespace Wire

def u8 : Code UInt8 :=
  (Code.littleEndian 1).map UInt8.ofNat UInt8.toNat
    (fun _ h => UInt8.toNat_ofNat_of_lt' h) fun b => UInt8.ofNat_toNat (x := b)

def u16 : Code UInt16 :=
  (Code.littleEndian 2).map UInt16.ofNat UInt16.toNat
    (fun _ h => UInt16.toNat_ofNat_of_lt' h) fun b => UInt16.ofNat_toNat (x := b)

def u32 : Code UInt32 :=
  (Code.littleEndian 4).map UInt32.ofNat UInt32.toNat
    (fun _ h => UInt32.toNat_ofNat_of_lt' h) fun b => UInt32.ofNat_toNat (x := b)

def u64 : Code UInt64 :=
  (Code.littleEndian 8).map UInt64.ofNat UInt64.toNat
    (fun _ h => UInt64.toNat_ofNat_of_lt' h) fun b => UInt64.ofNat_toNat (x := b)

/-- `Vec<u8>`. -/
def byteVec : Code Bytes := Code.counted (Code.littleEndian 8)

/-- The enum variant index. -/
def variantIndex : Code Nat := Code.littleEndian 4

theorem variantIndex_fits {n : Nat} (h : n < 2) : variantIndex.Fits n :=
  Nat.lt_trans h (by decide)

def sessionMetaFields : Code (UInt8 × UInt64 × UInt8 × UInt64 × UInt16) :=
  u8.pair (u64.pair (u8.pair (u64.pair u16)))

def packetFields : Code (UInt8 × UInt64 × UInt32 × UInt32 × Bytes) :=
  u8.pair (u64.pair (u32.pair (u32.pair byteVec)))

/-- The fields of a message, in declaration order. -/
def toFields : WireMessage →
    (UInt8 × UInt64 × UInt8 × UInt64 × UInt16) ⊕ (UInt8 × UInt64 × UInt32 × UInt32 × Bytes)
  | .sessionMeta version sessionId codec f t => .inl (version, sessionId, codec, f, t)
  | .packet version sessionId sbn esi symbol => .inr (version, sessionId, sbn, esi, symbol)

def ofFields :
    (UInt8 × UInt64 × UInt8 × UInt64 × UInt16) ⊕ (UInt8 × UInt64 × UInt32 × UInt32 × Bytes) →
      WireMessage
  | .inl (version, sessionId, codec, f, t) => .sessionMeta version sessionId codec f t
  | .inr (version, sessionId, sbn, esi, symbol) => .packet version sessionId sbn esi symbol

theorem toFields_ofFields (x) : toFields (ofFields x) = x := by
  rcases x with ⟨_, _, _, _, _⟩ | ⟨_, _, _, _, _⟩ <;> rfl

theorem ofFields_toFields (m : WireMessage) : ofFields (toFields m) = m := by
  cases m <;> rfl

end Wire

/-- The format of `WireMessage`. -/
def wireCode : Code WireMessage :=
  (Code.either Wire.variantIndex (Wire.variantIndex_fits (by decide))
    (Wire.variantIndex_fits (by decide)) Wire.sessionMetaFields Wire.packetFields).map
    Wire.ofFields Wire.toFields (fun x _ => Wire.toFields_ofFields x) Wire.ofFields_toFields

/-- Serialization of these types does not fail. -/
def encodeMessage (message : WireMessage) : Result ProtocolError Bytes :=
  .ok (wireCode.encode message)

def decodeMessage (bytes : Bytes) : Result ProtocolError WireMessage :=
  match wireCode.decode bytes with
  | none => .error .encode
  | some (message, _) => .ok message

/-! ## Messages and what they carry -/

def sessionMetaFromSpec (sessionId : UInt64) (spec : TransferSpec) : WireMessage :=
  let codec :=
    match spec.codecKind with
    | .raptorQ => codecRaptorQ
    | .raptor10 => codecRaptor10
  .sessionMeta wireVersion sessionId codec spec.transferLengthF spec.symbolSizeT.toUInt16

/-- The `match` on the codec byte in `spec_from_session_meta`. -/
def codecKindFromWire (codec : UInt8) : Result ProtocolError CodecKind :=
  if codec = codecRaptorQ then .ok .raptorQ
  else if codec = codecRaptor10 then .ok .raptor10
  else .error (.unknownCodec codec)

def specFromSessionMeta (message : WireMessage) : Result ProtocolError TransferSpec :=
  match message with
  | .packet .. => .error (.unsupportedVersion 0)
  | .sessionMeta version _ codec transferLengthF symbolSizeT =>
    if version ≠ wireVersion then .error (.unsupportedVersion version)
    else do
      let kind ← codecKindFromWire codec
      (TransferSpec.new transferLengthF symbolSizeT.toUInt64 kind).mapError .transferCore

def packetMessage (sessionId : UInt64) (packet : TransferPacket) : WireMessage :=
  .packet wireVersion sessionId packet.sbn packet.esi.toUInt32 packet.symbol

/-- A wrong session id is reported as version 0. -/
def transferPacketFromMessage (message : WireMessage) (expectedSession : UInt64)
    (symbolSize : Nat) : Result ProtocolError TransferPacket :=
  match message with
  | .sessionMeta .. => .error (.unsupportedVersion 0)
  | .packet version sessionId sbn esi symbol =>
    if version ≠ wireVersion then .error (.unsupportedVersion version)
    else if sessionId ≠ expectedSession then .error (.unsupportedVersion 0)
    else if symbol.length ≠ symbolSize then
      .error (.symbolLengthMismatch symbolSize symbol.length)
    else .ok ⟨sbn, esi.toUInt64, symbol⟩

/-- Session identifier and transfer parameters shared by sender and receiver. -/
structure SessionParams where
  sessionId : UInt64
  spec : TransferSpec
deriving DecidableEq, Repr

def SessionParams.fromFileAndCli (sessionId : UInt64) (transferLengthF symbolSizeT : Usize)
    (codec : CodecKind) : Result TransferError SessionParams := do
  let spec ← TransferSpec.new transferLengthF symbolSizeT codec
  return ⟨sessionId, spec⟩

/-! ## Lemmas about the format -/

/-- Every message fits but one whose symbol has no `u64` length. -/
theorem wireCode_fits (message : WireMessage)
    (h : ∀ version sessionId sbn esi symbol,
      message = .packet version sessionId sbn esi symbol → symbol.length < 2 ^ 64) :
    wireCode.Fits message := by
  cases message with
  | sessionMeta version sessionId codec f t =>
    exact ⟨version.toNat_lt, sessionId.toNat_lt, codec.toNat_lt, f.toNat_lt, t.toNat_lt⟩
  | packet version sessionId sbn esi symbol =>
    exact ⟨version.toNat_lt, sessionId.toNat_lt, sbn.toNat_lt, esi.toNat_lt,
      h version sessionId sbn esi symbol rfl⟩

theorem decodeMessage_encode {message : WireMessage} (h : wireCode.Fits message) (more : Bytes) :
    decodeMessage (wireCode.encode message ++ more) = .ok message := by
  simp [decodeMessage, wireCode.decode_encode message more h]

/-- A cut datagram is read as the whole one or not at all. -/
theorem decodeMessage_of_take {bytes : Bytes} {n : Nat} {message : WireMessage}
    (h : decodeMessage (bytes.take n) = .ok message) : decodeMessage bytes = .ok message := by
  unfold decodeMessage at h
  split at h
  · cases h
  · next m rest hdecode =>
    cases h
    have hwhole := wireCode.decode_append hdecode (bytes.drop n)
    rw [List.take_append_drop] at hwhole
    simp [decodeMessage, hwhole]

theorem encode_sessionMeta_length (version : UInt8) (sessionId : UInt64) (codec : UInt8)
    (f : UInt64) (t : UInt16) :
    (wireCode.encode (.sessionMeta version sessionId codec f t)).length = 24 := by
  simp [wireCode, Code.map, Code.either, Code.pair, Wire.toFields, Wire.variantIndex,
    Wire.sessionMetaFields, Wire.u8, Wire.u16, Wire.u64, Code.littleEndian]

theorem encode_packet_length (version : UInt8) (sessionId : UInt64) (sbn esi : UInt32)
    (symbol : Bytes) :
    (wireCode.encode (.packet version sessionId sbn esi symbol)).length = 29 + symbol.length := by
  simp [wireCode, Code.map, Code.either, Code.pair, Wire.toFields, Wire.variantIndex,
    Wire.packetFields, Wire.u8, Wire.u32, Wire.u64, Wire.byteVec, Code.counted,
    Code.littleEndian]
  omega

/-! ## Lemmas about messages -/

theorem codecKindFromWire_eq_ok {codec : UInt8} {kind : CodecKind} :
    codecKindFromWire codec = .ok kind ↔
      (codec = codecRaptorQ ∧ kind = .raptorQ) ∨ (codec = codecRaptor10 ∧ kind = .raptor10) := by
  unfold codecKindFromWire
  split
  · next h => subst h; simp [codecRaptorQ, codecRaptor10, eq_comm]
  · split
    · next h => subst h; simp [codecRaptorQ, codecRaptor10, eq_comm]
    · next hq h10 => simp [hq, h10]

/-- What the receiver makes of an acceptable metadata message: only the codec kind
crosses the wire. -/
theorem specFromSessionMeta_eq_ok {message : WireMessage} {spec : TransferSpec} :
    specFromSessionMeta message = .ok spec ↔
      ∃ sessionId codec f t kind, message = .sessionMeta wireVersion sessionId codec f t ∧
        codecKindFromWire codec = .ok kind ∧ 0 < f.toNat ∧ 0 < t.toNat ∧
        spec = ⟨f, t.toUInt64, kind.defaultConfig⟩ := by
  cases message with
  | packet => simp [specFromSessionMeta]
  | sessionMeta version sessionId codec f t =>
    simp only [specFromSessionMeta, WireMessage.sessionMeta.injEq]
    split
    · next h => simp [h]
    · next h =>
      have hversion : version = wireVersion := by simpa using h
      subst hversion
      simp only [bind_eq_ok, mapError_eq_ok, TransferSpec.new_eq_ok, UInt16.toNat_toUInt64]
      constructor
      · rintro ⟨kind, hkind, hf, ht, rfl⟩
        exact ⟨sessionId, codec, f, t, kind, ⟨trivial, rfl, rfl, rfl, rfl⟩, hkind, hf, ht, rfl⟩
      · rintro ⟨_, _, _, _, kind, ⟨_, rfl, rfl, rfl, rfl⟩, hkind, hf, ht, rfl⟩
        exact ⟨kind, hkind, hf, ht, rfl⟩

theorem transferPacketFromMessage_eq_ok {message : WireMessage} {expected : UInt64} {t : Nat}
    {packet : TransferPacket} :
    transferPacketFromMessage message expected t = .ok packet ↔
      ∃ esi, message = .packet wireVersion expected packet.sbn esi packet.symbol ∧
        packet.symbol.length = t ∧ packet.esi = esi.toUInt64 := by
  cases message with
  | sessionMeta => simp [transferPacketFromMessage]
  | packet version sessionId sbn esi symbol =>
    obtain ⟨psbn, pesi, psymbol⟩ := packet
    unfold transferPacketFromMessage
    simp only [WireMessage.packet.injEq]
    constructor
    · intro h
      split at h
      · cases h
      · next hversion =>
        split at h
        · cases h
        · next hsession =>
          split at h
          · cases h
          · next hlength =>
            cases h
            exact ⟨esi, ⟨Decidable.not_not.mp hversion, Decidable.not_not.mp hsession, rfl, rfl, rfl⟩,
              Decidable.not_not.mp hlength, rfl⟩
    · rintro ⟨_, ⟨rfl, rfl, rfl, rfl, rfl⟩, hlength, rfl⟩
      simp [hlength]

/-- An ESI below `2^32` crosses the wire unchanged. -/
theorem esi_through_wire {esi : Usize} (h : esi.toNat < 2 ^ 32) : esi.toUInt32.toUInt64 = esi := by
  apply UInt64.toNat_inj.mp
  simp only [UInt32.toNat_toUInt64, UInt64.toNat_toUInt32]
  exact Nat.mod_eq_of_lt h

/-- A symbol size up to `65535` crosses the wire unchanged. -/
theorem symbolSize_through_wire {t : Usize} (h : t.toNat < 2 ^ 16) : t.toUInt16.toUInt64 = t := by
  apply UInt64.toNat_inj.mp
  simp only [UInt16.toNat_toUInt64, UInt64.toNat_toUInt16]
  exact Nat.mod_eq_of_lt h

end FountainTransfer
