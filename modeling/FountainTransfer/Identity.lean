import FountainTransfer.Encoding
import FountainTransfer.Protocol
import FountainTransfer.Repetition

/-!
# Packet identity

A packet names its symbol by an ESI, the engine by a coded id. The encoder computes both
ids of a symbol, the ESI crosses the wire as a `u32`, and the decoder computes a coded id
from the ESI it reads.

Results:
1. `identity_survives_iff`: of every packet an encoder returns, the decoder hands its engine
   the coded id the encoder used exactly when the ESI is below `2^32`; the cast `esi as u32`
   is unchecked.
2. `ids_safe_iff`: when any two well-formed packets get ids that an encoder can emit.
   Raptor10 passes the internal precode ids on, RaptorQ overflows on the largest ESIs.
-/

namespace FountainTransfer

/-! ## The ids a decoder computes -/

/-- The coded id for an ESI, by codec. -/
def CodecKind.codedId : CodecKind → Nat → Nat → Nat → Call Nat
  | .raptorQ, k, numTotal, esi => payloadEsiToCodedId esi k numTotal
  | .raptor10, _, _, esi => .ok esi

theorem TransferDecoderImpl.Built.codedId_eq {eng : Engines} {dec : TransferDecoderImpl eng}
    {numTotal : Nat} (h : dec.Built) (htotal : eng.numTotal dec.spec = .ok numTotal) (esi : Nat) :
    dec.codedId esi = dec.spec.codecKind.codedId dec.spec.sourceK numTotal esi := by
  cases dec with
  | raptorQ dec spec =>
    obtain ⟨dmax, ldpcType, hcodec, hparams, hdec⟩ := h
    have hkind : spec.codecKind = .raptorQ := TransferSpec.codecKind_of_codec hcodec
    have htotal : dec.numTotal = numTotal := Except.ok.inj (hdec.symm.trans htotal)
    simp [TransferDecoderImpl.codedId, TransferDecoderImpl.spec, CodecKind.codedId, hkind, hparams,
      htotal]
  | raptor10 dec spec =>
    obtain ⟨dmax, hcodec, _⟩ := h
    have hkind : spec.codecKind = .raptor10 := TransferSpec.codecKind_of_codec hcodec
    simp [TransferDecoderImpl.codedId, TransferDecoderImpl.spec, CodecKind.codedId, hkind]

/-- The decoder undoes the encoder's numbering. -/
theorem codedId_of_emitted {kind : CodecKind} {k numTotal : Nat} {ids : RepairIds}
    (h : EmittedIds kind k numTotal ids) : kind.codedId k numTotal ids.esi = .ok ids.codedId := by
  cases h with
  | @source i hi =>
    cases kind with
    | raptorQ => exact payloadEsiToCodedId_eq_ok.mpr (.inl ⟨hi, rfl⟩)
    | raptor10 => rfl
  | @repair start i ids hids =>
    obtain ⟨rfl, hcoded, _⟩ := repairIds_eq_ok hids
    cases kind with
    | raptorQ =>
      have hback : k + (start + i) - k = start + i := Nat.add_sub_cancel_left k _
      have hrepair : k ≤ k + (start + i) ∧ numTotal + (k + (start + i) - k) ≤ usizeMax ∧
          numTotal + (start + i) = numTotal + (k + (start + i) - k) := by
        rw [hback]
        exact ⟨Nat.le_add_right _ _, hcoded, rfl⟩
      exact payloadEsiToCodedId_eq_ok.mpr (.inr hrepair)
    | raptor10 => rfl

/-- No smaller ESI stands for the same coded id. -/
theorem esi_of_codedId {kind : CodecKind} {k numTotal esi : Nat} {ids : RepairIds}
    (htotal : k ≤ numTotal) (h : EmittedIds kind k numTotal ids)
    (hcoded : kind.codedId k numTotal esi = .ok ids.codedId) (hle : esi ≤ ids.esi) :
    esi = ids.esi := by
  have hself := codedId_of_emitted h
  cases kind with
  | raptorQ =>
    have hesi := payloadEsiToCodedId_eq_ok.mp hcoded
    have hids := payloadEsiToCodedId_eq_ok.mp hself
    omega
  | raptor10 => exact (Except.ok.inj hcoded).trans (Except.ok.inj hself).symm

theorem emitted_esi_toNat {kind : CodecKind} {spec : TransferSpec} {numTotal : Nat}
    {ids : RepairIds} (h : EmittedIds kind spec.sourceK numTotal ids) :
    (UInt64.ofNat ids.esi).toNat = ids.esi := by
  refine toNat_ofNat_usize ?_
  cases h with
  | source hi => exact Nat.le_trans (Nat.le_of_lt hi) (sourceK_le_usizeMax spec)
  | repair hids => exact (repairIds_eq_ok hids).2.2

/-- A source id, or one past the internal ids. -/
theorem emittable_of_emitted {kind : CodecKind} {k numTotal : Nat} {ids : RepairIds}
    (h : EmittedIds kind k numTotal ids) : Engine.Emittable k numTotal ids.codedId := by
  cases h with
  | source hi => exact .inl hi
  | repair hids =>
    obtain ⟨rfl, _⟩ := repairIds_eq_ok hids
    rw [repairIdsAt_codedId]
    exact .inr (Nat.le_add_right _ _)

/-! ## Across the wire -/

/-- A packet as the sender frames it and the receiver of the session reads it. -/
def throughWire (sessionId : UInt64) (symbolSize : Nat) (packet : TransferPacket) :
    Result ProtocolError TransferPacket := do
  let bytes ← encodeMessage (packetMessage sessionId packet)
  let message ← decodeMessage bytes
  transferPacketFromMessage message sessionId symbolSize

theorem packetMessage_fits {packet : TransferPacket} {t : Usize} (sessionId : UInt64)
    (h : packet.symbol.length = t.toNat) : wireCode.Fits (packetMessage sessionId packet) := by
  refine wireCode_fits _ fun _ _ _ _ symbol heq => ?_
  cases heq
  rw [h]
  exact t.toNat_lt

theorem throughWire_eq {packet : TransferPacket} {t : Usize} (sessionId : UInt64)
    (h : packet.symbol.length = t.toNat) :
    throughWire sessionId t.toNat packet =
      .ok { packet with esi := packet.esi.toUInt32.toUInt64 } := by
  have hdecode := decodeMessage_encode (packetMessage_fits sessionId h) []
  rw [List.append_nil] at hdecode
  simp only [throughWire, encodeMessage, ok_bind, hdecode]
  exact transferPacketFromMessage_eq_ok.mpr ⟨_, rfl, h, rfl⟩

/-- The packet arrives in block 0, and `add_packet` hands the engine the coded id `c` with the
symbol of the packet. -/
def IdentitySurvives {eng : Engines} (dec : TransferDecoderImpl eng) (sessionId : UInt64)
    (c : Nat) (packet : TransferPacket) : Prop :=
  ∃ received, throughWire sessionId dec.spec.symbolSizeT.toNat packet = .ok received ∧
    received.sbn = 0 ∧ received.symbol = packet.symbol ∧
    dec.codedId received.esi.toNat = .ok c ∧
    dec.addPacket received = do
      let added ← dec.feed c packet.symbol
      return .ok added

section

variable {eng : Engines} {dec : TransferDecoderImpl eng} {object : Bytes} {numTotal : Nat}

/-- `packet.esi as u32` keeps the ESIs below `2^32` and no others. -/
theorem survives_iff {ids : RepairIds} {packet : TransferPacket} (sessionId : UInt64)
    (hdec : dec.Built) (htotal : eng.numTotal dec.spec = .ok numTotal)
    (hle : dec.spec.sourceK ≤ numTotal)
    (hids : EmittedIds dec.spec.codecKind dec.spec.sourceK numTotal ids)
    (hemits : dec.spec.Emits eng object ids packet)
    (hsymbol : packet.symbol.length = dec.spec.symbolSizeT.toNat) :
    IdentitySurvives dec sessionId ids.codedId packet ↔ ids.esi < 2 ^ 32 := by
  obtain ⟨hsbn, hesi⟩ := hemits.ids
  have hwire := throughWire_eq sessionId hsymbol
  have hcast : packet.esi.toUInt32.toUInt64.toNat = ids.esi % 2 ^ 32 := by
    rw [UInt32.toNat_toUInt64, UInt64.toNat_toUInt32, hesi, emitted_esi_toNat hids]
  constructor
  · rintro ⟨received, hreceived, _, _, hcoded, _⟩
    cases hwire.symm.trans hreceived
    have hcoded : dec.codedId packet.esi.toUInt32.toUInt64.toNat = .ok ids.codedId := hcoded
    rw [hcast, hdec.codedId_eq htotal] at hcoded
    -- the cut ESI is no larger, and no smaller one has the same coded id
    have hsame := esi_of_codedId hle hids hcoded (Nat.mod_le _ _)
    exact hsame ▸ Nat.mod_lt _ (by decide)
  · intro hlt
    have hcoded : dec.codedId packet.esi.toUInt32.toUInt64.toNat = .ok ids.codedId := by
      rw [hcast, Nat.mod_eq_of_lt hlt, hdec.codedId_eq htotal]
      exact codedId_of_emitted hids
    have hwell : dec.WellFormed { packet with esi := packet.esi.toUInt32.toUInt64 } :=
      ⟨hsbn, hsymbol⟩
    refine ⟨_, hwire, hsbn, rfl, hcoded, ?_⟩
    rw [TransferDecoderImpl.addPacket_eq hwell]
    exact congrArg (· >>= _) hcoded

/-- For every encoder that serves an object, whatever it handed out before, every decoder of
the same spec and every session id: each packet that `source_packets` and any
`repair_packets(start, count)` return carries what the engine handed out for the coded id of
its place, and reaches the engine of the decoder under this id exactly when its ESI is below
`2^32`. -/
theorem identity_survives_iff (sized : eng.SymbolsSized) {enc : TransferEncoderImpl eng}
    (sessionId : UInt64) (henc : enc.Serves object) (hdec : dec.Built) (hspec : dec.spec = enc.spec)
    (htotal : eng.numTotal enc.spec = .ok numTotal) (hle : enc.spec.sourceK ≤ numTotal) :
    List.Forall₂ (fun i packet => enc.spec.Emits eng object ⟨i, i⟩ packet ∧
        (IdentitySurvives dec sessionId i packet ↔ i < 2 ^ 32))
      (List.range enc.spec.sourceK) enc.sourcePackets ∧
    ∀ start count enc' packets, enc.repairPackets start count = .ok (enc', packets) →
      List.Forall₂ (fun i packet =>
          let ids := enc.spec.codecKind.repairIdsAt enc.spec.sourceK numTotal (start + i)
          enc.spec.Emits eng object ids packet ∧
            (IdentitySurvives dec sessionId ids.codedId packet ↔ ids.esi < 2 ^ 32))
        (List.range count) packets := by
  have hsurvives : ∀ {ids : RepairIds} {packet : TransferPacket},
      EmittedIds enc.spec.codecKind enc.spec.sourceK numTotal ids →
      enc.spec.Emits eng object ids packet →
      (IdentitySurvives dec sessionId ids.codedId packet ↔ ids.esi < 2 ^ 32) := by
    intro ids packet hids hemits
    have hlength := hemits.length sized henc.1
    rw [← hspec] at htotal hle hids hemits hlength
    exact survives_iff sessionId hdec htotal hle hids hemits hlength
  refine ⟨?_, fun start count enc' packets hrepair => ?_⟩
  · have hids : ∀ i ∈ List.range enc.spec.sourceK,
        EmittedIds enc.spec.codecKind enc.spec.sourceK numTotal ⟨i, i⟩ :=
      fun i hi => .source (List.mem_range.mp hi)
    refine ((List.forall₂_and_left _ _).mpr
      ⟨hids, TransferEncoderImpl.sourcePackets_emitted henc⟩).imp ?_
    rintro i packet ⟨hids, hemits⟩
    exact ⟨hemits, hsurvives hids hemits⟩
  · obtain ⟨_, _, _, numTotal', htotal', hcomputed, hall⟩ :=
      TransferEncoderImpl.repairPackets_emitted henc hrepair
    cases htotal.symm.trans htotal'
    have hids : ∀ i ∈ List.range count, EmittedIds enc.spec.codecKind enc.spec.sourceK numTotal
        (enc.spec.codecKind.repairIdsAt enc.spec.sourceK numTotal (start + i)) :=
      fun i hi => .repair (hcomputed i (List.mem_range.mp hi))
    refine ((List.forall₂_and_left _ _).mpr ⟨hids, hall⟩).imp ?_
    rintro i packet ⟨hids, hemits⟩
    exact ⟨hemits, hsurvives hids hemits⟩

end

namespace Repetition

theorem engines_symbolsSized : engines.SymbolsSized where
  raptorQ := (faithful _).symbolsSized
  raptor10 := (faithful _).symbolsSized

def encoderQ : TransferEncoderImpl engines :=
  .raptorQ ⟨[[42]], ⟨1, 1, 1, (defaultDmax, raptorQLdpcType)⟩, 27⟩ specQ

theorem encoderQ_constructed : TransferEncoderImpl.Constructed engines specQ [42] encoderQ :=
  .new rfl

end Repetition

open Repetition in
/-- Repair symbols 3 and 4 of a one-symbol object arrive as themselves. -/
theorem identity_of_repair_three :
    List.Forall₂ (fun i packet => specQ.Emits engines [42] ⟨27 + (3 + i), 1 + (3 + i)⟩ packet ∧
        (IdentitySurvives decoderQ 7 (27 + (3 + i)) packet ↔ 1 + (3 + i) < 2 ^ 32))
      [0, 1] [⟨0, 4, [42]⟩, ⟨0, 5, [42]⟩] :=
  (identity_survives_iff engines_symbolsSized 7 encoderQ_constructed.serves.2
    decoderQ_constructed.built rfl (rfl : engines.numTotal specQ = .ok 27) (by decide)).2 3 2 encoderQ
    _ rfl

open Repetition in
/-- Repair symbol `2^32 - 1` of one RaptorQ symbol has ESI `2^32`, which arrives as source
ESI 0. -/
theorem identity_lost_past_u32 :
    TransferEncoderImpl.Constructed engines specQ [42] encoderQ ∧
    TransferDecoderImpl.Constructed engines specQ decoderQ ∧
    encoderQ.repairPackets 4294967295 1 = .ok (encoderQ, [⟨0, 4294967296, [42]⟩]) ∧
    specQ.Emits engines [42] ⟨27 + 4294967295, 4294967296⟩ ⟨0, 4294967296, [42]⟩ ∧
    ¬ IdentitySurvives decoderQ 7 (27 + 4294967295) ⟨0, 4294967296, [42]⟩ := by
  have hrepair : encoderQ.repairPackets 4294967295 1 = .ok (encoderQ, [⟨0, 4294967296, [42]⟩]) := rfl
  obtain ⟨_, _, _, numTotal, htotal, _, hall⟩ :=
    TransferEncoderImpl.repairPackets_emitted encoderQ_constructed.serves.2 hrepair
  cases htotal
  refine ⟨encoderQ_constructed, decoderQ_constructed, hrepair, (List.forall₂_cons.mp hall).1, ?_⟩
  rintro ⟨received, hreceived, _, _, hcoded, _⟩
  have hwire := @throughWire_eq ⟨0, 4294967296, [42]⟩ 1 7 rfl
  cases hwire.symm.trans hreceived
  -- the packet arrives under ESI 0, a source id
  have hzero : decoderQ.codedId 0 = .ok (27 + 4294967295) := hcoded
  cases hzero

/-! ## Ids for arbitrary packets -/

/-- The coded ids that `add_packet` computes for two packets are ids an encoder can emit,
and they differ when the ESIs do. -/
def IdsSafe {eng : Engines} (dec : TransferDecoderImpl eng) (numTotal : Nat)
    (p q : TransferPacket) : Prop :=
  ∃ c d, dec.codedId p.esi.toNat = .ok c ∧ dec.codedId q.esi.toNat = .ok d ∧
    Engine.Emittable dec.spec.sourceK numTotal c ∧ Engine.Emittable dec.spec.sourceK numTotal d ∧
    (p.esi ≠ q.esi → c ≠ d)

/-- A repair ESI is harmless when, for RaptorQ, `num_total + (esi - K)` is a `usize`, and,
for Raptor10, it is not an internal id. -/
def EsiSafe (kind : CodecKind) (k numTotal esi : Nat) : Prop :=
  k ≤ esi →
    match kind with
    | .raptorQ => numTotal + (esi - k) ≤ usizeMax
    | .raptor10 => numTotal ≤ esi

theorem esiSafe_iff {kind : CodecKind} {k numTotal esi : Nat} :
    EsiSafe kind k numTotal esi ↔
      ∃ c, kind.codedId k numTotal esi = .ok c ∧ Engine.Emittable k numTotal c := by
  cases kind with
  | raptorQ =>
    simp only [EsiSafe, CodecKind.codedId, payloadEsiToCodedId_eq_ok, Engine.Emittable]
    constructor
    · intro h
      by_cases hk : esi < k
      -- a source ESI is its own id; a repair ESI needs room for `num_total`
      · exact ⟨esi, .inl ⟨hk, rfl⟩, .inl hk⟩
      · have hk : k ≤ esi := Nat.not_lt.mp hk
        exact ⟨_, .inr ⟨hk, h hk, rfl⟩, .inr (Nat.le_add_right _ _)⟩
    · rintro ⟨c, ⟨hk, rfl⟩ | ⟨_, hfit, rfl⟩, _⟩ hle
      · omega
      · exact hfit
  | raptor10 =>
    simp only [EsiSafe, CodecKind.codedId, Except.ok.injEq, Engine.Emittable, exists_eq_left']
    omega

theorem codedId_injective {kind : CodecKind} {k numTotal e e' c : Nat} (hle : k ≤ numTotal)
    (h : kind.codedId k numTotal e = .ok c) (h' : kind.codedId k numTotal e' = .ok c) : e = e' := by
  cases kind with
  | raptorQ =>
    have hc := payloadEsiToCodedId_eq_ok.mp h
    have hc' := payloadEsiToCodedId_eq_ok.mp h'
    omega
  | raptor10 => exact (Except.ok.inj h).trans (Except.ok.inj h').symm

/-- `add_packet` hands the engine the coded id of the packet's ESI with its symbol. -/
def HandsOver {eng : Engines} (dec : TransferDecoderImpl eng) (packet : TransferPacket) : Prop :=
  dec.addPacket packet = do
    let c ← dec.codedId packet.esi.toNat
    let added ← dec.feed c packet.symbol
    return .ok added

/-- For every decoder and every two packets its facade accepts: what reaches the engine
is what `codedId` computes, and the ids are safe exactly when both ESIs are. -/
theorem ids_safe_iff {eng : Engines} {dec : TransferDecoderImpl eng} {numTotal : Nat}
    {p q : TransferPacket} (hdec : dec.Built) (htotal : eng.numTotal dec.spec = .ok numTotal)
    (hlt : dec.spec.sourceK < numTotal) (hp : dec.WellFormed p) (hq : dec.WellFormed q) :
    HandsOver dec p ∧ HandsOver dec q ∧
    (IdsSafe dec numTotal p q ↔
      EsiSafe dec.spec.codecKind dec.spec.sourceK numTotal p.esi.toNat ∧
      EsiSafe dec.spec.codecKind dec.spec.sourceK numTotal q.esi.toNat) := by
  refine ⟨TransferDecoderImpl.addPacket_eq hp, TransferDecoderImpl.addPacket_eq hq, ?_⟩
  simp only [IdsSafe, hdec.codedId_eq htotal, esiSafe_iff]
  constructor
  · rintro ⟨c, d, hc, hd, hcsafe, hdsafe, _⟩
    exact ⟨⟨c, hc, hcsafe⟩, ⟨d, hd, hdsafe⟩⟩
  · rintro ⟨⟨c, hc, hcsafe⟩, ⟨d, hd, hdsafe⟩⟩
    refine ⟨c, d, hc, hd, hcsafe, hdsafe, fun hne heq => hne ?_⟩
    subst heq
    exact UInt64.toNat_inj.mp (codedId_injective (Nat.le_of_lt hlt) hc hd)

open Repetition in
theorem ids_safe_source_and_repair :
    HandsOver decoderQ ⟨0, 0, [42]⟩ ∧ HandsOver decoderQ ⟨0, 1, [42]⟩ ∧
    (IdsSafe decoderQ 27 ⟨0, 0, [42]⟩ ⟨0, 1, [42]⟩ ↔
      EsiSafe .raptorQ 1 27 0 ∧ EsiSafe .raptorQ 1 27 1) :=
  ids_safe_iff decoderQ_constructed.built rfl (by decide) ⟨rfl, rfl⟩ ⟨rfl, rfl⟩

open Repetition in
/-- With `K = 4` and `num_total = 14`, ESI 4 of Raptor10 reaches the engine as the
internal id 4; with `K = 1`, the largest ESI of RaptorQ has no coded id. -/
theorem internal_id_and_overflow :
    (decoder10.WellFormed ⟨0, 4, [42]⟩ ∧ decoder10.codedId 4 = .ok 4 ∧
      ¬ IdsSafe decoder10 14 ⟨0, 4, [42]⟩ ⟨0, 4, [42]⟩) ∧
    (decoderQ.WellFormed ⟨0, 18446744073709551615, [42]⟩ ∧
      decoderQ.addPacket ⟨0, 18446744073709551615, [42]⟩ = .error .overflow ∧
      ¬ IdsSafe decoderQ 27 ⟨0, 18446744073709551615, [42]⟩ ⟨0, 18446744073709551615, [42]⟩) := by
  refine ⟨⟨⟨rfl, rfl⟩, rfl, ?_⟩, ⟨rfl, rfl⟩, rfl, ?_⟩
  · rintro ⟨c, _, hc, _, hsafe, _⟩
    have hc : (4 : Nat) = c := Except.ok.inj hc
    have hsafe : c < 4 ∨ 14 ≤ c := hsafe
    omega
  · rintro ⟨c, _, hc, _⟩
    cases hc

end FountainTransfer
