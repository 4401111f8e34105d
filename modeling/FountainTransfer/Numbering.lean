import FountainTransfer.Roundtrip

/-!
# Payload ids and internal ids

The facade numbers packets by RFC payload ids: source symbols `0 .. K-1`, then repair
symbols from `K` on. RaptorQ keeps to this on both ends. Raptor10 puts `num_total + r` on
the wire for repair symbol `r`, and reads it back by the same convention, so its packets
are numbered as documented only where the scheme has no internal symbols at all
(`payload_numbered_iff`).
-/

namespace FountainTransfer

/-- Both ends number by payload ids: `repair_packets(start, count)` emits the ESIs
`K + start .. K + start + count - 1`, and `add_packet` takes ESI `e` for repair symbol
`e - K`. -/
structure PayloadNumbered {eng : Engines} (enc : TransferEncoderImpl eng)
    (dec : TransferDecoderImpl eng) (numTotal start count esi : Nat) : Prop where
  emitted : ∃ enc' packets, enc.repairPackets start count = .ok (enc', packets) ∧
    packets.map (·.esi.toNat) = (List.range count).map (enc.spec.sourceK + start + ·)
  read : dec.codedId esi = .ok (numTotal + (esi - dec.spec.sourceK))

section

variable {eng : Engines} {enc : TransferEncoderImpl eng} {object : Bytes} {numTotal : Nat}

/-- The ESIs of emitted packets, as far as they fit in a `usize`. -/
theorem emitted_esis {spec : TransferSpec} {ids : Nat → RepairIds} {packets : List TransferPacket} :
    ∀ {is : List Nat}, List.Forall₂ (fun i => spec.Emits eng object (ids i)) is packets →
      (∀ i ∈ is, (ids i).esi ≤ usizeMax) →
      packets.map (·.esi.toNat) = is.map fun i => (ids i).esi := by
  intro is h hfit
  induction h with
  | nil => rfl
  | @cons i packet is packets hemits _ ih =>
    have hesi : packet.esi.toNat = (ids i).esi := by
      rw [hemits.ids.2]
      exact toNat_ofNat_usize (hfit i List.mem_cons_self)
    rw [List.map_cons, List.map_cons, hesi, ih fun i hi => hfit i (List.mem_cons_of_mem _ hi)]

/-- Source packets carry the ESIs `0 .. K-1`. -/
theorem sourcePackets_esis (h : enc.Serves object) :
    enc.sourcePackets.map (·.esi.toNat) = List.range enc.spec.sourceK := by
  have hesis := emitted_esis (TransferEncoderImpl.sourcePackets_emitted h) fun i hi =>
    Nat.le_trans (Nat.le_of_lt (List.mem_range.mp hi)) (sourceK_le_usizeMax enc.spec)
  exact hesis.trans (List.map_id _)

/-- The ESIs `repair_packets` emits, by codec. -/
theorem repairPackets_esis (encodes : eng.Encodes) {start count : Nat} (h : enc.Serves object)
    (htotal : eng.numTotal enc.spec = .ok numTotal) (hroom : count * packetBytes ≤ isizeMax)
    (hfit : ∀ i < count, numTotal + (start + i) ≤ usizeMax ∧
      enc.spec.sourceK + (start + i) ≤ usizeMax) :
    ∃ enc' packets, enc.repairPackets start count = .ok (enc', packets) ∧
      packets.map (·.esi.toNat) = (List.range count).map fun i =>
        (enc.spec.codecKind.repairIdsAt enc.spec.sourceK numTotal (start + i)).esi := by
  obtain ⟨enc', packets, hrepair⟩ :=
    TransferEncoderImpl.repairPackets_returns encodes h htotal hroom hfit
  obtain ⟨_, _, _, _, htotal', _, hemitted⟩ := TransferEncoderImpl.repairPackets_emitted h hrepair
  cases htotal.symm.trans htotal'
  refine ⟨enc', packets, hrepair, emitted_esis hemitted fun i hi => ?_⟩
  obtain ⟨hcoded, hesi⟩ := hfit i (List.mem_range.mp hi)
  cases enc.spec.codecKind with
  | raptorQ => exact hesi
  | raptor10 => exact hcoded

/-- The coded id of a repair ESI is the one the RFC numbering gives for RaptorQ, and for
Raptor10 only without internal ids. -/
theorem codedId_repair_iff {kind : CodecKind} {k esi : Nat} (hle : k ≤ esi)
    (hfit : numTotal + (esi - k) ≤ usizeMax) :
    kind.codedId k numTotal esi = .ok (numTotal + (esi - k)) ↔ kind = .raptorQ ∨ numTotal = k := by
  cases kind with
  | raptorQ =>
    have hcoded : payloadEsiToCodedId esi k numTotal = .ok (numTotal + (esi - k)) :=
      payloadEsiToCodedId_eq_ok.mpr (.inr ⟨hle, hfit, rfl⟩)
    exact iff_of_true hcoded (.inl rfl)
  | raptor10 =>
    simp only [CodecKind.codedId, Except.ok.injEq, reduceCtorEq, false_or]
    omega

/-- For both codecs, every encoder that serves an object, whatever it handed out before,
every decoder of the same spec, every range of repair symbols and every repair ESI, where
neither an id nor the capacity for the packets overflows: source packets are numbered from
0, a packet is handed over under the id `add_packet` computes, and both ends number repair
symbols by payload ids exactly for RaptorQ or without internal ids. -/
theorem payload_numbered_iff (encodes : eng.Encodes) {dec : TransferDecoderImpl eng}
    {packet : TransferPacket} {start count : Nat} (henc : enc.Serves object) (hdec : dec.Built)
    (hspec : dec.spec = enc.spec) (htotal : eng.numTotal enc.spec = .ok numTotal)
    (hroom : count * packetBytes ≤ isizeMax)
    (hfit : ∀ i < count, numTotal + (start + i) ≤ usizeMax ∧
      enc.spec.sourceK + (start + i) ≤ usizeMax)
    (hpacket : dec.WellFormed packet) (hrepair : enc.spec.sourceK ≤ packet.esi.toNat)
    (hesi : numTotal + (packet.esi.toNat - enc.spec.sourceK) ≤ usizeMax) :
    enc.sourcePackets.map (·.esi.toNat) = List.range enc.spec.sourceK ∧ HandsOver dec packet ∧
    (PayloadNumbered enc dec numTotal start count packet.esi.toNat ↔
      enc.spec.codecKind = .raptorQ ∨ numTotal = enc.spec.sourceK) := by
  refine ⟨sourcePackets_esis henc, TransferDecoderImpl.addPacket_eq hpacket, ?_⟩
  have hcoded := hdec.codedId_eq (hspec ▸ htotal) packet.esi.toNat
  rw [hspec] at hcoded
  constructor
  · rintro ⟨_, hread⟩
    rw [hcoded, hspec] at hread
    exact (codedId_repair_iff hrepair hesi).mp hread
  · intro hkind
    obtain ⟨enc', packets, hout, hesis⟩ := repairPackets_esis encodes henc htotal hroom hfit
    refine ⟨⟨enc', packets, hout, ?_⟩, ?_⟩
    · rw [hesis]
      refine List.map_congr_left fun i _ => ?_
      cases hcodec : enc.spec.codecKind with
      | raptorQ => exact (Nat.add_assoc _ start i).symm
      | raptor10 =>
        -- only left when `num_total` is `K`
        rw [hcodec] at hkind
        rcases hkind with hbad | hsame
        · cases hbad
        · show numTotal + (start + i) = _
          rw [hsame, Nat.add_assoc]
    · rw [hcoded, hspec]
      exact (codedId_repair_iff hrepair hesi).mpr hkind

end

theorem Repetition.engines_encodes : Repetition.engines.Encodes where
  raptorQ _ _ _ := ⟨_, rfl⟩
  raptor10 _ _ _ := ⟨_, rfl⟩

open Repetition in
/-- Repair symbols 2, 3 and 4, and ESI 3, of an object that is one RaptorQ symbol. -/
theorem payload_numbered_one_symbol : PayloadNumbered encoderQ decoderQ 27 2 3 3 := by
  have hall := @payload_numbered_iff _ _ _ 27 engines_encodes decoderQ ⟨0, 3, [42]⟩ 2 3
    encoderQ_constructed.serves.2 decoderQ_constructed.built rfl rfl (by decide) (by decide)
    ⟨rfl, rfl⟩ (by decide) (by decide)
  exact hall.2.2.mpr (.inl rfl)

open Repetition in
/-- The first repair packet of four Raptor10 symbols carries ESI 14, not 4, and ESI 4 is
handed over as the internal id 4. -/
theorem raptor10_internal_ids :
    (encoder10.repairPackets 0 1).map (·.2.map (·.esi)) = .ok [14] ∧
    decoder10.codedId 4 = .ok 4 ∧ ¬ PayloadNumbered encoder10 decoder10 14 0 1 4 := by
  refine ⟨rfl, rfl, fun h => ?_⟩
  have hread : (4 : Nat) = 14 + (4 - 4) := Except.ok.inj h.read
  omega

end FountainTransfer
