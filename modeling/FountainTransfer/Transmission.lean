import FountainTransfer.Planning

/-!
# The plan of a transmission

What is on the wire of a transmission: the metadata, every source symbol once, in order,
and one range of repair symbols. `transmits_plan_iff`: a session whose packets fit in a
datagram, and whose ESIs in a `u32`, is transmitted completely and without repetition
exactly when the scheme supports its number of source symbols and the engine builds an
encoder for them. Otherwise constructing the encoder panics.
-/

namespace FountainTransfer

open Layout

variable {eng : Engines} {encode : EncodingMap}

/-! ## What the planned packets are -/

section

variable {object : Bytes} {session : SessionParams} {config : SendConfig} {numTotal : Nat}

/-- The symbols of the source packets, put end to end, are the padded object. -/
theorem source_symbols (faithful : eng.Faithful encode) {spec : TransferSpec}
    (hcarries : spec.Carries object) :
    (((List.range spec.sourceK).map fun i => spec.packet encode object ⟨i, i⟩).map
        (·.symbol)).flatten =
      object ++ List.replicate (spec.sourceK * spec.symbolSizeT.toNat - object.length) 0 := by
  have hblock : ((List.range spec.sourceK).map fun i => spec.packet encode object ⟨i, i⟩).map
      (·.symbol) = spec.block object := by
    rw [List.map_map]
    refine List.ext_getElem (by simp [hcarries.isBlock.1]) fun i hi hi' => ?_
    have hk : i < spec.sourceK := by simpa using hi
    obtain ⟨_, hsystematic⟩ := List.getElem?_eq_some_iff.mp
      (faithful.systematic spec.codec hcarries.isBlock hk)
    rw [hsystematic, List.getElem_map, List.getElem_range]
    rfl
  rw [hblock]
  exact blockOf_flatten (zeroPadded_length hcarries.length_le)

/-- Repair symbols whose ESIs fit in a `u32` are few enough to have room. -/
theorem room_of_u32 {spec : TransferSpec} {n : Nat}
    (hesi : ∀ j < n, (spec.codecKind.repairIdsAt spec.sourceK numTotal j).esi < 2 ^ 32) :
    n * packetBytes ≤ isizeMax := by
  have hn : n ≤ 2 ^ 32 := by
    refine Nat.le_of_not_lt fun hlarge => ?_
    have hlast := le_repairIdsAt_esi spec.codecKind spec.sourceK numTotal (2 ^ 32)
    exact Nat.not_le.mpr (hesi (2 ^ 32) hlarge) hlast
  exact Nat.le_trans (Nat.mul_le_mul_right _ hn) (by decide)

/-- Repair ESIs count up from a number that is not below `K`. -/
theorem repairEsi_eq {spec : TransferSpec} (hle : spec.sourceK ≤ numTotal) :
    ∃ first, spec.sourceK ≤ first ∧
      ∀ j, (spec.codecKind.repairIdsAt spec.sourceK numTotal j).esi = first + j := by
  cases spec.codecKind with
  | raptorQ => exact ⟨spec.sourceK, Nat.le_refl _, fun _ => rfl⟩
  | raptor10 => exact ⟨numTotal, hle, fun _ => rfl⟩

/-- Source ESIs and repair ESIs are all different. -/
theorem esis_nodup {k first n : Nat} (h : k ≤ first) :
    (List.range k ++ (List.range n).map (first + ·)).Nodup := by
  rw [List.nodup_append]
  refine ⟨List.nodup_range, ?_, fun i hi e he => ?_⟩
  · exact List.Pairwise.map _ (fun _ _ hne heq => hne (Nat.add_left_cancel heq)) List.nodup_range
  · obtain ⟨j, _, rfl⟩ := List.mem_map.mp he
    have hi := List.mem_range.mp hi
    omega

end

/-! ## Transmitting it -/

/-- With a socket that never fails, the sender transmits the metadata, the source packets
`source` and the repair packets `repair`, and these are the complete plan: every source
symbol once, in order, then `repair_rounds * repair_count` repair symbols that are one
range, without a repeated ESI. -/
structure TransmitsPlan (eng : Engines) (object : Bytes) (session : SessionParams)
    (config : SendConfig) (progress : Bool) (source repair : List TransferPacket) : Prop where
  succeeds : (sendObjectWithSocketImpl eng sendAlways object session config progress).result =
    .ok (.ok ())
  wire : (sendObjectWithSocketImpl eng sendAlways object session config progress).wire =
    metaFrame session :: (source ++ repair).map (packetFrame session.sessionId)
  sourceEsis : source.map (·.esi.toNat) = List.range session.spec.sourceK
  symbols : (source.map (·.symbol)).flatten = object ++ List.replicate
    (session.spec.sourceK * session.spec.symbolSizeT.toNat - object.length) 0
  repairEsis : ∃ first, session.spec.sourceK ≤ first ∧ repair.map (·.esi.toNat) =
    (List.range (config.repairRounds.toNat * config.repairCount.toNat)).map (first + ·)
  distinct : ((source ++ repair).map (·.esi.toNat)).Nodup
  onWire : ∀ packet ∈ source ++ repair, packet.sbn = 0 ∧ packet.esi.toNat < 2 ^ 32
  oneRange : ∃ enc enc', TransferEncoderImpl.new eng session.spec object = .ok (.ok enc) ∧
    enc.repairPackets 0 (config.repairRounds.toNat * config.repairCount.toNat) = .ok (enc', repair)
  expected : expectedSourceSymbols session.spec = .ok source.length

section

variable {object : Bytes} {session : SessionParams} {config : SendConfig} {progress : Bool}

theorem repair_esi {spec : TransferSpec} {numTotal j : Nat}
    (hesi : (spec.codecKind.repairIdsAt spec.sourceK numTotal j).esi < 2 ^ 32) :
    (spec.repairPacket encode object numTotal j).esi.toNat =
      (spec.codecKind.repairIdsAt spec.sourceK numTotal j).esi := by
  refine packet_esi (Nat.le_of_lt (Nat.lt_trans hesi ?_))
  decide

/-- A fresh encoder computes the first `n` repair symbols as one range. -/
theorem repairPackets_oneRange (faithful : eng.Faithful encode) (encodes : eng.Encodes)
    (totals : eng.TotalsFit) {spec : TransferSpec} {numTotal n : Nat}
    (hcarries : spec.Carries object) (hbuilds : eng.BuildsEncoder spec object)
    (htotal : eng.numTotal spec = .ok numTotal) (hroom : n * packetBytes ≤ isizeMax) :
    ∃ enc enc', TransferEncoderImpl.new eng spec object = .ok (.ok enc) ∧
      enc.repairPackets 0 n =
        .ok (enc', (List.range n).map (spec.repairPacket encode object numTotal)) := by
  obtain ⟨enc, hnew⟩ := (TransferEncoderImpl.new_iff
    (validateSpec_eq_ok.mpr ⟨hcarries.length_pos, hcarries.symbol_pos⟩) hcarries.length).mpr
      ⟨hcarries.padded, hbuilds⟩
  obtain ⟨hspec, hserves⟩ := (TransferEncoderImpl.Constructed.new hnew).serves
  have henc : eng.numTotal enc.spec = .ok numTotal := hspec ▸ htotal
  have hrange : ∀ j < n, numTotal + (0 + j) ≤ usizeMax ∧ enc.spec.sourceK + (0 + j) ≤ usizeMax := by
    intro j hj
    rw [Nat.zero_add]
    exact repairIds_of_room totals henc hroom hj
  obtain ⟨enc', packets, hout⟩ :=
    TransferEncoderImpl.repairPackets_returns encodes hserves henc hroom hrange
  obtain ⟨_, _, _, _, htotal', _, hpackets⟩ :=
    TransferEncoderImpl.repairPackets_eq_ok faithful hserves hout
  cases henc.symm.trans htotal'
  refine ⟨enc, enc', hnew, ?_⟩
  rw [hout, hpackets, hspec]
  simp only [Nat.zero_add]
  rfl

/-- A plan within the limits is transmitted completely. -/
theorem transmitsPlan_of_builds (faithful : eng.Faithful encode) (encodes : eng.Encodes)
    (totals : eng.TotalsFit) {numTotal : Nat} (hcarries : session.spec.Carries object)
    (hbuilds : eng.BuildsEncoder session.spec object)
    (htotal : eng.numTotal session.spec = .ok numTotal)
    (hsize : session.spec.symbolSizeT.toNat ≤ 65478)
    (hesi : ∀ j < config.repairRounds.toNat * config.repairCount.toNat,
      (session.spec.codecKind.repairIdsAt session.spec.sourceK numTotal j).esi < 2 ^ 32) :
    TransmitsPlan eng object session config progress
      ((List.range session.spec.sourceK).map fun i => session.spec.packet encode object ⟨i, i⟩)
      ((List.range (config.repairRounds.toNat * config.repairCount.toNat)).map
        (session.spec.repairPacket encode object numTotal)) := by
  have hroom : config.Fits := room_of_u32 hesi
  have hplan := sendPlan_eq faithful encodes totals hcarries hbuilds htotal hroom
  obtain ⟨hresult, hwire⟩ := sendObject_fits faithful progress hplan hsize
  obtain ⟨hle, hsmall⟩ := totals.of_numTotal htotal
  obtain ⟨first, hfirst, hids⟩ := @repairEsi_eq numTotal session.spec hle
  have hsourceEsis : ((List.range session.spec.sourceK).map fun i =>
      session.spec.packet encode object ⟨i, i⟩).map (·.esi.toNat) =
        List.range session.spec.sourceK := by
    rw [List.map_map]
    exact (List.map_congr_left fun i hi => source_esi (List.mem_range.mp hi)).trans (List.map_id _)
  have hrepairEsis : ((List.range (config.repairRounds.toNat * config.repairCount.toNat)).map
      (session.spec.repairPacket encode object numTotal)).map (·.esi.toNat) =
        (List.range (config.repairRounds.toNat * config.repairCount.toNat)).map (first + ·) := by
    rw [List.map_map]
    refine List.map_congr_left fun j hj => ?_
    exact (repair_esi (hesi j (List.mem_range.mp hj))).trans (hids j)
  refine {
    succeeds := hresult
    wire := hwire
    sourceEsis := hsourceEsis
    symbols := source_symbols faithful hcarries
    repairEsis := ⟨first, hfirst, hrepairEsis⟩
    distinct := ?_
    onWire := fun packet hmem => ?_
    oneRange := repairPackets_oneRange faithful encodes totals hcarries hbuilds htotal hroom
    expected := ?_ }
  · rw [List.map_append, hsourceEsis, hrepairEsis]
    exact esis_nodup hfirst
  · rcases List.mem_append.mp hmem with hmem | hmem
    · obtain ⟨i, hi, rfl⟩ := List.mem_map.mp hmem
      have hk : i < session.spec.sourceK := List.mem_range.mp hi
      refine ⟨rfl, ?_⟩
      rw [source_esi hk]
      omega
    · obtain ⟨j, hj, rfl⟩ := List.mem_map.mp hmem
      have hj := hesi j (List.mem_range.mp hj)
      refine ⟨rfl, ?_⟩
      rw [repair_esi hj]
      exact hj
  · rw [expectedSourceSymbols_eq hcarries.symbol_pos, List.length_map, List.length_range]

/-- For both codecs, every valid session with `T` at most 65478, every matching object and
every `repair_rounds` and `repair_count` for which no repair ESI exceeds a `u32`: the plan
is transmitted completely and without repetition exactly when the engine has an encoder for
`K` symbols of `T` bytes. -/
theorem transmits_plan_iff {limits : BuildLimits} (faithful : eng.Faithful encode)
    (encodes : eng.Encodes) (builds : eng.Builds limits) (totals : eng.TotalsFit)
    (hvalid : validateSpec session.spec = .ok ())
    (hlength : object.length = session.spec.transferLengthF.toNat)
    (hsize : session.spec.symbolSizeT.toNat ≤ 65478)
    (hesi : ∀ numTotal, eng.numTotal session.spec = .ok numTotal →
      ∀ j < config.repairRounds.toNat * config.repairCount.toNat,
        (session.spec.codecKind.repairIdsAt session.spec.sourceK numTotal j).esi < 2 ^ 32) :
    (∃ source repair, TransmitsPlan eng object session config progress source repair) ↔
      limits.encoder session.spec.codec session.spec.sourceK session.spec.symbolSizeT.toNat := by
  obtain ⟨hf, ht⟩ := validateSpec_eq_ok.mp hvalid
  rw [← builds.encoder_iff ht hlength]
  constructor
  · rintro ⟨_, _, h⟩
    obtain ⟨enc, _, hnew, _⟩ := h.oneRange
    exact ((TransferEncoderImpl.new_iff hvalid hlength).mp ⟨enc, hnew⟩).2
  · intro hbuilds
    obtain ⟨numTotal, htotal⟩ := hbuilds.exists_numTotal
    have hcarries : session.spec.Carries object :=
      ⟨hf, ht, hlength, totals.padded htotal (Nat.le_trans hsize (by decide))⟩
    exact ⟨_, _, transmitsPlan_of_builds faithful encodes totals hcarries hbuilds htotal hsize
      (hesi numTotal htotal)⟩

end

open Repetition in
/-- Four Raptor10 symbols and two rounds of three repair symbols, with a callback. -/
theorem transmits_plan_four :
    ∃ source repair, TransmitsPlan engines [1, 2, 3, 4] ⟨7, spec10⟩ ⟨3, 2⟩ true source repair := by
  refine (@transmits_plan_iff _ _ [1, 2, 3, 4] ⟨7, spec10⟩ ⟨3, 2⟩ true _ engines_faithful
    engines_encodes engines_builds engines_totals rfl rfl (by decide) ?_).mpr
      ⟨rfl, rfl, by decide⟩
  intro numTotal htotal j hj
  have htotal : 14 = numTotal := Except.ok.inj htotal
  have hj : j < 2 * 3 := hj
  show numTotal + j < 2 ^ 32
  omega

open Repetition in
/-- An object of 56404 bytes in symbols of one byte by RaptorQ: the session is valid, and
nothing is transmitted because the encoder cannot be constructed. -/
theorem raptorQ_56404_untransmitted :
    validateSpec specLong = .ok () ∧ ∀ object : Bytes, object.length = 56404 →
      (sendObjectWithSocketImpl engines sendAlways object ⟨7, specLong⟩ ⟨0, 0⟩ false).result =
        .error (.engine "unsupported number of source symbols") ∧
      (sendObjectWithSocketImpl engines sendAlways object ⟨7, specLong⟩ ⟨0, 0⟩ false).wire = [] ∧
      ¬ ∃ source repair, TransmitsPlan engines object ⟨7, specLong⟩ ⟨0, 0⟩ false source repair := by
  refine ⟨rfl, fun object hlength => ?_⟩
  have hplan : sendPlan engines object ⟨7, specLong⟩ ⟨0, 0⟩ =
      .error (.engine "unsupported number of source symbols") := by
    rw [sendPlan, encoderLong_panics hlength]
    rfl
  have hrun : sendObjectWithSocketImpl engines sendAlways object ⟨7, specLong⟩ ⟨0, 0⟩ false =
      ⟨[], [], .error (.engine "unsupported number of source symbols")⟩ := by
    simp only [sendObjectWithSocketImpl, hplan]
  refine ⟨congrArg SendRun.result hrun, congrArg SendRun.wire hrun, ?_⟩
  rintro ⟨_, _, h⟩
  cases (congrArg SendRun.result hrun).symm.trans h.succeeds

end FountainTransfer
