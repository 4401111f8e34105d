import FountainTransfer.Decoding

/-!
# Facade encoders over faithful engines

An encoder that was constructed for an object serves it, by either constructor and for
either codec. `sourcePackets_emitted` and `repairPackets_emitted` say which packets it hands out
under which ids, for any engine; over a faithful one every packet is `TransferSpec.packet`
of the object at its ids (`sourcePackets_eq`, `repairPackets_eq_ok`).
-/

namespace FountainTransfer

open ErasureCode Layout

/-! ## Ids -/

/-- The ids `repair_packets(start, _)` computes for its packet `i`. -/
def CodecKind.repairIds : CodecKind → Nat → Nat → Nat → Nat → Call RepairIds
  | .raptorQ, k, numTotal, start, i => Rfc6330Encoder.repairIds k numTotal start i
  | .raptor10, _, numTotal, start, i => Rfc5053Encoder.repairIds numTotal start i

/-- The ids of repair symbol `r`. -/
def CodecKind.repairIdsAt : CodecKind → Nat → Nat → Nat → RepairIds
  | .raptorQ, k, numTotal, r => ⟨numTotal + r, k + r⟩
  | .raptor10, _, numTotal, r => ⟨numTotal + r, numTotal + r⟩

@[simp] theorem repairIdsAt_codedId (kind : CodecKind) (k numTotal r : Nat) :
    (kind.repairIdsAt k numTotal r).codedId = numTotal + r := by
  cases kind <;> rfl

theorem le_repairIdsAt_esi (kind : CodecKind) (k numTotal r : Nat) :
    r ≤ (kind.repairIdsAt k numTotal r).esi := by
  cases kind <;> exact Nat.le_add_left r _

/-- The ids an encoder computes: source ids, and those of repair symbols where nothing
overflows. -/
inductive EmittedIds (kind : CodecKind) (k numTotal : Nat) : RepairIds → Prop
  | source {i : Nat} : i < k → EmittedIds kind k numTotal ⟨i, i⟩
  | repair {start i : Nat} {ids : RepairIds} : kind.repairIds k numTotal start i = .ok ids →
      EmittedIds kind k numTotal ids

theorem repairIds_eq_ok {kind : CodecKind} {k numTotal start i : Nat} {ids : RepairIds}
    (h : kind.repairIds k numTotal start i = .ok ids) :
    ids = kind.repairIdsAt k numTotal (start + i) ∧ ids.codedId ≤ usizeMax ∧ ids.esi ≤ usizeMax := by
  cases kind with
  | raptorQ =>
    simp only [CodecKind.repairIds, Rfc6330Encoder.repairIds, repairPayloadEsi, bind_eq_ok,
      addUsize_eq_ok, pure_eq_ok, Except.ok.injEq] at h
    obtain ⟨_, ⟨_, rfl⟩, _, ⟨hcoded, rfl⟩, _, ⟨hesi, rfl⟩, rfl⟩ := h
    exact ⟨rfl, hcoded, hesi⟩
  | raptor10 =>
    simp only [CodecKind.repairIds, Rfc5053Encoder.repairIds, bind_eq_ok, addUsize_eq_ok,
      pure_eq_ok, Except.ok.injEq] at h
    obtain ⟨_, ⟨_, rfl⟩, _, ⟨hcoded, rfl⟩, rfl⟩ := h
    simp only [CodecKind.repairIdsAt, ← Nat.add_assoc]
    exact ⟨trivial, hcoded, hcoded⟩

theorem repairIds_of_fit {kind : CodecKind} {k numTotal start i : Nat}
    (hcoded : numTotal + (start + i) ≤ usizeMax) (hesi : k + (start + i) ≤ usizeMax) :
    kind.repairIds k numTotal start i = .ok (kind.repairIdsAt k numTotal (start + i)) := by
  have hstart : numTotal + start ≤ usizeMax := by omega
  have hindex : start + i ≤ usizeMax := by omega
  cases kind with
  | raptorQ =>
    simp [CodecKind.repairIds, Rfc6330Encoder.repairIds, repairPayloadEsi, addUsize, hindex, hcoded,
      hesi, CodecKind.repairIdsAt]
  | raptor10 =>
    simp [CodecKind.repairIds, Rfc5053Encoder.repairIds, addUsize, hstart, hcoded,
      CodecKind.repairIdsAt, Nat.add_assoc]

/-- The packet that carries the symbol of an object under `ids`. -/
def TransferSpec.packet (spec : TransferSpec) (encode : EncodingMap) (object : Bytes)
    (ids : RepairIds) : TransferPacket :=
  .ofEncodingPacket (packetOf (encode spec.codec spec.sourceK · (spec.block object)) ids)

theorem packet_esi {encode : EncodingMap} {object : Bytes} {spec : TransferSpec} {ids : RepairIds}
    (h : ids.esi ≤ usizeMax) : (spec.packet encode object ids).esi.toNat = ids.esi :=
  toNat_ofNat_usize h

/-- `packet` was handed out by an encoder of `object` under `ids`: the engine's symbol for the
coded id, with the ESI. -/
def TransferSpec.Emits (spec : TransferSpec) (eng : Engines) (object : Bytes) (ids : RepairIds)
    (packet : TransferPacket) : Prop :=
  match spec.codec with
  | .raptorQ dmax ldpcType => EmittedAs eng.raptorQ ⟨spec.transferLengthF.toNat,
      spec.symbolSizeT.toNat, spec.sourceK, (dmax, ldpcType)⟩ (spec.block object) ids
      packet.toEncodingPacket
  | .raptor10 dmax => EmittedAs eng.raptor10 ⟨spec.transferLengthF.toNat, spec.symbolSizeT.toNat,
      spec.sourceK, dmax⟩ (spec.block object) ids packet.toEncodingPacket

theorem TransferSpec.Emits.eq_packet {eng : Engines} {encode : EncodingMap}
    (faithful : eng.Faithful encode) {spec : TransferSpec} {object : Bytes} {ids : RepairIds}
    {packet : TransferPacket} (h : spec.Emits eng object ids packet) :
    packet = spec.packet encode object ids := by
  have hback : packet = .ofEncodingPacket packet.toEncodingPacket := rfl
  unfold TransferSpec.Emits at h
  split at h
  · next hcodec =>
    rw [TransferSpec.packet, hcodec, hback, h.eq_packetOf faithful.raptorQ]
  · next hcodec =>
    rw [TransferSpec.packet, hcodec, hback, h.eq_packetOf faithful.raptor10]

theorem TransferSpec.Emits.ids {eng : Engines} {spec : TransferSpec} {object : Bytes}
    {ids : RepairIds} {packet : TransferPacket} (h : spec.Emits eng object ids packet) :
    packet.sbn = 0 ∧ packet.esi = UInt64.ofNat ids.esi := by
  unfold TransferSpec.Emits at h
  split at h
  · exact ⟨congrArg PayloadId.sbn h.payloadId, congrArg PayloadId.esi h.payloadId⟩
  · exact ⟨congrArg PayloadId.sbn h.payloadId, congrArg PayloadId.esi h.payloadId⟩

theorem forall₂_eq_map {α β : Type} {R : α → β → Prop} {f : α → β} {xs : List α} {ys : List β}
    (h : List.Forall₂ R xs ys) (hf : ∀ x y, R x y → y = f x) : ys = xs.map f := by
  induction h with
  | nil => rfl
  | cons hxy _ ih => rw [List.map_cons, ← ih, hf _ _ hxy]

/-- Source packet `i` has ESI `i`. -/
theorem source_esi {encode : EncodingMap} {object : Bytes} {spec : TransferSpec} {i : Nat}
    (hi : i < spec.sourceK) : (spec.packet encode object ⟨i, i⟩).esi.toNat = i :=
  packet_esi (Nat.le_trans (Nat.le_of_lt hi) (sourceK_le_usizeMax spec))

theorem mapM_eq_ok {ε α β : Type} {f : α → Except ε β} {g : α → β} :
    ∀ {xs : List α} {ys : List β}, xs.mapM f = .ok ys → (∀ x ∈ xs, ∀ y, f x = .ok y → y = g x) →
      ys = xs.map g ∧ ∀ x ∈ xs, f x = .ok (g x)
  | [], ys, h, _ => by
    cases h
    exact ⟨rfl, fun _ hx => nomatch hx⟩
  | x :: xs, ys, h, hg => by
    rw [List.mapM_cons, bind_eq_ok] at h
    obtain ⟨y, hy, h⟩ := h
    rw [bind_eq_ok] at h
    obtain ⟨ys, hys, h⟩ := h
    cases h
    have hyg : y = g x := hg x List.mem_cons_self y hy
    obtain ⟨hrest, hall⟩ := mapM_eq_ok hys fun x hx => hg x (List.mem_cons_of_mem _ hx)
    subst hyg hrest
    refine ⟨rfl, fun x' hx' => ?_⟩
    rcases List.mem_cons.mp hx' with rfl | hx'
    · exact hy
    · exact hall x' hx'

structure Engines.Encodes (eng : Engines) : Prop where
  raptorQ : eng.raptorQ.Encodes eng.ops
  raptor10 : eng.raptor10.Encodes eng.ops

structure Engines.SymbolsSized (eng : Engines) : Prop where
  raptorQ : eng.raptorQ.SymbolsSized eng.ops
  raptor10 : eng.raptor10.SymbolsSized eng.ops

theorem TransferSpec.Emits.length {eng : Engines} (sized : eng.SymbolsSized) {spec : TransferSpec}
    {object : Bytes} {ids : RepairIds} {packet : TransferPacket} (hcarries : spec.Carries object)
    (h : spec.Emits eng object ids packet) : packet.symbol.length = spec.symbolSizeT.toNat := by
  unfold TransferSpec.Emits at h
  split at h
  · exact sized.raptorQ hcarries.sourceK_pos hcarries.isBlock h.symbol
  · exact sized.raptor10 hcarries.sourceK_pos hcarries.isBlock h.symbol

namespace TransferEncoderImpl

variable {eng : Engines}

/-! ## Construction -/

/-- `enc` was constructed for `object` and handed out any repair packets since. -/
def Serves (enc : TransferEncoderImpl eng) (object : Bytes) : Prop :=
  enc.spec.Carries object ∧
    match enc with
    | .raptorQ enc spec =>
      ∃ dmax ldpcType, spec.codec = .raptorQ dmax ldpcType ∧
        enc.params = ⟨spec.transferLengthF.toNat, spec.symbolSizeT.toNat, spec.sourceK,
          (dmax, ldpcType)⟩ ∧
        eng.numTotal spec = .ok enc.numTotal ∧ enc.Serves (spec.block object)
    | .raptor10 enc spec =>
      ∃ dmax, spec.codec = .raptor10 dmax ∧
        enc.params = ⟨spec.transferLengthF.toNat, spec.symbolSizeT.toNat, spec.sourceK, dmax⟩ ∧
        eng.numTotal spec = .ok enc.numTotal ∧ enc.Serves (spec.block object)

theorem withOperator_serves {spec : TransferSpec} {object : Bytes} {operator : eng.ops.Operator}
    {enc : TransferEncoderImpl eng} (hf : 0 < spec.transferLengthF.toNat)
    (ht : 0 < spec.symbolSizeT.toNat) (hfresh : eng.ops.Fresh spec.symbolSizeT.toNat operator)
    (h : withOperator eng spec object operator = .ok enc) : enc.spec = spec ∧ enc.Serves object := by
  have hk : 0 < spec.sourceK := sourceK_pos hf ht
  unfold withOperator at h
  split at h
  · next dmax ldpcType hcodec =>
    rw [Rfc6330TransmissionParams.forObject_eq hf ht, ok_bind, bind_eq_ok] at h
    obtain ⟨encoder, hencoder, henc⟩ := h
    cases henc
    obtain ⟨hlength, _, hpadded, scheme, _, hscheme, _, hnew⟩ :=
      (BlockEncoder.newWithOperator_eq_ok hk).mp hencoder
    obtain ⟨hparams, hserves⟩ := BlockEncoder.newWithOperator_serves hk hfresh hencoder
    refine ⟨rfl, ⟨hf, ht, hlength, hpadded⟩, dmax, ldpcType, hcodec, hparams, ?_, hserves⟩
    have hscheme : eng.raptorQ.sysCode spec.sourceK (dmax, ldpcType) = .ok scheme := hscheme
    simp [Engines.numTotal, hcodec, hscheme, Except.map, hnew]
  · next dmax hcodec =>
    rw [Rfc5053TransmissionParams.forObject_eq hf ht, ok_bind, bind_eq_ok] at h
    obtain ⟨encoder, hencoder, henc⟩ := h
    cases henc
    obtain ⟨hlength, _, hpadded, scheme, _, hscheme, _, hnew⟩ :=
      (BlockEncoder.newWithOperator_eq_ok hk).mp hencoder
    obtain ⟨hparams, hserves⟩ := BlockEncoder.newWithOperator_serves hk hfresh hencoder
    refine ⟨rfl, ⟨hf, ht, hlength, hpadded⟩, dmax, hcodec, hparams, ?_, hserves⟩
    have hscheme : eng.raptor10.sysCode spec.sourceK dmax = .ok scheme := hscheme
    simp [Engines.numTotal, hcodec, hscheme, Except.map, hnew]

/-- Both constructors, with a manager or without. -/
inductive Constructed (eng : Engines) (spec : TransferSpec) (object : Bytes)
    (enc : TransferEncoderImpl eng) : Prop
  | new : TransferEncoderImpl.new eng spec object = .ok (.ok enc) → Constructed eng spec object enc
  | newWithStorageManager {manager : StorageManager eng} :
      TransferEncoderImpl.newWithStorageManager eng spec object manager = .ok (.ok enc) →
      Constructed eng spec object enc

theorem new_eq_ok {spec : TransferSpec} {object : Bytes} {enc : TransferEncoderImpl eng} :
    new eng spec object = .ok (.ok enc) ↔
      0 < spec.transferLengthF.toNat ∧ 0 < spec.symbolSizeT.toNat ∧
        object.length = spec.transferLengthF.toNat ∧
        withOperator eng spec object (eng.ops.vecDataOperater spec.symbolSizeT.toNat) =
          .ok enc := by
  unfold new
  split
  · next e he =>
    have hbad : ¬ (0 < spec.transferLengthF.toNat ∧ 0 < spec.symbolSizeT.toNat) := fun h => by
      have hok : validateSpec spec = .ok () := validateSpec_eq_ok.mpr h
      rw [he] at hok
      cases hok
    simp only [Except.ok.injEq, reduceCtorEq, false_iff]
    exact fun h => hbad ⟨h.1, h.2.1⟩
  · next he =>
    obtain ⟨hf, ht⟩ := validateSpec_eq_ok.mp he
    split
    · next hlength => simp [hlength]
    · next hlength =>
      have hlength : object.length = spec.transferLengthF.toNat := Decidable.not_not.mp hlength
      simp [bind_eq_ok, hf, ht, hlength]

theorem Constructed.serves {spec : TransferSpec} {object : Bytes} {enc : TransferEncoderImpl eng}
    (h : Constructed eng spec object enc) : enc.spec = spec ∧ enc.Serves object := by
  cases h with
  | new h =>
    obtain ⟨hf, ht, _, h⟩ := new_eq_ok.mp h
    exact withOperator_serves hf ht (eng.ops.fresh_vec _) h
  | @newWithStorageManager manager h =>
    unfold TransferEncoderImpl.newWithStorageManager at h
    split at h
    · cases h
    · next hvalid =>
      obtain ⟨hf, ht⟩ := validateSpec_eq_ok.mp hvalid
      split at h
      · cases h
      · next hsize =>
        have hsize : manager.symbolSize = spec.symbolSizeT := Decidable.not_not.mp hsize
        split at h
        · cases h
        · simp only [bind_eq_ok, pure_eq_ok, Except.ok.injEq] at h
          obtain ⟨encoder, h, rfl⟩ := h
          exact withOperator_serves hf ht (hsize ▸ manager.fresh) h

theorem Serves.numTotal {enc : TransferEncoderImpl eng} {object : Bytes} (h : enc.Serves object) :
    ∃ numTotal, eng.numTotal enc.spec = .ok numTotal := by
  cases enc with
  | raptorQ enc spec =>
    obtain ⟨_, _, _, _, _, htotal, _⟩ := h
    exact ⟨_, htotal⟩
  | raptor10 enc spec =>
    obtain ⟨_, _, _, _, htotal, _⟩ := h
    exact ⟨_, htotal⟩

/-! ## The packets it hands out -/

theorem sourcePackets_emitted {enc : TransferEncoderImpl eng} {object : Bytes}
    (h : enc.Serves object) : List.Forall₂ (fun i => enc.spec.Emits eng object ⟨i, i⟩)
      (List.range enc.spec.sourceK) enc.sourcePackets := by
  obtain ⟨_, hserves⟩ := h
  cases enc with
  | raptorQ enc spec =>
    obtain ⟨dmax, ldpcType, hcodec, hparams, _, hserves⟩ := hserves
    have hpackets := BlockEncoder.sourcePackets_emitted hserves
    rw [hparams] at hpackets
    simpa only [sourcePackets, TransferEncoderImpl.spec, TransferSpec.Emits, hcodec,
      List.forall₂_map_right_iff, toEncodingPacket_of] using hpackets
  | raptor10 enc spec =>
    obtain ⟨dmax, hcodec, hparams, _, hserves⟩ := hserves
    have hpackets := BlockEncoder.sourcePackets_emitted hserves
    rw [hparams] at hpackets
    simpa only [sourcePackets, TransferEncoderImpl.spec, TransferSpec.Emits, hcodec,
      List.forall₂_map_right_iff, toEncodingPacket_of] using hpackets

/-- `repair_packets(start, count)` hands out repair symbols `start .. start + count - 1`
and leaves an encoder that serves the same object. -/
theorem repairPackets_emitted {enc enc' : TransferEncoderImpl eng} {object : Bytes}
    {start count : Nat} {packets : List TransferPacket} (h : enc.Serves object)
    (hrepair : enc.repairPackets start count = .ok (enc', packets)) :
    enc'.spec = enc.spec ∧ enc'.Serves object ∧ count * packetBytes ≤ isizeMax ∧
      ∃ numTotal, eng.numTotal enc.spec = .ok numTotal ∧
      (∀ i < count, enc.spec.codecKind.repairIds enc.spec.sourceK numTotal start i =
        .ok (enc.spec.codecKind.repairIdsAt enc.spec.sourceK numTotal (start + i))) ∧
      List.Forall₂ (fun i => enc.spec.Emits eng object
        (enc.spec.codecKind.repairIdsAt enc.spec.sourceK numTotal (start + i)))
        (List.range count) packets := by
  obtain ⟨hcarries, hserves⟩ := h
  cases enc with
  | raptorQ enc spec =>
    obtain ⟨dmax, ldpcType, hcodec, hparams, htotal, hserves⟩ := hserves
    simp only [TransferEncoderImpl.repairPackets, bind_eq_ok, pure_eq_ok, Except.ok.injEq,
      Prod.mk.injEq] at hrepair
    obtain ⟨⟨encoder, emitted⟩, hloop, rfl, rfl⟩ := hrepair
    obtain ⟨hparams', htotal', hserves', hroom, ids, hids, hall⟩ :=
      BlockEncoder.collectRepair_emitted hserves hloop
    have hkind : spec.codecKind = .raptorQ := TransferSpec.codecKind_of_codec hcodec
    simp only [hparams] at hids hall
    obtain ⟨rfl, hcomputed⟩ := mapM_eq_ok hids fun i _ ids hi =>
      (@repairIds_eq_ok .raptorQ _ _ _ _ _ hi).1
    refine ⟨rfl, ⟨hcarries, dmax, ldpcType, hcodec, hparams'.trans hparams, ?_, hserves'⟩, hroom,
      enc.numTotal, htotal, fun i hi => ?_, ?_⟩
    · rw [htotal, htotal']
    · simp only [TransferEncoderImpl.spec, hkind]
      exact hcomputed i (List.mem_range.mpr hi)
    · simpa only [TransferEncoderImpl.spec, TransferSpec.Emits, hkind, hcodec,
        List.forall₂_map_left_iff, List.forall₂_map_right_iff, toEncodingPacket_of] using hall
  | raptor10 enc spec =>
    obtain ⟨dmax, hcodec, hparams, htotal, hserves⟩ := hserves
    simp only [TransferEncoderImpl.repairPackets, bind_eq_ok, pure_eq_ok, Except.ok.injEq,
      Prod.mk.injEq] at hrepair
    obtain ⟨⟨encoder, emitted⟩, hloop, rfl, rfl⟩ := hrepair
    obtain ⟨hparams', htotal', hserves', hroom, ids, hids, hall⟩ :=
      BlockEncoder.collectRepair_emitted hserves hloop
    have hkind : spec.codecKind = .raptor10 := TransferSpec.codecKind_of_codec hcodec
    simp only [hparams] at hall
    obtain ⟨rfl, hcomputed⟩ := mapM_eq_ok hids fun i _ ids hi =>
      (@repairIds_eq_ok .raptor10 spec.sourceK _ _ _ _ hi).1
    refine ⟨rfl, ⟨hcarries, dmax, hcodec, hparams'.trans hparams, ?_, hserves'⟩, hroom,
      enc.numTotal, htotal, fun i hi => ?_, ?_⟩
    · rw [htotal, htotal']
    · simp only [TransferEncoderImpl.spec, hkind]
      exact hcomputed i (List.mem_range.mpr hi)
    · simpa only [TransferEncoderImpl.spec, TransferSpec.Emits, hkind, hcodec,
        List.forall₂_map_left_iff, List.forall₂_map_right_iff, toEncodingPacket_of] using hall

theorem sourcePackets_eq {encode : EncodingMap} (faithful : eng.Faithful encode)
    {enc : TransferEncoderImpl eng} {object : Bytes} (h : enc.Serves object) :
    enc.sourcePackets =
      (List.range enc.spec.sourceK).map fun i => enc.spec.packet encode object ⟨i, i⟩ :=
  forall₂_eq_map (sourcePackets_emitted h) fun _ _ hemits => hemits.eq_packet faithful

theorem repairPackets_eq_ok {encode : EncodingMap} (faithful : eng.Faithful encode)
    {enc enc' : TransferEncoderImpl eng} {object : Bytes} {start count : Nat}
    {packets : List TransferPacket} (h : enc.Serves object)
    (hrepair : enc.repairPackets start count = .ok (enc', packets)) :
    enc'.spec = enc.spec ∧ enc'.Serves object ∧ count * packetBytes ≤ isizeMax ∧
      ∃ numTotal, eng.numTotal enc.spec = .ok numTotal ∧
      (∀ i < count, enc.spec.codecKind.repairIds enc.spec.sourceK numTotal start i =
        .ok (enc.spec.codecKind.repairIdsAt enc.spec.sourceK numTotal (start + i))) ∧
      packets = (List.range count).map fun i => enc.spec.packet encode object
        (enc.spec.codecKind.repairIdsAt enc.spec.sourceK numTotal (start + i)) := by
  obtain ⟨hspec, hserves, hroom, numTotal, htotal, hids, hall⟩ := repairPackets_emitted h hrepair
  exact ⟨hspec, hserves, hroom, numTotal, htotal, hids,
    forall₂_eq_map hall fun _ _ hemits => hemits.eq_packet faithful⟩

/-- Where there is room and no id overflows, `repair_packets` returns. -/
theorem repairPackets_returns (encodes : eng.Encodes) {enc : TransferEncoderImpl eng}
    {object : Bytes} {numTotal start count : Nat} (h : enc.Serves object)
    (htotal : eng.numTotal enc.spec = .ok numTotal) (hroom : count * packetBytes ≤ isizeMax)
    (hfit : ∀ i < count, numTotal + (start + i) ≤ usizeMax ∧
      enc.spec.sourceK + (start + i) ≤ usizeMax) :
    ∃ enc' packets, enc.repairPackets start count = .ok (enc', packets) := by
  obtain ⟨_, hserves⟩ := h
  have hids : ∀ (kind : CodecKind), ∀ i ∈ List.range count,
      kind.repairIds enc.spec.sourceK numTotal start i =
          .ok (kind.repairIdsAt enc.spec.sourceK numTotal (start + i)) ∧
        numTotal ≤ (kind.repairIdsAt enc.spec.sourceK numTotal (start + i)).codedId := by
    intro kind i hi
    obtain ⟨hcoded, hesi⟩ := hfit i (List.mem_range.mp hi)
    refine ⟨repairIds_of_fit hcoded hesi, ?_⟩
    rw [repairIdsAt_codedId]
    exact Nat.le_add_right _ _
  cases enc with
  | raptorQ enc spec =>
    obtain ⟨_, _, _, hparams, henc, hserves⟩ := hserves
    cases henc.symm.trans htotal
    have hk : enc.params.k = spec.sourceK := by rw [hparams]
    obtain ⟨enc', packets, hloop⟩ :=
      BlockEncoder.collectRepair_returns encodes.raptorQ hserves hroom (hids .raptorQ)
    have hrepair : Rfc6330Encoder.repairPackets enc start count = .ok (enc', packets) := by
      unfold Rfc6330Encoder.repairPackets
      rw [hk]
      exact hloop
    exact ⟨_, _, bind_eq_ok.mpr ⟨_, hrepair, rfl⟩⟩
  | raptor10 enc spec =>
    obtain ⟨_, _, _, henc, hserves⟩ := hserves
    cases henc.symm.trans htotal
    obtain ⟨enc', packets, hloop⟩ :=
      BlockEncoder.collectRepair_returns encodes.raptor10 hserves hroom (hids .raptor10)
    have hrepair : Rfc5053Encoder.repairPackets enc start count = .ok (enc', packets) := hloop
    exact ⟨_, _, bind_eq_ok.mpr ⟨_, hrepair, rfl⟩⟩

end TransferEncoderImpl

end FountainTransfer
