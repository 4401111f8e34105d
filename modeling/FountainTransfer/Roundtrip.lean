import FountainTransfer.Identity

/-!
# Encoding and decoding without a network

Results:
1. `Sent.handed`: a packet of an object is taken by every decoder of the same spec, under
   the coded id whose symbol it carries.
2. `decode_undoes_encode`: whatever packets of an object a decoder was given, in any
   order, with losses and repetitions, it recovers this object once it is done.
-/

namespace FountainTransfer

open ErasureCode

variable {eng : Engines} {encode : EncodingMap}

/-- `packet` carries a symbol of `object` under ids that an encoder of `spec` computes. -/
def TransferSpec.Sent (spec : TransferSpec) (eng : Engines) (encode : EncodingMap)
    (object : Bytes) (packet : TransferPacket) : Prop :=
  ∃ numTotal ids, eng.numTotal spec = .ok numTotal ∧
    EmittedIds spec.codecKind spec.sourceK numTotal ids ∧ packet = spec.packet encode object ids

theorem Engines.Faithful.symbol_length (faithful : eng.Faithful encode) {codec : CodecConfig}
    {k t c : Nat} {block : List Bytes} (hk : 0 < k) (hblock : IsBlock k t block) :
    (encode codec k c block).length = t := by
  cases codec with
  | raptorQ dmax ldpcType =>
    show (encode (.raptorQ (dmax, ldpcType).1 (dmax, ldpcType).2) k c block).length = t
    exact faithful.raptorQ.symbol_length hk hblock
  | raptor10 dmax => exact faithful.raptor10.symbol_length hk hblock

theorem Engines.Faithful.systematic (faithful : eng.Faithful encode) (codec : CodecConfig)
    {k t c : Nat} {block : List Bytes} (hblock : IsBlock k t block) (hc : c < k) :
    block[c]? = some (encode codec k c block) := by
  cases codec with
  | raptorQ dmax ldpcType =>
    show _ = some (encode (.raptorQ (dmax, ldpcType).1 (dmax, ldpcType).2) k c block)
    exact faithful.raptorQ.systematic hblock hc
  | raptor10 dmax => exact faithful.raptor10.systematic hblock hc

theorem TransferSpec.Sent.handed {spec : TransferSpec} {object : Bytes} {packet : TransferPacket}
    (h : spec.Sent eng encode object packet) (faithful : eng.Faithful encode)
    (hcarries : spec.Carries object) {dec : TransferDecoderImpl eng} (hdec : dec.Built)
    (hspec : dec.spec = spec) :
    dec.WellFormed packet ∧ ∃ c numTotal, dec.codedId packet.esi.toNat = .ok c ∧
      packet.symbol = encode spec.codec spec.sourceK c (spec.block object) ∧
      eng.numTotal spec = .ok numTotal ∧ Engine.Emittable spec.sourceK numTotal c := by
  obtain ⟨numTotal, ids, htotal, hids, rfl⟩ := h
  subst hspec
  have hlength : (encode dec.spec.codec dec.spec.sourceK ids.codedId (dec.spec.block object)).length =
      dec.spec.symbolSizeT.toNat :=
    faithful.symbol_length hcarries.sourceK_pos hcarries.isBlock
  have hcoded : dec.codedId (UInt64.ofNat ids.esi).toNat = .ok ids.codedId := by
    rw [emitted_esi_toNat hids, hdec.codedId_eq htotal]
    exact codedId_of_emitted hids
  exact ⟨⟨rfl, hlength⟩, ids.codedId, numTotal, hcoded, rfl, htotal, emittable_of_emitted hids⟩

/-! ## Senders without a network -/

/-- `packet` is among what some calls of `source_packets` and `repair_packets` on `enc`
hand out. -/
inductive TransferEncoderImpl.Produces : TransferEncoderImpl eng → TransferPacket → Prop
  | source {enc : TransferEncoderImpl eng} {packet : TransferPacket} :
      packet ∈ enc.sourcePackets → Produces enc packet
  | repair {enc enc' : TransferEncoderImpl eng} {start count : Nat}
      {packets : List TransferPacket} {packet : TransferPacket} :
      enc.repairPackets start count = .ok (enc', packets) → packet ∈ packets →
      Produces enc packet
  | later {enc enc' : TransferEncoderImpl eng} {start count : Nat}
      {packets : List TransferPacket} {packet : TransferPacket} :
      enc.repairPackets start count = .ok (enc', packets) → Produces enc' packet →
      Produces enc packet

theorem TransferEncoderImpl.Produces.sent (faithful : eng.Faithful encode)
    {enc : TransferEncoderImpl eng} {object : Bytes} {packet : TransferPacket}
    (hproduces : enc.Produces packet) (h : enc.Serves object) :
    enc.spec.Sent eng encode object packet := by
  induction hproduces with
  | @source enc packet hmem =>
    rw [TransferEncoderImpl.sourcePackets_eq faithful h] at hmem
    obtain ⟨i, hi, rfl⟩ := List.mem_map.mp hmem
    obtain ⟨numTotal, htotal⟩ := h.numTotal
    exact ⟨numTotal, ⟨i, i⟩, htotal, .source (List.mem_range.mp hi), rfl⟩
  | repair hrepair hmem =>
    obtain ⟨_, _, _, numTotal, htotal, hids, rfl⟩ :=
      TransferEncoderImpl.repairPackets_eq_ok faithful h hrepair
    obtain ⟨i, hi, rfl⟩ := List.mem_map.mp hmem
    exact ⟨numTotal, _, htotal, .repair (hids i (List.mem_range.mp hi)), rfl⟩
  | later hrepair _ ih =>
    obtain ⟨hspec, hserves, _⟩ := TransferEncoderImpl.repairPackets_eq_ok faithful h hrepair
    exact hspec ▸ ih hserves

/-! ## Receivers without a network -/

/-- `dec` was constructed and handed symbols of `object` only. -/
def TransferDecoderImpl.Holds (dec : TransferDecoderImpl eng) (encode : EncodingMap)
    (object : Bytes) (fed : List (Nat × Bytes)) (reports : List DecodeStatus) : Prop :=
  dec.Took fed reports ∧
    Agrees (encode dec.spec.codec dec.spec.sourceK) (dec.spec.block object) fed

/-- A packet of the object keeps the decoder on this object. -/
theorem TransferDecoderImpl.Holds.addPacket (faithful : eng.Faithful encode)
    {dec dec' : TransferDecoderImpl eng} {object : Bytes} {packet : TransferPacket}
    {status : DecodeStatus} {fed : List (Nat × Bytes)} {reports : List DecodeStatus}
    (h : dec.Holds encode object fed reports) (hcarries : dec.spec.Carries object)
    (hsent : dec.spec.Sent eng encode object packet)
    (hadd : dec.addPacket packet = .ok (.ok (dec', status))) :
    dec'.spec = dec.spec ∧ ∃ c, dec.codedId packet.esi.toNat = .ok c ∧
      dec'.Holds encode object (fed ++ [(c, packet.symbol)]) (reports ++ [status]) := by
  obtain ⟨htook, hagrees⟩ := h
  obtain ⟨_, c, _, hc, hsymbol, _⟩ := hsent.handed faithful hcarries htook.2.2.1 rfl
  obtain ⟨c', hc', hspec, htook'⟩ := htook.addPacket hadd
  cases hc.symm.trans hc'
  refine ⟨hspec, c, hc, htook', ?_⟩
  rw [hspec]
  exact hagrees.snoc hsymbol

/-- A caller that gives a decoder one packet after the other and ignores rejections. -/
def TransferDecoderImpl.addPackets : TransferDecoderImpl eng → List TransferPacket →
    Call (TransferDecoderImpl eng)
  | dec, [] => .ok dec
  | dec, packet :: rest => do
    match ← dec.addPacket packet with
    | .error _ => addPackets dec rest
    | .ok (dec, _) => addPackets dec rest

theorem TransferDecoderImpl.Holds.addPackets (faithful : eng.Faithful encode) {object : Bytes} :
    ∀ {packets : List TransferPacket} {dec dec' : TransferDecoderImpl eng}
      {fed : List (Nat × Bytes)} {reports : List DecodeStatus},
      dec.Holds encode object fed reports → dec.spec.Carries object →
      (∀ packet ∈ packets, dec.spec.Sent eng encode object packet) →
      dec.addPackets packets = .ok dec' →
      dec'.spec = dec.spec ∧ ∃ fed' reports', dec'.Holds encode object fed' reports'
  | [], _, _, fed, reports, h, _, _, hadd => by
    cases hadd
    exact ⟨rfl, fed, reports, h⟩
  | packet :: rest, dec, dec', fed, reports, h, hcarries, hsent, hadd => by
    rw [TransferDecoderImpl.addPackets, bind_eq_ok] at hadd
    obtain ⟨result, hresult, hrest⟩ := hadd
    have hsent' : ∀ p ∈ rest, dec.spec.Sent eng encode object p :=
      fun p hp => hsent p (List.mem_cons_of_mem _ hp)
    match result, hresult, hrest with
    | .error _, _, hrest => exact Holds.addPackets faithful h hcarries hsent' hrest
    | .ok (next, status), hresult, hrest =>
      obtain ⟨hspec, c, _, hnext⟩ :=
        h.addPacket faithful hcarries (hsent packet List.mem_cons_self) hresult
      rw [← hspec] at hcarries hsent' ⊢
      exact Holds.addPackets faithful hnext hcarries hsent' hrest

/-- For both codecs and every pairing of constructors. -/
theorem decode_undoes_encode (faithful : eng.Faithful encode) {spec : TransferSpec}
    {object : Bytes} {enc : TransferEncoderImpl eng} {dec dec' : TransferDecoderImpl eng}
    {packets : List TransferPacket}
    (henc : TransferEncoderImpl.Constructed eng spec object enc)
    (hdec : TransferDecoderImpl.Constructed eng spec dec)
    (hpackets : ∀ packet ∈ packets, enc.Produces packet)
    (hadd : dec.addPackets packets = .ok dec') (hstatus : dec'.decodeStatus = .decoded) :
    dec'.recoverObject = .ok (.ok object) := by
  obtain ⟨rfl, hserves⟩ := henc.serves
  obtain ⟨hspec, htook⟩ := hdec.took
  have hcarries : enc.spec.Carries object := hserves.1
  have hsent : ∀ packet ∈ packets, dec.spec.Sent eng encode object packet :=
    fun packet hmem => hspec ▸ (hpackets packet hmem).sent faithful hserves
  obtain ⟨hspec', fed, reports, htook', hagrees⟩ := TransferDecoderImpl.Holds.addPackets faithful
    ⟨htook, agrees_nil _ _⟩ (hspec ▸ hcarries) hsent hadd
  rw [hspec] at hspec'
  exact htook'.recoverObject_eq faithful (hspec' ▸ hcarries) hagrees hstatus

namespace Repetition

def encoder10 : TransferEncoderImpl engines :=
  .raptor10 ⟨[[1], [2], [3], [4]], ⟨4, 1, 4, defaultDmax⟩, 14⟩ spec10

/-- Source packets 3, 1, 1, 0 of four, and repair symbol 4 in place of source packet 2. -/
def someLost : List TransferPacket :=
  [⟨0, 3, [4]⟩, ⟨0, 1, [2]⟩, ⟨0, 1, [2]⟩, ⟨0, 18, [3]⟩, ⟨0, 0, [1]⟩]

def decoder10Fed : TransferDecoderImpl engines :=
  .raptor10 ⟨⟨4, [(3, [4]), (1, [2]), (1, [2]), (2, [3]), (0, [1])]⟩, ⟨4, 1, 4, defaultDmax⟩⟩ spec10

theorem someLost_produced : ∀ packet ∈ someLost, encoder10.Produces packet := by
  intro packet hmem
  have hcases : packet = ⟨0, 18, [3]⟩ ∨ packet ∈ encoder10.sourcePackets := by
    revert packet
    decide
  rcases hcases with rfl | hsource
  · exact @TransferEncoderImpl.Produces.repair _ _ _ 4 1 _ _ rfl List.mem_cons_self
  · exact .source hsource

end Repetition

open Repetition in
theorem decode_after_loss : decoder10Fed.recoverObject = .ok (.ok [1, 2, 3, 4]) :=
  decode_undoes_encode engines_faithful (.new rfl) decoder10_constructed someLost_produced rfl rfl

end FountainTransfer
