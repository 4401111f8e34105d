import FountainTransfer.Transmission
import Mathlib.Data.List.TakeWhile

/-!
# The facade encoder under any calls

An encoder keeps what its engine prepared for earlier calls. No answer depends on it: the
packets handed out are those of a table, indexed by the numbers of the call.

1. `encoder_answers`: the answers to any calls, and which call panics.
2. `esi_names_packet`: whatever two encoders of one object were asked, packets with the
   same ESI are the same packet.
-/

namespace FountainTransfer

open ErasureCode HaltingMachine

inductive EncoderCall
  | sourcePackets
  | repairPackets (startRepairIndex count : Nat)
deriving DecidableEq, Repr

/-- The panic of a call: more packets than a vector can hold, or a coded id above
`usize::MAX`. -/
def EncoderCall.panic (numTotal : Nat) : EncoderCall → Option Panic
  | .sourcePackets => none
  | .repairPackets startRepairIndex count =>
    if isizeMax < count * packetBytes then some .capacity
    else if count = 0 ∨ numTotal + (startRepairIndex + count) ≤ usizeMax + 1 then none
    else some .overflow

/-- The packets a call asks for. -/
def TransferSpec.asked (spec : TransferSpec) (encode : EncodingMap) (object : Bytes)
    (numTotal : Nat) : EncoderCall → List TransferPacket
  | .sourcePackets => (List.range spec.sourceK).map fun i => spec.packet encode object ⟨i, i⟩
  | .repairPackets startRepairIndex count => (List.range count).map fun i =>
    spec.repairPacket encode object numTotal (startRepairIndex + i)

variable {eng : Engines} {encode : EncodingMap}

/-- One call. -/
def TransferEncoderImpl.call (enc : TransferEncoderImpl eng) :
    EncoderCall → Out (TransferEncoderImpl eng) (List TransferPacket) Panic
  | .sourcePackets => ⟨enc, [enc.sourcePackets], none⟩
  | .repairPackets startRepairIndex count =>
    match enc.repairPackets startRepairIndex count with
    | .error panic => ⟨enc, [], some panic⟩
    | .ok (enc', packets) => ⟨enc', [packets], none⟩

/-! ## The table -/

section

variable {spec : TransferSpec} {object : Bytes} {numTotal start count more : Nat}

/-- Two adjacent ranges of repair symbols are one range. -/
theorem asked_append : spec.asked encode object numTotal (.repairPackets start (count + more)) =
    spec.asked encode object numTotal (.repairPackets start count) ++
      spec.asked encode object numTotal (.repairPackets (start + count) more) := by
  simp only [TransferSpec.asked, List.range_add, List.map_append, List.map_map]
  refine congrArg _ (List.map_congr_left fun i _ => ?_)
  simp only [Function.comp_apply, Nat.add_assoc]

theorem panic_eq_none : EncoderCall.panic numTotal (.repairPackets start count) = none ↔
    count * packetBytes ≤ isizeMax ∧ ∀ i < count, numTotal + (start + i) ≤ usizeMax := by
  simp only [EncoderCall.panic]
  split
  · next hlarge => simp [Nat.not_le.mpr hlarge]
  · next hroom =>
    have hroom : count * packetBytes ≤ isizeMax := Nat.not_lt.mp hroom
    split
    · next hfit =>
      refine iff_of_true rfl ⟨hroom, fun i hi => ?_⟩
      omega
    · next hfit =>
      refine iff_of_false (fun h => nomatch h) fun h => ?_
      -- the last id of the range is too large
      have hlast := h.2 (count - 1) (by omega)
      omega

/-- Packets of the table are packets of ids the encoder computes. -/
theorem emitted_of_asked (hle : spec.sourceK ≤ numTotal) {call : EncoderCall}
    (hfits : call.panic numTotal = none) {packet : TransferPacket}
    (hmem : packet ∈ spec.asked encode object numTotal call) :
    ∃ ids, EmittedIds spec.codecKind spec.sourceK numTotal ids ∧
      packet = spec.packet encode object ids := by
  cases call with
  | sourcePackets =>
    obtain ⟨i, hi, rfl⟩ := List.mem_map.mp hmem
    exact ⟨_, .source (List.mem_range.mp hi), rfl⟩
  | repairPackets start count =>
    obtain ⟨i, hi, rfl⟩ := List.mem_map.mp hmem
    have hcoded := (panic_eq_none.mp hfits).2 i (List.mem_range.mp hi)
    exact ⟨_, .repair (repairIds_of_fit hcoded (by omega)), rfl⟩

/-- The ESI of an id the encoder computes tells its coded id. -/
theorem emitted_inj {ids ids' : RepairIds} (h : EmittedIds spec.codecKind spec.sourceK numTotal ids)
    (h' : EmittedIds spec.codecKind spec.sourceK numTotal ids')
    (hesi : (spec.packet encode object ids).esi = (spec.packet encode object ids').esi) :
    ids = ids' := by
  have hnat : ids.esi = ids'.esi := by
    rw [← emitted_esi_toNat h, ← emitted_esi_toNat h']
    exact congrArg UInt64.toNat hesi
  have hcoded : ids.codedId = ids'.codedId := by
    have hself := codedId_of_emitted h
    rw [hnat, codedId_of_emitted h'] at hself
    exact (Except.ok.inj hself).symm
  cases ids
  cases ids'
  cases hnat
  cases hcoded
  rfl

end

/-! ## Panics -/

theorem repairIds_panic {kind : CodecKind} {k numTotal start i : Nat} {panic : Panic}
    (h : kind.repairIds k numTotal start i = .error panic) : panic = .overflow := by
  cases kind with
  | raptorQ =>
    rcases bind_eq_error.mp h with h | ⟨_, _, h⟩
    · exact addUsize_eq_error h
    · rcases bind_eq_error.mp h with h | ⟨_, _, h⟩
      · exact addUsize_eq_error h
      · rcases bind_eq_error.mp h with h | ⟨_, _, h⟩
        · exact addUsize_eq_error h
        · cases h
  | raptor10 =>
    rcases bind_eq_error.mp h with h | ⟨_, _, h⟩
    · exact addUsize_eq_error h
    · rcases bind_eq_error.mp h with h | ⟨_, _, h⟩
      · exact addUsize_eq_error h
      · cases h

/-- Where the engine can prepare every id it is asked for, only the ids panic. -/
theorem BlockEncoder.repairLoop_panic {Config : Type} {ops : DataOperators}
    {eng : Engine ops.Operator Config} (encodes : eng.Encodes ops) {ids : Nat → Call RepairIds}
    {block : List Bytes} {panic : Panic} :
    ∀ {is : List Nat} {enc : BlockEncoder eng}, enc.Serves block →
      (∀ i ∈ is, ∀ id, ids i = .ok id → enc.numTotal ≤ id.codedId) →
      enc.repairLoop ids is = .error panic → ∃ i ∈ is, ids i = .error panic
  | [], _, _, _, h => nomatch h
  | i :: is, enc, hs, hpast, h => by
    rw [BlockEncoder.repairLoop] at h
    rcases bind_eq_error.mp h with hi | ⟨id, hi, h⟩
    · exact ⟨i, List.mem_cons_self, hi⟩
    · obtain ⟨scheme, hscheme, htotal⟩ := hs.scheme
      obtain ⟨encoder, hprepared⟩ :=
        encodes hscheme hs.serves (htotal ▸ hpast i List.mem_cons_self id hi)
      have hs' : BlockEncoder.Serves { enc with encoder } block :=
        ⟨hs.scheme, hs.isBlock, .prepared hs.serves hprepared⟩
      rw [hprepared] at h
      rcases bind_eq_error.mp h with hrest | ⟨_, _, h⟩
      · obtain ⟨j, hj, hjp⟩ := BlockEncoder.repairLoop_panic encodes hs'
          (fun j hj => hpast j (List.mem_cons_of_mem _ hj)) hrest
        exact ⟨j, List.mem_cons_of_mem _ hj, hjp⟩
      · cases h

/-- Room for the packets is reserved before the first id is computed. -/
theorem BlockEncoder.collectRepair_panic {Config : Type} {ops : DataOperators}
    {eng : Engine ops.Operator Config} (encodes : eng.Encodes ops) {ids : Nat → Call RepairIds}
    {block : List Bytes} {enc : BlockEncoder eng} {count : Nat} {panic : Panic} (hs : enc.Serves block)
    (hpast : ∀ i id, ids i = .ok id → enc.numTotal ≤ id.codedId)
    (h : enc.collectRepair ids count = .error panic) :
    (isizeMax < count * packetBytes ∧ panic = .capacity) ∨
      (count * packetBytes ≤ isizeMax ∧ ∃ i, ids i = .error panic) := by
  unfold BlockEncoder.collectRepair at h
  by_cases hroom : count * packetBytes ≤ isizeMax
  · have hok : withCapacity (count * packetBytes) = .ok () := withCapacity_eq_ok.mpr hroom
    rw [hok, ok_bind] at h
    obtain ⟨i, _, hi⟩ := BlockEncoder.repairLoop_panic encodes hs (fun i _ => hpast i) h
    exact .inr ⟨hroom, i, hi⟩
  · have hfail : withCapacity (count * packetBytes) = .error .capacity := if_neg hroom
    rw [hfail] at h
    cases h
    exact .inl ⟨Nat.not_le.mp hroom, rfl⟩

/-- A call that panics does so before it returns any packet. -/
theorem TransferEncoderImpl.repairPackets_panic (encodes : eng.Encodes)
    {enc : TransferEncoderImpl eng} {object : Bytes} {start count : Nat} {panic : Panic}
    (h : enc.Serves object) (hpanic : enc.repairPackets start count = .error panic) :
    (isizeMax < count * packetBytes ∧ panic = .capacity) ∨
      (count * packetBytes ≤ isizeMax ∧ panic = .overflow) := by
  obtain ⟨_, hserves⟩ := h
  cases enc with
  | raptorQ enc spec =>
    obtain ⟨_, _, _, _, _, hserves⟩ := hserves
    rcases bind_eq_error.mp hpanic with hcollect | ⟨_, _, h⟩
    · refine (BlockEncoder.collectRepair_panic encodes.raptorQ hserves (fun i ids hi => ?_)
        hcollect).imp id fun ⟨hroom, i, hi⟩ => ⟨hroom, @repairIds_panic .raptorQ _ _ _ _ _ hi⟩
      obtain ⟨rfl, _⟩ := @repairIds_eq_ok .raptorQ _ _ _ _ _ hi
      exact Nat.le_add_right _ _
    · cases h
  | raptor10 enc spec =>
    obtain ⟨_, _, _, _, hserves⟩ := hserves
    rcases bind_eq_error.mp hpanic with hcollect | ⟨_, _, h⟩
    · refine (BlockEncoder.collectRepair_panic encodes.raptor10 hserves (fun i ids hi => ?_)
        hcollect).imp id fun ⟨hroom, i, hi⟩ =>
          ⟨hroom, @repairIds_panic .raptor10 spec.sourceK _ _ _ _ hi⟩
      obtain ⟨rfl, _⟩ := @repairIds_eq_ok .raptor10 spec.sourceK _ _ _ _ hi
      exact Nat.le_add_right _ _
    · cases h

/-! ## One call -/

/-- `enc` serves `object` and is an encoder of `spec`, whose scheme has `numTotal` ids that
are taken. -/
structure TransferEncoderImpl.Stocked (spec : TransferSpec) (object : Bytes) (numTotal : Nat)
    (enc : TransferEncoderImpl eng) : Prop where
  isFor : enc.spec = spec
  serves : enc.Serves object
  total : eng.numTotal spec = .ok numTotal

section

variable {spec : TransferSpec} {object : Bytes} {numTotal : Nat} {enc : TransferEncoderImpl eng}
  {call : EncoderCall}

theorem TransferEncoderImpl.Constructed.stocked (h : Constructed eng spec object enc)
    (htotal : eng.numTotal spec = .ok numTotal) : enc.Stocked spec object numTotal :=
  ⟨h.serves.1, h.serves.2, htotal⟩

theorem TransferEncoderImpl.Stocked.answers (faithful : eng.Faithful encode) (encodes : eng.Encodes)
    (totals : eng.TotalsFit) (h : enc.Stocked spec object numTotal)
    (hfits : call.panic numTotal = none) :
    (enc.call call).events = [spec.asked encode object numTotal call] ∧
      (enc.call call).halt = none ∧ (enc.call call).state.Stocked spec object numTotal := by
  obtain ⟨rfl, hserves, htotal⟩ := h
  cases call with
  | sourcePackets =>
    refine ⟨?_, rfl, rfl, hserves, htotal⟩
    rw [TransferEncoderImpl.call, TransferEncoderImpl.sourcePackets_eq faithful hserves]
    rfl
  | repairPackets start count =>
    obtain ⟨hle, _⟩ := totals.of_numTotal htotal
    obtain ⟨hroom, hcoded⟩ := panic_eq_none.mp hfits
    have hfit : ∀ i < count, numTotal + (start + i) ≤ usizeMax ∧
        enc.spec.sourceK + (start + i) ≤ usizeMax := by
      intro i hi
      have hcoded := hcoded i hi
      omega
    obtain ⟨enc', packets, hout⟩ :=
      TransferEncoderImpl.repairPackets_returns encodes hserves htotal hroom hfit
    obtain ⟨hspec, hserves', _, numTotal', htotal', _, rfl⟩ :=
      TransferEncoderImpl.repairPackets_eq_ok faithful hserves hout
    cases htotal.symm.trans htotal'
    simp only [TransferEncoderImpl.call, hout]
    exact ⟨rfl, trivial, hspec, hserves', htotal⟩

theorem TransferEncoderImpl.Stocked.stops (encodes : eng.Encodes)
    (h : enc.Stocked spec object numTotal) {panic : Panic} (hpanic : call.panic numTotal = some panic) :
    (enc.call call).events = [] ∧ (enc.call call).halt = some panic := by
  obtain ⟨rfl, hserves, htotal⟩ := h
  cases call with
  | sourcePackets => cases hpanic
  | repairPackets start count =>
    have hnot : ¬ (count * packetBytes ≤ isizeMax ∧ ∀ i < count, numTotal + (start + i) ≤ usizeMax) := by
      rw [← panic_eq_none, hpanic]
      exact fun h => nomatch h
    rw [TransferEncoderImpl.call]
    match hout : enc.repairPackets start count with
    | .error panic' =>
      refine ⟨rfl, congrArg some ?_⟩
      simp only [EncoderCall.panic] at hpanic
      rcases TransferEncoderImpl.repairPackets_panic encodes hserves hout with
        ⟨hlarge, rfl⟩ | ⟨hroom, rfl⟩
      · rw [if_pos hlarge] at hpanic
        exact Option.some.inj hpanic
      · rw [if_neg (Nat.not_lt.mpr hroom)] at hpanic
        split at hpanic
        · cases hpanic
        · exact Option.some.inj hpanic
    | .ok (enc', packets) =>
      obtain ⟨_, _, hroom, numTotal', htotal', hids, _⟩ :=
        TransferEncoderImpl.repairPackets_emitted hserves hout
      cases htotal.symm.trans htotal'
      refine absurd ⟨hroom, fun i hi => ?_⟩ hnot
      obtain ⟨_, hcoded, _⟩ := repairIds_eq_ok (hids i hi)
      rw [repairIdsAt_codedId] at hcoded
      exact hcoded

theorem TransferEncoderImpl.Stocked.halt (faithful : eng.Faithful encode) (encodes : eng.Encodes)
    (totals : eng.TotalsFit) (h : enc.Stocked spec object numTotal) :
    (enc.call call).halt = call.panic numTotal := by
  cases hpanic : call.panic numTotal with
  | none => exact (h.answers faithful encodes totals hpanic).2.1
  | some panic => exact (h.stops encodes hpanic).2

end

/-! ## Whole runs -/

section

variable {spec : TransferSpec} {object : Bytes} {numTotal : Nat} {enc enc' : TransferEncoderImpl eng}

theorem TransferEncoderImpl.Stocked.run (faithful : eng.Faithful encode) (encodes : eng.Encodes)
    (totals : eng.TotalsFit) (h : enc.Stocked spec object numTotal) (calls : List EncoderCall) :
    (run TransferEncoderImpl.call enc calls).events =
        (calls.takeWhile fun call => (call.panic numTotal).isNone).map
          (spec.asked encode object numTotal) ∧
      (run TransferEncoderImpl.call enc calls).halt = calls.findSome? (·.panic numTotal) := by
  have hgoes : ∀ (s : TransferEncoderImpl eng) (call : EncoderCall),
      s.Stocked spec object numTotal → call.panic numTotal = none →
      (s.call call).events = [spec.asked encode object numTotal call] ∧
        (s.call call).halt = none ∧ (s.call call).state.Stocked spec object numTotal :=
    fun _ _ h hfits => h.answers faithful encodes totals hfits
  have hstops : ∀ (s : TransferEncoderImpl eng) (call : EncoderCall) (panic : Panic),
      s.Stocked spec object numTotal → call.panic numTotal = some panic →
      (s.call call).events = [] ∧ (s.call call).halt = some panic :=
    fun _ _ _ h hpanic => h.stops encodes hpanic
  have hevents := run_answers hgoes hstops calls h
  rw [← List.map_eq_flatMap] at hevents
  refine ⟨hevents, run_stops (fun s call hs => ?_) calls h⟩
  have hhalt : (s.call call).halt = call.panic numTotal := hs.halt faithful encodes totals
  exact ⟨hhalt, fun hgo => (hs.answers faithful encodes totals (hhalt.symm.trans hgo)).2.2⟩

/-- For both codecs, both constructors, every object and every sequence of calls: each call
up to the first that panics is answered with the packets it asks for, whatever was asked
before. A call panics exactly when its packets are too many for a vector, or one of its ids
overflows. -/
theorem encoder_answers (faithful : eng.Faithful encode) (encodes : eng.Encodes)
    (totals : eng.TotalsFit) (henc : TransferEncoderImpl.Constructed eng spec object enc)
    (htotal : eng.numTotal spec = .ok numTotal) (calls : List EncoderCall) :
    (run TransferEncoderImpl.call enc calls).events =
        (calls.takeWhile fun call => (call.panic numTotal).isNone).map
          (spec.asked encode object numTotal) ∧
      (run TransferEncoderImpl.call enc calls).halt = calls.findSome? (·.panic numTotal) :=
  (henc.stocked htotal).run faithful encodes totals calls

/-- Every packet a run hands out belongs to ids the encoder computes. -/
theorem TransferEncoderImpl.Stocked.emitted (faithful : eng.Faithful encode) (encodes : eng.Encodes)
    (totals : eng.TotalsFit) (h : enc.Stocked spec object numTotal) {calls : List EncoderCall}
    {packet : TransferPacket}
    (hmem : packet ∈ (HaltingMachine.run TransferEncoderImpl.call enc calls).events.flatten) :
    ∃ ids, EmittedIds spec.codecKind spec.sourceK numTotal ids ∧
      packet = spec.packet encode object ids := by
  rw [(h.run faithful encodes totals calls).1] at hmem
  obtain ⟨packets, hpackets, hmem⟩ := List.mem_flatten.mp hmem
  obtain ⟨call, hcall, rfl⟩ := List.mem_map.mp hpackets
  have hfits : (call.panic numTotal).isNone = true :=
    @List.mem_takeWhile_imp _ (fun call => (EncoderCall.panic numTotal call).isNone) _ _ hcall
  exact emitted_of_asked (totals.of_numTotal h.total).1 (Option.isNone_iff_eq_none.mp hfits) hmem

/-- For both codecs and every object: whatever was asked of two encoders of it, constructed
in any way, two packets they handed out under one ESI are the same packet. -/
theorem esi_names_packet (faithful : eng.Faithful encode) (encodes : eng.Encodes)
    (totals : eng.TotalsFit) (henc : TransferEncoderImpl.Constructed eng spec object enc)
    (henc' : TransferEncoderImpl.Constructed eng spec object enc') {calls calls' : List EncoderCall}
    {packet packet' : TransferPacket}
    (hmem : packet ∈ (run TransferEncoderImpl.call enc calls).events.flatten)
    (hmem' : packet' ∈ (run TransferEncoderImpl.call enc' calls').events.flatten)
    (hesi : packet.esi = packet'.esi) : packet = packet' := by
  obtain ⟨hspec, hserves⟩ := henc.serves
  obtain ⟨numTotal, htotal⟩ := hserves.numTotal
  rw [hspec] at htotal
  obtain ⟨ids, hids, rfl⟩ := (henc.stocked htotal).emitted faithful encodes totals hmem
  obtain ⟨ids', hids', rfl⟩ := (henc'.stocked htotal).emitted faithful encodes totals hmem'
  rw [emitted_inj hids hids' hesi]

end

open Repetition in
/-- Repair symbol 4 before the source symbols, and more packets than a vector can hold after
them. -/
theorem encoder_answers_four :
    (run TransferEncoderImpl.call encoder10
        [.repairPackets 4 1, .sourcePackets, .repairPackets 0 (2 ^ 58), .sourcePackets]).events =
      [[⟨0, 18, [3]⟩], [⟨0, 0, [1]⟩, ⟨0, 1, [2]⟩, ⟨0, 2, [3]⟩, ⟨0, 3, [4]⟩]] ∧
    (run TransferEncoderImpl.call encoder10
        [.repairPackets 4 1, .sourcePackets, .repairPackets 0 (2 ^ 58), .sourcePackets]).halt =
      some .capacity := by
  have henc : TransferEncoderImpl.Constructed engines spec10 [1, 2, 3, 4] encoder10 := .new rfl
  have hall := encoder_answers engines_faithful engines_encodes engines_totals henc
    (rfl : engines.numTotal spec10 = .ok 14)
    [.repairPackets 4 1, .sourcePackets, .repairPackets 0 (2 ^ 58), .sourcePackets]
  exact ⟨hall.1.trans (by decide), hall.2.trans (by decide)⟩

open Repetition in
/-- Repair symbol 4 alone, and out of the middle of a range. -/
theorem esi_names_packet_eighteen :
    ∃ packet ∈ (run TransferEncoderImpl.call encoder10 [.repairPackets 4 1]).events.flatten,
      ∃ packet' ∈ (run TransferEncoderImpl.call encoder10 [.repairPackets 2 4]).events.flatten,
        packet.esi = 18 ∧ packet = packet' := by
  have henc : TransferEncoderImpl.Constructed engines spec10 [1, 2, 3, 4] encoder10 := .new rfl
  have hfour : (⟨0, 18, [3]⟩ : TransferPacket) ∈
      (run TransferEncoderImpl.call encoder10 [.repairPackets 4 1]).events.flatten := by decide
  have hmiddle : (⟨0, 18, [3]⟩ : TransferPacket) ∈
      (run TransferEncoderImpl.call encoder10 [.repairPackets 2 4]).events.flatten := by decide
  exact ⟨_, hfour, _, hmiddle, rfl, esi_names_packet engines_faithful engines_encodes engines_totals
    henc henc hfour hmiddle rfl⟩

end FountainTransfer
