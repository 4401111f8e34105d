import FountainTransfer.Construction
import FountainTransfer.Padding

/-!
# The facade decoder under any calls

A facade decoder is a `HaltingMachine` that reads calls, answers each, and halts only by
a panic. Whatever packets it is given, it refuses exactly those of another block or
another symbol length, a refused packet changes nothing, and `recover_object` answers as
`decode_status` says (`facade_decoder`). The assertions of the codec and layout layers
hold throughout, and no run panics.
-/

namespace FountainTransfer

open ErasureCode Layout HaltingMachine

structure Engines.DataSized (eng : Engines) : Prop where
  raptorQ : eng.raptorQ.DataSized eng.ops
  raptor10 : eng.raptor10.DataSized eng.ops

structure Engines.Robust (eng : Engines) : Prop where
  raptorQ : eng.raptorQ.Robust eng.ops
  raptor10 : eng.raptor10.Robust eng.ops

theorem Engines.Robust.dataSized {eng : Engines} (robust : eng.Robust) : eng.DataSized where
  raptorQ := robust.raptorQ.data
  raptor10 := robust.raptor10.data

inductive DecoderCall
  | addPacket (packet : TransferPacket)
  | decodeStatus
  | recoverObject
deriving DecidableEq, Repr

inductive DecoderAnswer
  | added (result : Result TransferError DecodeStatus)
  | status (status : DecodeStatus)
  | recovered (result : Result TransferError Bytes)

/-- Every answer but a refused packet. -/
def DecoderAnswer.taken : DecoderAnswer → Bool
  | .added (.error _) => false
  | _ => true

/-- A packet of another block, or another symbol length. -/
def DecoderCall.refused (t : Nat) : DecoderCall → Bool
  | .addPacket packet => packet.sbn ≠ 0 ∨ packet.symbol.length ≠ t
  | _ => false

section

variable {eng : Engines}

/-- One call. -/
def TransferDecoderImpl.call (dec : TransferDecoderImpl eng) :
    DecoderCall → Out (TransferDecoderImpl eng) DecoderAnswer Panic
  | .addPacket packet =>
    match dec.addPacket packet with
    | .error panic => ⟨dec, [], some panic⟩
    | .ok (.error e) => ⟨dec, [.added (.error e)], none⟩
    | .ok (.ok (dec', status)) => ⟨dec', [.added (.ok status)], none⟩
  | .decodeStatus => ⟨dec, [.status dec.decodeStatus], none⟩
  | .recoverObject =>
    match dec.recoverObject with
    | .error panic => ⟨dec, [], some panic⟩
    | .ok result => ⟨dec, [.recovered result], none⟩

/-! ## Which packets are refused -/

variable {dec : TransferDecoderImpl eng} {packet : TransferPacket}

theorem addPacket_wrong_block (h : packet.sbn ≠ 0) :
    dec.addPacket packet = .ok (.error (.unsupportedSourceBlock packet.sbn)) := by
  unfold TransferDecoderImpl.addPacket
  rw [if_pos h]

theorem addPacket_wrong_length (hsbn : packet.sbn = 0)
    (h : packet.symbol.length ≠ dec.spec.symbolSizeT.toNat) :
    dec.addPacket packet =
      .ok (.error (.symbolLengthMismatch dec.spec.symbolSizeT.toNat packet.symbol.length)) := by
  unfold TransferDecoderImpl.addPacket
  rw [if_neg (not_not_intro hsbn), if_pos h]

/-- A refused packet leaves the decoder as it is, and is answered with an error. -/
theorem call_refused {call : DecoderCall}
    (h : call.refused dec.spec.symbolSizeT.toNat = true) :
    ∃ e, dec.call call = ⟨dec, [.added (.error e)], none⟩ := by
  cases call with
  | addPacket packet =>
    have hrefused : ¬ dec.WellFormed packet := fun hwell => by
      rcases of_decide_eq_true h with hsbn | hlength
      · exact hsbn hwell.1
      · exact hlength hwell.2
    obtain ⟨e, he⟩ := TransferDecoderImpl.addPacket_rejects hrefused
    exact ⟨e, by simp only [TransferDecoderImpl.call, he]⟩
  | decodeStatus => cases h
  | recoverObject => cases h

/-! ## What a decoder that took symbols of the right length does -/

/-- `dec` was constructed for `spec` and has taken symbols of `T` bytes only. -/
def TransferDecoderImpl.Sized (spec : TransferSpec) (dec : TransferDecoderImpl eng) : Prop :=
  dec.spec = spec ∧
    ∃ fed reports, dec.Took fed reports ∧ ∀ x ∈ fed, x.2.length = spec.symbolSizeT.toNat

variable {spec : TransferSpec}

theorem TransferDecoderImpl.Constructed.sized
    (h : TransferDecoderImpl.Constructed eng spec dec) : dec.Sized spec := by
  obtain ⟨hspec, htook⟩ := h.took
  exact ⟨hspec, [], [], htook, fun _ hx => nomatch hx⟩

theorem TransferDecoderImpl.Sized.addPacket {dec' : TransferDecoderImpl eng}
    {status : DecodeStatus} (h : dec.Sized spec)
    (hadd : dec.addPacket packet = .ok (.ok (dec', status))) : dec'.Sized spec := by
  obtain ⟨rfl, fed, reports, htook, hlengths⟩ := h
  obtain ⟨hwell, _⟩ := addPacket_eq_ok.mp hadd
  obtain ⟨c, _, hspec, htook'⟩ := htook.addPacket hadd
  refine ⟨hspec, _, _, htook', fun x hx => ?_⟩
  rcases List.mem_append.mp hx with hx | hx
  · exact hlengths x hx
  · rw [List.mem_singleton.mp hx]
    exact hwell.2

/-- The engine takes a symbol of the right length under any id. -/
theorem TransferDecoderImpl.Sized.feed (robust : eng.Robust) (h : dec.Sized spec) {symbol : Bytes}
    (hsymbol : symbol.length = spec.symbolSizeT.toNat) (c : Nat) :
    ∃ dec' status, dec.feed c symbol = .ok (dec', status) ∧ dec'.decodeStatus = status := by
  obtain ⟨rfl, fed, reports, ⟨_, _, hbuilt, htook⟩, hlengths⟩ := h
  cases dec with
  | raptorQ dec spec =>
    obtain ⟨_, _, _, hparams, _⟩ := hbuilt
    have ht : spec.symbolSizeT.toNat = dec.params.symbolSizeT := by rw [hparams]
    obtain ⟨decoder, status, hadd, hstatus⟩ := robust.raptorQ.takes htook
      (fun x hx => (hlengths x hx).trans ht) (hsymbol.trans ht) (c := c)
    have hblock := BlockDecoder.addCodedVector_eq_ok.mpr ⟨decoder, hadd, rfl⟩
    exact ⟨_, _, bind_eq_ok.mpr ⟨_, hblock, rfl⟩, hstatus⟩
  | raptor10 dec spec =>
    obtain ⟨_, _, hparams, _⟩ := hbuilt
    have ht : spec.symbolSizeT.toNat = dec.params.symbolSizeT := by rw [hparams]
    obtain ⟨decoder, status, hadd, hstatus⟩ := robust.raptor10.takes htook
      (fun x hx => (hlengths x hx).trans ht) (hsymbol.trans ht) (c := c)
    have hblock := BlockDecoder.addCodedVector_eq_ok.mpr ⟨decoder, hadd, rfl⟩
    exact ⟨_, _, bind_eq_ok.mpr ⟨_, hblock, rfl⟩, hstatus⟩

/-- An ESI that fits in a `u32` has a coded id. -/
theorem codedId_of_u32 (totals : eng.TotalsFit) (h : dec.Built) {esi : Nat} (hesi : esi < 2 ^ 32) :
    ∃ c, dec.codedId esi = .ok c := by
  cases dec with
  | raptorQ dec spec =>
    have ⟨_, _, _, hparams, htotal⟩ := h
    have hk : dec.params.k = spec.sourceK := by rw [hparams]
    obtain ⟨_, hsmall⟩ := totals.of_numTotal htotal
    by_cases hsource : esi < dec.params.k
    · exact ⟨esi, payloadEsiToCodedId_eq_ok.mpr (.inl ⟨hsource, rfl⟩)⟩
    · have hfit : dec.numTotal + (esi - dec.params.k) ≤ usizeMax := by
        unfold usizeMax
        omega
      exact ⟨_, payloadEsiToCodedId_eq_ok.mpr (.inr ⟨Nat.not_lt.mp hsource, hfit, rfl⟩)⟩
  | raptor10 dec spec => exact ⟨esi, rfl⟩

theorem addPacket_wellFormed (robust : eng.Robust) (totals : eng.TotalsFit) (h : dec.Sized spec)
    (hwell : dec.WellFormed packet) (hesi : packet.esi.toNat < 2 ^ 32) :
    ∃ dec' status, dec.addPacket packet = .ok (.ok (dec', status)) ∧
      dec'.decodeStatus = status := by
  have hbuilt : dec.Built := by
    obtain ⟨_, _, _, htook, _⟩ := h
    exact htook.2.2.1
  obtain ⟨c, hc⟩ := codedId_of_u32 totals hbuilt hesi
  obtain ⟨dec', status, hfeed, hstatus⟩ := h.feed robust (h.1 ▸ hwell.2) c
  exact ⟨dec', status, TransferDecoderImpl.addPacket_eq_ok.mpr ⟨hwell, c, hc, hfeed⟩, hstatus⟩

/-! ## Recovering the object -/

/-- A block decoder for the sizes of `spec`, done after symbols of `T` bytes only. -/
theorem BlockDecoder.Took.assembles {Config : Type} {ops : DataOperators}
    {eng : Engine ops.Operator Config} {dec : BlockDecoder eng} {fed : List (Nat × Bytes)}
    {reports : List DecodeStatus} {config : Config} (sized : eng.DataSized ops)
    (htook : dec.Took fed reports)
    (hparams : dec.params = ⟨spec.transferLengthF.toNat, spec.symbolSizeT.toNat, spec.sourceK, config⟩)
    (hf : 0 < spec.transferLengthF.toNat) (ht : 0 < spec.symbolSizeT.toNat)
    (hlengths : ∀ x ∈ fed, x.2.length = spec.symbolSizeT.toNat)
    (hstatus : dec.decodeStatus = .decoded) :
    ∃ object : Bytes, object.length = spec.transferLengthF.toNat ∧ dec.recoverObject = do
      withCapacity spec.transferLengthF.toNat
      return object := by
  unfold BlockDecoder.Took at htook
  rw [hparams] at htook
  have hblock : IsBlock spec.sourceK spec.symbolSizeT.toNat
      ((List.range spec.sourceK).map (eng.getDataVector dec.decoder)) := by
    refine ⟨by rw [List.length_map, List.length_range], fun symbol hmem => ?_⟩
    obtain ⟨i, hi, rfl⟩ := List.mem_map.mp hmem
    exact sized htook hlengths hstatus (List.mem_range.mp hi)
  obtain ⟨hne, hhead⟩ := IsBlock.headD_length hblock (sourceK_pos hf ht)
  refine ⟨((List.range spec.sourceK).map (eng.getDataVector dec.decoder)).flatten.take
    spec.transferLengthF.toNat, ?_, ?_⟩
  · rw [List.length_take, flatten_length_of_isBlock hblock, Nat.min_eq_left (length_le_sourceK ht)]
  · simp only [BlockDecoder.recoverObject, assemblePayloadFromSymbols, hparams, hstatus, hne, hhead,
      decide_true, ne_eq, not_false_eq_true, assert_true, ok_bind]

/-- A decoder that is done assembles exactly `F` bytes, if so many can be allocated. -/
theorem TransferDecoderImpl.Sized.recoverObject (sized : eng.DataSized) (h : dec.Sized spec)
    (hstatus : dec.decodeStatus = .decoded) :
    ∃ object : Bytes, object.length = spec.transferLengthF.toNat ∧ dec.recoverObject = do
      withCapacity spec.transferLengthF.toNat
      return .ok object := by
  obtain ⟨rfl, fed, reports, ⟨hf, ht, hbuilt, htook⟩, hlengths⟩ := h
  cases dec with
  | raptorQ dec spec =>
    obtain ⟨_, _, _, hparams, _⟩ := hbuilt
    obtain ⟨object, hobject, hrecover⟩ :=
      BlockDecoder.Took.assembles sized.raptorQ htook hparams hf ht hlengths hstatus
    refine ⟨object, hobject, ?_⟩
    simp only [TransferDecoderImpl.recoverObject, hstatus, ne_eq, not_true_eq_false, if_false,
      hrecover, bind_assoc, ok_bind, pure_eq_ok]
    rfl
  | raptor10 dec spec =>
    obtain ⟨_, _, hparams, _⟩ := hbuilt
    obtain ⟨object, hobject, hrecover⟩ :=
      BlockDecoder.Took.assembles sized.raptor10 htook hparams hf ht hlengths hstatus
    refine ⟨object, hobject, ?_⟩
    simp only [TransferDecoderImpl.recoverObject, hstatus, ne_eq, not_true_eq_false, if_false,
      hrecover, bind_assoc, ok_bind, pure_eq_ok]
    rfl

/-- The data vectors of a decoder that is done are in memory, and the object is no longer than
all of them. -/
theorem TransferDecoderImpl.Sized.room (robust : eng.Robust) (h : dec.Sized spec)
    (hstatus : dec.decodeStatus = .decoded) : spec.transferLengthF.toNat ≤ isizeMax := by
  obtain ⟨rfl, fed, reports, ⟨hf, ht, hbuilt, htook⟩, hlengths⟩ := h
  refine Nat.le_trans (length_le_sourceK ht) ?_
  cases dec with
  | raptorQ dec spec =>
    obtain ⟨_, _, _, hparams, _⟩ := hbuilt
    have hk : spec.sourceK = dec.params.k := by rw [hparams]
    have ht : spec.symbolSizeT.toNat = dec.params.symbolSizeT := by rw [hparams]
    have hroom := robust.raptorQ.room htook (fun x hx => (hlengths x hx).trans ht) hstatus
    rw [← hk, ← ht] at hroom
    exact hroom
  | raptor10 dec spec =>
    obtain ⟨_, _, hparams, _⟩ := hbuilt
    have hk : spec.sourceK = dec.params.k := by rw [hparams]
    have ht : spec.symbolSizeT.toNat = dec.params.symbolSizeT := by rw [hparams]
    have hroom := robust.raptor10.room htook (fun x hx => (hlengths x hx).trans ht) hstatus
    rw [← hk, ← ht] at hroom
    exact hroom

theorem recoverObject_pending (h : dec.decodeStatus ≠ .decoded) :
    dec.recoverObject = .ok (.error .decodeNotComplete) := by
  unfold TransferDecoderImpl.recoverObject
  rw [if_pos h]

/-! ## Whole runs -/

/-- One call keeps `Sized`, whether it halts or not. -/
theorem TransferDecoderImpl.Sized.call (h : dec.Sized spec) (call : DecoderCall) :
    (dec.call call).state.Sized spec := by
  cases call with
  | addPacket packet =>
    simp only [TransferDecoderImpl.call]
    split
    · exact h
    · exact h
    · next dec' status hadd => exact h.addPacket hadd
  | decodeStatus => exact h
  | recoverObject =>
    simp only [TransferDecoderImpl.call]
    split
    · exact h
    · exact h

/-- No call panics. -/
theorem TransferDecoderImpl.Sized.call_halt (robust : eng.Robust) (totals : eng.TotalsFit)
    (h : dec.Sized spec) {call : DecoderCall}
    (hesi : ∀ packet, call = .addPacket packet → packet.esi.toNat < 2 ^ 32) :
    (dec.call call).halt = none := by
  cases call with
  | addPacket packet =>
    by_cases hwell : dec.WellFormed packet
    · obtain ⟨dec', status, hadd, _⟩ := addPacket_wellFormed robust totals h hwell (hesi packet rfl)
      simp only [TransferDecoderImpl.call, hadd]
    · obtain ⟨e, he⟩ := TransferDecoderImpl.addPacket_rejects hwell
      simp only [TransferDecoderImpl.call, he]
  | decodeStatus => rfl
  | recoverObject =>
    by_cases hstatus : dec.decodeStatus = .decoded
    · obtain ⟨object, _, hrecover⟩ := h.recoverObject robust.dataSized hstatus
      have hok : withCapacity spec.transferLengthF.toNat = .ok () :=
        withCapacity_eq_ok.mpr (h.room robust hstatus)
      simp only [TransferDecoderImpl.call, hrecover, hok, ok_bind, pure_eq_ok]
    · simp only [TransferDecoderImpl.call, recoverObject_pending hstatus]

/-- Dropping the refused packets changes nothing but the answers to them. -/
theorem TransferDecoderImpl.Sized.run_filter (h : dec.Sized spec) (calls : List DecoderCall) :
    Agree DecoderAnswer.taken (· = ·) (run TransferDecoderImpl.call dec calls)
      (run TransferDecoderImpl.call dec
        (calls.filter fun call => !call.refused spec.symbolSizeT.toNat)) := by
  have hthin : Thinned TransferDecoderImpl.call TransferDecoderImpl.call
      (fun (_ : TransferDecoderImpl eng) call => call.refused spec.symbolSizeT.toNat = true)
      (fun (_ : TransferDecoderImpl eng) _ => False) dec dec calls
      (calls.filter fun call => !call.refused spec.symbolSizeT.toNat) :=
    .filter (fun _ _ hdrop => by simpa using hdrop) calls dec dec
  have hagree : Agree DecoderAnswer.taken (fun d d' => d = d' ∧ d.Sized spec)
      (run TransferDecoderImpl.call dec calls) (run TransferDecoderImpl.call dec
        (calls.filter fun call => !call.refused spec.symbolSizeT.toNat)) := by
    refine run_thinned (R := fun d d' _ => d = d' ∧ d.Sized spec) ?_ ?_ ⟨rfl, h⟩ hthin
    · rintro d _ call is ⟨rfl, hd⟩
      exact ⟨rfl, fun _ => ⟨rfl, hd.call call⟩⟩
    · rintro d _ call is ⟨rfl, hd⟩ (hrefused | hbad)
      · obtain ⟨e, he⟩ := call_refused (hd.1 ▸ hrefused)
        rw [he]
        exact ⟨rfl, rfl, hd⟩
      · exact absurd hbad id
  exact ⟨hagree.1, fun hgo => (hagree.2 hgo).1⟩

/-- How a decoder for `spec` answers its next call. -/
structure FacadeLaw (spec : TransferSpec) (dec : TransferDecoderImpl eng) : Prop where
  block : ∀ packet, packet.sbn ≠ 0 →
    dec.addPacket packet = .ok (.error (.unsupportedSourceBlock packet.sbn))
  length : ∀ packet, packet.sbn = 0 → packet.symbol.length ≠ spec.symbolSizeT.toNat →
    dec.addPacket packet =
      .ok (.error (.symbolLengthMismatch spec.symbolSizeT.toNat packet.symbol.length))
  takes : ∀ packet, packet.sbn = 0 → packet.symbol.length = spec.symbolSizeT.toNat →
    packet.esi.toNat < 2 ^ 32 → ∃ dec' status,
      dec.addPacket packet = .ok (.ok (dec', status)) ∧ dec'.decodeStatus = status
  pending : dec.decodeStatus ≠ .decoded → dec.recoverObject = .ok (.error .decodeNotComplete)
  decoded : dec.decodeStatus = .decoded →
    ∃ object, dec.recoverObject = .ok (.ok object) ∧ object.length = spec.transferLengthF.toNat

theorem TransferDecoderImpl.Sized.law (robust : eng.Robust) (totals : eng.TotalsFit)
    (h : dec.Sized spec) : FacadeLaw spec dec where
  block _ := addPacket_wrong_block
  length _ hsbn hlength := by
    obtain ⟨rfl, _⟩ := h
    exact addPacket_wrong_length hsbn hlength
  takes _ hsbn hlength hesi := addPacket_wellFormed robust totals h ⟨hsbn, h.1 ▸ hlength⟩ hesi
  pending := recoverObject_pending
  decoded hstatus := by
    obtain ⟨object, hobject, hrecover⟩ := h.recoverObject robust.dataSized hstatus
    have hok : withCapacity spec.transferLengthF.toNat = .ok () :=
      withCapacity_eq_ok.mpr (h.room robust hstatus)
    rw [hok] at hrecover
    exact ⟨object, hrecover, hobject⟩

end

/-- For both codecs, every spec a decoder was constructed for, and every sequence of
calls with arbitrary packets whose ESIs fit in a `u32`: in every state that is reached
the decoder answers as `FacadeLaw` says; the run does not panic; and without the refused
packets it goes the same way, answer by answer. -/
theorem facade_decoder {eng : Engines} (robust : eng.Robust) (totals : eng.TotalsFit)
    {spec : TransferSpec} {dec : TransferDecoderImpl eng}
    (h : TransferDecoderImpl.Constructed eng spec dec) :
    (∀ dec', Reaches TransferDecoderImpl.call dec dec' → FacadeLaw spec dec') ∧
    ∀ calls : List DecoderCall,
      (∀ packet, .addPacket packet ∈ calls → packet.esi.toNat < 2 ^ 32) →
      (run TransferDecoderImpl.call dec calls).halt = none ∧
      Agree DecoderAnswer.taken (· = ·) (run TransferDecoderImpl.call dec calls)
        (run TransferDecoderImpl.call dec
          (calls.filter fun call => !call.refused spec.symbolSizeT.toNat)) := by
  have hsized := h.sized
  refine ⟨fun dec' hreaches => ?_, fun calls hesis => ⟨?_, hsized.run_filter calls⟩⟩
  · have hsized' : dec'.Sized spec := hreaches.invariant hsized fun _ call hd _ => hd.call call
    exact hsized'.law robust totals
  · have hsafe := run_safe (Q := fun _ (_ : Panic) => False) hsized
      fun d call hmem (hd : d.Sized spec) => ⟨fun _ => hd.call call, fun panic hhalt => by
        rw [hd.call_halt robust totals fun packet heq => hesis packet (heq ▸ hmem)] at hhalt
        cases hhalt⟩
    exact Option.eq_none_iff_forall_ne_some.mpr hsafe.2

namespace Repetition

theorem robust (Config : Type) (code : Code) : (engine Config code).Robust operators where
  takes _ _ _ := ⟨_, _, rfl, rfl⟩
  room := by
    intro k config t fed reports d hfed _ _
    exact (fed_seen hfed).2.1
  data := by
    intro k config t fed reports d i hfed hlengths hdone hi
    obtain ⟨rfl, _⟩ := fed_seen hfed
    have hsome : ((fed.map fun x => (x.1 % k, x.2)).lookup i).isSome :=
      status_eq_decoded.mp hdone i (List.mem_range.mpr hi)
    obtain ⟨symbol, hsymbol⟩ := Option.isSome_iff_exists.mp hsome
    have hmem : (i, symbol) ∈ fed.map fun x => (x.1 % k, x.2) := by
      obtain ⟨front, back, hsplit, _⟩ := List.lookup_eq_some_iff.mp hsymbol
      rw [hsplit]
      exact List.mem_append_right _ List.mem_cons_self
    obtain ⟨x, hx, heq⟩ := List.mem_map.mp hmem
    cases heq
    simp only [engine, hsymbol, Option.getD_some]
    exact hlengths x hx

theorem engines_robust : engines.Robust where
  raptorQ := robust _ _
  raptor10 := robust _ _

end Repetition

open Repetition in
/-- A packet of another block, a repair symbol under the largest ESI, and an early
`recover_object`. -/
theorem facade_decoder_hostile :
    (run TransferDecoderImpl.call decoder10
      [.addPacket ⟨1, 0, [1]⟩, .addPacket ⟨0, 4294967295, [9]⟩, .recoverObject]).halt = none := by
  have hesis : ∀ packet, DecoderCall.addPacket packet ∈ [DecoderCall.addPacket ⟨1, 0, [1]⟩,
      .addPacket ⟨0, 4294967295, [9]⟩, .recoverObject] → packet.esi.toNat < 2 ^ 32 := by
    intro packet hmem
    simp only [List.mem_cons, DecoderCall.addPacket.injEq, reduceCtorEq, List.not_mem_nil,
      or_false] at hmem
    rcases hmem with rfl | rfl <;> decide
  have hcalls := (facade_decoder engines_robust engines_totals decoder10_constructed).2 _ hesis
  exact hcalls.1

end FountainTransfer
