import FountainTransfer.EncoderCalls
import FountainTransfer.FacadeCalls
import FountainTransfer.Recovery

/-!
# A store between an encoder and its decoders

`SlabStorageManager`, as it is meant to be used: the encoder and the decoders may take their
operators from one manager, the packets of the encoder are stored, and the decoders are given
packets by handle, in any order and any number of times.

1. `storage_safe`: a handle names one packet for ever, and no decoder refuses a packet or
   returns another object.
2. `storage_complete`: a decoder that was given every source packet has reported `Decoded`.
-/

namespace FountainTransfer

open ErasureCode HaltingMachine

/-! ## The manager -/

structure SlabStorageManager where
  symbolSizeT : Usize
  packets : List TransferPacket

namespace SlabStorageManager

def new (symbolSizeT : Usize) : SlabStorageManager := ⟨symbolSizeT, []⟩

/-- What the constructors of encoders and decoders use. `slab` is `SlabDataOperator::new`. -/
def manager {eng : Engines} (s : SlabStorageManager) (slab : Nat → eng.ops.Operator)
    (fresh : ∀ t, eng.ops.Fresh t (slab t)) : StorageManager eng :=
  ⟨s.symbolSizeT, slab s.symbolSizeT.toNat, fresh _⟩

def storePacket (s : SlabStorageManager) (packet : TransferPacket) : SlabStorageManager × Nat :=
  let packets := s.packets ++ [packet]
  ({ s with packets }, packets.length - 1)

def packet (s : SlabStorageManager) (handle : Nat) : Option TransferPacket := s.packets[handle]?

/-- A caller that stores one packet after the other. -/
def storePackets (s : SlabStorageManager) : List TransferPacket → SlabStorageManager × List Nat
  | [] => (s, [])
  | packet :: rest =>
    let (s, handle) := s.storePacket packet
    let (s, handles) := s.storePackets rest
    (s, handle :: handles)

theorem storePackets_packets (s : SlabStorageManager) (packets : List TransferPacket) :
    (s.storePackets packets).1.packets = s.packets ++ packets := by
  induction packets generalizing s with
  | nil => exact (List.append_nil _).symm
  | cons packet rest ih =>
    rw [storePackets, ih, storePacket, List.append_assoc]
    rfl

/-- Handles count the packets. -/
theorem storePackets_handles (s : SlabStorageManager) (packets : List TransferPacket) :
    (s.storePackets packets).2 = List.range' s.packets.length packets.length := by
  induction packets generalizing s with
  | nil => rfl
  | cons packet rest ih =>
    have hrest := ih (s.storePacket packet).1
    show (s.storePacket packet).2 :: ((s.storePacket packet).1.storePackets rest).2 = _
    rw [hrest]
    simp [storePacket, List.range'_succ]

/-- Nothing stored later changes what a handle names. -/
theorem packet_later {s s' : SlabStorageManager} {handle : Nat} {packet : TransferPacket}
    (h : s.packet handle = some packet) {more : List TransferPacket}
    (hmore : s'.packets = s.packets ++ more) : s'.packet handle = some packet := by
  obtain ⟨hlt, _⟩ := List.getElem?_eq_some_iff.mp h
  rw [SlabStorageManager.packet, hmore, List.getElem?_append_left hlt]
  exact h

end SlabStorageManager

/-! ## The callers -/

/-- One encoder, its store, and decoders `κ`. -/
structure Workshop (eng : Engines) (κ : Type) where
  storage : SlabStorageManager
  encoder : TransferEncoderImpl eng
  decoders : κ → TransferDecoderImpl eng

/-- Store what the encoder hands out, give decoder `j` a stored packet, or ask it for the
object. -/
inductive WorkshopCall (κ : Type)
  | store (call : EncoderCall)
  | feed (j : κ) (handle : Nat)
  | recover (j : κ)

inductive WorkshopAnswer (κ : Type)
  | stored (handles : List Nat)
  | missing (handle : Nat)
  | fed (j : κ) (handle : Nat) (packet : TransferPacket) (result : Result TransferError DecodeStatus)
  | recovered (j : κ) (result : Result TransferError Bytes)

/-- Only what is asked of the encoder panics. -/
def WorkshopCall.panic {κ : Type} (numTotal : Nat) : WorkshopCall κ → Option Panic
  | .store call => call.panic numTotal
  | .feed _ _ => none
  | .recover _ => none

/-- The handles an answer gives out. -/
def WorkshopAnswer.handles {κ : Type} : WorkshopAnswer κ → List Nat
  | .stored handles => handles
  | _ => []

variable {eng : Engines} {encode : EncodingMap} {κ : Type}

/-- One call. -/
def Workshop.call [DecidableEq κ] (s : Workshop eng κ) :
    WorkshopCall κ → Out (Workshop eng κ) (WorkshopAnswer κ) Panic
  | .store call =>
    match s.encoder.call call with
    | ⟨_, _, some panic⟩ => ⟨s, [], some panic⟩
    | ⟨encoder, packets, none⟩ =>
      let stored := s.storage.storePackets packets.flatten
      ⟨{ s with storage := stored.1, encoder }, [.stored stored.2], none⟩
  | .feed j handle =>
    match s.storage.packet handle with
    | none => ⟨s, [.missing handle], none⟩
    | some packet =>
      match (s.decoders j).addPacket packet with
      | .error panic => ⟨s, [], some panic⟩
      | .ok (.error e) => ⟨s, [.fed j handle packet (.error e)], none⟩
      | .ok (.ok (decoder, status)) =>
        ⟨{ s with decoders := Function.update s.decoders j decoder },
          [.fed j handle packet (.ok status)], none⟩
  | .recover j =>
    match (s.decoders j).recoverObject with
    | .error panic => ⟨s, [], some panic⟩
    | .ok result => ⟨s, [.recovered j result], none⟩

/-! ## The invariant -/

section

variable (eng) (encode) (spec : TransferSpec) (object : Bytes) (numTotal : Nat)

/-- What an answer says of the store and the object. -/
def WorkshopAnswer.Right (storage : SlabStorageManager) : WorkshopAnswer κ → Prop
  | .stored handles => ∀ handle ∈ handles, ∃ packet, storage.packet handle = some packet ∧
      spec.Sent eng encode object packet
  | .missing _ => True
  | .fed _ handle packet result => storage.packet handle = some packet ∧ ∃ status, result = .ok status
  | .recovered _ result => result = .ok object ∨ result = .error .decodeNotComplete

variable {eng}

/-- Decoder `j` took the packets that the answers name, and no others. -/
structure Supplied (j : κ) (answers : List (WorkshopAnswer κ)) (dec : TransferDecoderImpl eng)
    (fed : List (Nat × Bytes)) (reports : List DecodeStatus) : Prop where
  isFor : dec.spec = spec
  holds : dec.Holds encode object fed reports
  emittable : ∀ x ∈ fed, Engine.Emittable spec.sourceK numTotal x.1
  all : ∀ handle packet status, .fed j handle packet (.ok status) ∈ answers →
    ∃ c v, spec.codecKind.codedId spec.sourceK numTotal packet.esi.toNat = .ok c ∧ (c, v) ∈ fed
  reported : .decoded ∈ reports → ∃ handle packet, .fed j handle packet (.ok .decoded) ∈ answers

/-- The workshop after the answers `answers`. -/
structure Workshop.Sound (s : Workshop eng κ) (answers : List (WorkshopAnswer κ)) : Prop where
  encoder : s.encoder.Stocked spec object numTotal
  stored : ∀ packet ∈ s.storage.packets, spec.Sent eng encode object packet
  decoders : ∀ j, ∃ fed reports, Supplied encode spec object numTotal j answers (s.decoders j) fed reports
  right : ∀ answer ∈ answers, answer.Right eng encode spec object s.storage
  handles : answers.flatMap WorkshopAnswer.handles = List.range s.storage.packets.length

end

section

variable {spec : TransferSpec} {object : Bytes} {numTotal : Nat} {s : Workshop eng κ}
  {answers : List (WorkshopAnswer κ)}

theorem WorkshopAnswer.Right.later {storage storage' : SlabStorageManager} {answer : WorkshopAnswer κ}
    (h : answer.Right eng encode spec object storage) {more : List TransferPacket}
    (hmore : storage'.packets = storage.packets ++ more) :
    answer.Right eng encode spec object storage' := by
  cases answer with
  | stored handles =>
    intro handle hmem
    obtain ⟨packet, hpacket, hsent⟩ := h handle hmem
    exact ⟨packet, SlabStorageManager.packet_later hpacket hmore, hsent⟩
  | missing _ => trivial
  | fed j handle packet result => exact ⟨SlabStorageManager.packet_later h.1 hmore, h.2⟩
  | recovered j result => exact h

/-- Answers that feed decoder `j` nothing. -/
theorem Supplied.later {j : κ} {dec : TransferDecoderImpl eng} {fed : List (Nat × Bytes)}
    {reports : List DecodeStatus} (h : Supplied encode spec object numTotal j answers dec fed reports)
    {answer : WorkshopAnswer κ}
    (hother : ∀ handle packet result, answer ≠ .fed j handle packet result) :
    Supplied encode spec object numTotal j (answers ++ [answer]) dec fed reports where
  isFor := h.isFor
  holds := h.holds
  emittable := h.emittable
  all handle packet status hmem := by
    rcases List.mem_append.mp hmem with hmem | hmem
    · exact h.all handle packet status hmem
    · exact absurd (List.mem_singleton.mp hmem).symm (hother _ _ _)
  reported hdone := by
    obtain ⟨handle, packet, hmem⟩ := h.reported hdone
    exact ⟨handle, packet, List.mem_append_left _ hmem⟩

/-- What an encoder hands out, if it does. -/
theorem TransferEncoderImpl.Stocked.hands (faithful : eng.Faithful encode)
    {enc enc' : TransferEncoderImpl eng} (h : enc.Stocked spec object numTotal) {call : EncoderCall}
    {packets : List (List TransferPacket)} (hcall : enc.call call = ⟨enc', packets, none⟩) :
    enc'.Stocked spec object numTotal ∧
      ∀ packet ∈ packets.flatten, spec.Sent eng encode object packet := by
  obtain ⟨rfl, hserves, htotal⟩ := h
  cases call with
  | sourcePackets =>
    cases hcall
    refine ⟨⟨rfl, hserves, htotal⟩, fun packet hmem => ?_⟩
    rw [List.flatten_singleton] at hmem
    exact (Produces.source hmem).sent faithful hserves
  | repairPackets start count =>
    rw [TransferEncoderImpl.call] at hcall
    split at hcall
    · cases hcall
    · next next out hout =>
      cases hcall
      obtain ⟨hspec, hserves', _⟩ :=
        TransferEncoderImpl.repairPackets_eq_ok faithful hserves hout
      refine ⟨⟨hspec, hserves', htotal⟩, fun packet hmem => ?_⟩
      rw [List.flatten_singleton] at hmem
      exact (Produces.repair hout hmem).sent faithful hserves

theorem Supplied.recoverObject (faithful : eng.Faithful encode) (hcarries : spec.Carries object)
    {j : κ} {dec : TransferDecoderImpl eng} {fed : List (Nat × Bytes)} {reports : List DecodeStatus}
    (h : Supplied encode spec object numTotal j answers dec fed reports)
    (hstatus : dec.decodeStatus = .decoded) : dec.recoverObject = .ok (.ok object) := by
  obtain ⟨rfl, ⟨htook, hagrees⟩, _⟩ := h
  exact htook.recoverObject_eq faithful hcarries hagrees hstatus

/-- Every packet of the object can be given to every decoder, at any time. -/
theorem Supplied.takes (faithful : eng.Faithful encode) (prompt : eng.Prompt encode)
    (hcarries : spec.Carries object) (htotal : eng.numTotal spec = .ok numTotal) {j : κ}
    {dec : TransferDecoderImpl eng} {fed : List (Nat × Bytes)} {reports : List DecodeStatus}
    (h : Supplied encode spec object numTotal j answers dec fed reports) {packet : TransferPacket}
    (hsent : spec.Sent eng encode object packet) (handle : Nat) :
    ∃ dec' status, dec.addPacket packet = .ok (.ok (dec', status)) ∧
      (status = .decoded → dec'.decodeStatus = .decoded) ∧
      ∃ c, Supplied encode spec object numTotal j (answers ++ [.fed j handle packet (.ok status)])
        dec' (fed ++ [(c, packet.symbol)]) (reports ++ [status]) := by
  obtain ⟨rfl, hholds, hemittable, hall, hreported⟩ := h
  obtain ⟨dec', status, c, hadd, hdone, hspec, hc, hnew, hholds'⟩ :=
    hholds.takesPacket faithful prompt hcarries htotal hemittable hsent (.inl trivial)
  refine ⟨dec', status, hadd, hdone, c, hspec, hholds', ?_, ?_, ?_⟩
  · intro x hx
    rcases List.mem_append.mp hx with hx | hx
    · exact hemittable x hx
    · rw [List.mem_singleton.mp hx]
      exact hnew
  · intro handle' packet' status' hmem
    rcases List.mem_append.mp hmem with hmem | hmem
    · obtain ⟨c', v, hc', hv⟩ := hall handle' packet' status' hmem
      exact ⟨c', v, hc', List.mem_append_left _ hv⟩
    · cases List.mem_singleton.mp hmem
      exact ⟨c, packet.symbol, hc, List.mem_append_right _ List.mem_cons_self⟩
  · intro hdone
    rcases List.mem_append.mp hdone with hdone | hdone
    · obtain ⟨handle', packet', hmem⟩ := hreported hdone
      exact ⟨handle', packet', List.mem_append_left _ hmem⟩
    · rw [← List.mem_singleton.mp hdone]
      exact ⟨handle, packet, List.mem_append_right _ List.mem_cons_self⟩

theorem Workshop.sound_start (henc : TransferEncoderImpl.Constructed eng spec object s.encoder)
    (hdec : ∀ j, TransferDecoderImpl.Constructed eng spec (s.decoders j))
    (hempty : s.storage.packets = []) (htotal : eng.numTotal spec = .ok numTotal) :
    s.Sound encode spec object numTotal [] where
  encoder := henc.stocked htotal
  stored packet hmem := by
    rw [hempty] at hmem
    cases hmem
  decoders j := by
    obtain ⟨hspec, htook⟩ := (hdec j).took
    exact ⟨[], [], hspec, ⟨htook, agrees_nil _ _⟩, (fun _ h => nomatch h), (fun _ _ _ h => nomatch h),
      fun h => nomatch h⟩
  right _ hmem := nomatch hmem
  handles := by
    rw [hempty]
    rfl

/-! ## One call -/

theorem Workshop.Sound.store (faithful : eng.Faithful encode)
    (h : s.Sound encode spec object numTotal answers) {call : EncoderCall}
    {encoder : TransferEncoderImpl eng} {packets : List (List TransferPacket)}
    (hcall : s.encoder.call call = ⟨encoder, packets, none⟩) :
    let stored := s.storage.storePackets packets.flatten
    Workshop.Sound encode spec object numTotal { s with storage := stored.1, encoder }
      (answers ++ [.stored stored.2]) := by
  intro stored
  obtain ⟨hencoder, hsent⟩ := h.encoder.hands faithful hcall
  have hpackets : stored.1.packets = s.storage.packets ++ packets.flatten :=
    s.storage.storePackets_packets _
  have hhandles : stored.2 = List.range' s.storage.packets.length packets.flatten.length :=
    s.storage.storePackets_handles _
  refine ⟨hencoder, fun packet hmem => ?_, fun j => ?_, fun answer hmem => ?_, ?_⟩
  · rcases List.mem_append.mp (hpackets ▸ hmem) with hmem | hmem
    · exact h.stored packet hmem
    · exact hsent packet hmem
  · obtain ⟨fed, reports, hj⟩ := h.decoders j
    exact ⟨fed, reports, hj.later fun _ _ _ heq => nomatch heq⟩
  · rcases List.mem_append.mp hmem with hmem | hmem
    · exact (h.right answer hmem).later hpackets
    · rw [List.mem_singleton.mp hmem]
      intro handle hhandle
      rw [hhandles, List.mem_range'_1] at hhandle
      have hlt : handle < stored.1.packets.length := by
        rw [hpackets, List.length_append]
        exact hhandle.2
      refine ⟨stored.1.packets[handle], List.getElem?_eq_getElem hlt, ?_⟩
      have hmem' : stored.1.packets[handle] ∈ packets.flatten := by
        simp only [hpackets, List.getElem_append_right hhandle.1]
        exact List.getElem_mem _
      exact hsent _ hmem'
  · rw [List.flatMap_append, h.handles, List.flatMap_singleton]
    show _ ++ stored.2 = List.range stored.1.packets.length
    rw [hhandles, hpackets, List.length_append, List.range_add, List.range'_eq_map_range]

/-- An answer that changes nothing. -/
theorem Workshop.Sound.answer (h : s.Sound encode spec object numTotal answers)
    {answer : WorkshopAnswer κ} (hright : answer.Right eng encode spec object s.storage)
    (hhandles : answer.handles = [])
    (hother : ∀ j handle packet result, answer ≠ .fed j handle packet result) :
    s.Sound encode spec object numTotal (answers ++ [answer]) := by
  refine ⟨h.encoder, h.stored, fun j => ?_, fun answer' hmem => ?_, ?_⟩
  · obtain ⟨fed, reports, hj⟩ := h.decoders j
    exact ⟨fed, reports, hj.later (hother j)⟩
  · rcases List.mem_append.mp hmem with hmem | hmem
    · exact h.right answer' hmem
    · rw [List.mem_singleton.mp hmem]
      exact hright
  · rw [List.flatMap_append, h.handles, List.flatMap_singleton, hhandles]
    exact List.append_nil _

/-- A stored packet can be given to every decoder. -/
theorem Workshop.Sound.takes (faithful : eng.Faithful encode) (prompt : eng.Prompt encode)
    (hcarries : spec.Carries object) (h : s.Sound encode spec object numTotal answers) {handle : Nat}
    {packet : TransferPacket} (hpacket : s.storage.packet handle = some packet) (j : κ) :
    ∃ decoder status, (s.decoders j).addPacket packet = .ok (.ok (decoder, status)) ∧
      (status = .decoded → decoder.recoverObject = .ok (.ok object)) ∧
      ∃ fed reports, Supplied encode spec object numTotal j
        (answers ++ [.fed j handle packet (.ok status)]) decoder fed reports := by
  obtain ⟨fed, reports, hj⟩ := h.decoders j
  have hsent := h.stored packet (List.mem_of_getElem? hpacket)
  obtain ⟨decoder, status, hadd, hdone, c, hsupplied⟩ :=
    hj.takes faithful prompt hcarries h.encoder.total hsent handle
  exact ⟨decoder, status, hadd,
    fun hstatus => hsupplied.recoverObject faithful hcarries (hdone hstatus), _, _, hsupplied⟩

/-- Every decoder can be asked for the object. -/
theorem Workshop.Sound.recovers (faithful : eng.Faithful encode) (hcarries : spec.Carries object)
    (h : s.Sound encode spec object numTotal answers) (j : κ) :
    ∃ result, (s.decoders j).recoverObject = .ok result ∧
      (result = .ok object ∨ result = .error .decodeNotComplete) := by
  obtain ⟨fed, reports, hj⟩ := h.decoders j
  by_cases hstatus : (s.decoders j).decodeStatus = .decoded
  · exact ⟨_, hj.recoverObject faithful hcarries hstatus, .inl rfl⟩
  · exact ⟨_, recoverObject_pending hstatus, .inr rfl⟩

variable [DecidableEq κ]

theorem Workshop.Sound.feed (h : s.Sound encode spec object numTotal answers) {j : κ} {handle : Nat}
    {packet : TransferPacket} {status : DecodeStatus} {decoder : TransferDecoderImpl eng}
    (hpacket : s.storage.packet handle = some packet)
    (hsupplied : ∃ fed reports, Supplied encode spec object numTotal j
      (answers ++ [.fed j handle packet (.ok status)]) decoder fed reports) :
    Workshop.Sound encode spec object numTotal
      { s with decoders := Function.update s.decoders j decoder }
      (answers ++ [.fed j handle packet (.ok status)]) := by
  refine ⟨h.encoder, h.stored, fun j' => ?_, fun answer hmem => ?_, ?_⟩
  · by_cases heq : j' = j
    · subst heq
      simp only [Function.update_self]
      exact hsupplied
    · obtain ⟨fed, reports, hj'⟩ := h.decoders j'
      simp only [Function.update_of_ne heq]
      refine ⟨fed, reports, hj'.later fun _ _ _ hfed => ?_⟩
      cases hfed
      exact heq rfl
  · rcases List.mem_append.mp hmem with hmem | hmem
    · exact h.right answer hmem
    · rw [List.mem_singleton.mp hmem]
      exact ⟨hpacket, status, rfl⟩
  · rw [List.flatMap_append, h.handles]
    exact List.append_nil _

/-- The step lemma. -/
theorem Workshop.Sound.call (faithful : eng.Faithful encode) (prompt : eng.Prompt encode)
    (hcarries : spec.Carries object) (h : s.Sound encode spec object numTotal answers)
    {call : WorkshopCall κ} (hgo : (s.call call).halt = none) :
    (s.call call).state.Sound encode spec object numTotal (answers ++ (s.call call).events) := by
  cases call with
  | store call =>
    simp only [Workshop.call] at hgo ⊢
    split
    · next panic hcall =>
      rw [hcall] at hgo
      cases hgo
    · next encoder packets hcall => exact h.store faithful hcall
  | feed j handle =>
    simp only [Workshop.call]
    split
    · exact h.answer trivial rfl fun _ _ _ _ heq => nomatch heq
    · next packet hpacket =>
      obtain ⟨decoder, status, hadd, _, hsupplied⟩ := h.takes faithful prompt hcarries hpacket j
      simp only [hadd]
      exact h.feed hpacket hsupplied
  | recover j =>
    obtain ⟨result, hresult, hright⟩ := h.recovers faithful hcarries j
    simp only [Workshop.call, hresult]
    exact h.answer hright rfl fun _ _ _ _ heq => nomatch heq

/-- A call panics for its arguments alone. -/
theorem Workshop.Sound.halt (faithful : eng.Faithful encode) (prompt : eng.Prompt encode)
    (encodes : eng.Encodes) (totals : eng.TotalsFit) (hcarries : spec.Carries object)
    (h : s.Sound encode spec object numTotal answers) (call : WorkshopCall κ) :
    (s.call call).halt = call.panic numTotal := by
  cases call with
  | store call =>
    have hhalt : (s.encoder.call call).halt = call.panic numTotal :=
      h.encoder.halt faithful encodes totals
    simp only [Workshop.call, WorkshopCall.panic, ← hhalt]
    split
    · next panic hcall => rw [hcall]
    · next encoder packets hcall => rw [hcall]
  | feed j handle =>
    simp only [Workshop.call]
    split
    · rfl
    · next packet hpacket =>
      obtain ⟨decoder, status, hadd, _⟩ := h.takes faithful prompt hcarries hpacket j
      rw [hadd]
      rfl
  | recover j =>
    obtain ⟨result, hresult, _⟩ := h.recovers faithful hcarries j
    rw [Workshop.call, hresult]
    rfl

/-- The decoder that has just reported `Decoded` holds the object. -/
theorem Workshop.Sound.decoded (faithful : eng.Faithful encode) (prompt : eng.Prompt encode)
    (hcarries : spec.Carries object) (h : s.Sound encode spec object numTotal answers)
    {call : WorkshopCall κ} {j : κ} {handle : Nat} {packet : TransferPacket}
    (hmem : .fed j handle packet (.ok .decoded) ∈ (s.call call).events) :
    ((s.call call).state.decoders j).recoverObject = .ok (.ok object) := by
  cases call with
  | store call =>
    simp only [Workshop.call] at hmem
    split at hmem
    · cases hmem
    · cases List.mem_singleton.mp hmem
  | feed j' handle' =>
    simp only [Workshop.call] at hmem ⊢
    split at hmem
    · cases List.mem_singleton.mp hmem
    · next packet' hpacket =>
      obtain ⟨decoder, status, hadd, hobject, _⟩ := h.takes faithful prompt hcarries hpacket j'
      simp only [hadd] at hmem
      cases List.mem_singleton.mp hmem
      simp only [hadd, Function.update_self]
      exact hobject rfl
  | recover j' =>
    simp only [Workshop.call] at hmem
    split at hmem
    · cases hmem
    · cases List.mem_singleton.mp hmem

/-! ## Whole runs -/

/-- After the calls `seen`. A decoder that has reported `Decoded` held the object then. -/
structure Workshop.After (encode : EncodingMap) (spec : TransferSpec) (object : Bytes)
    (numTotal : Nat) (start : Workshop eng κ) (seen : List (WorkshopCall κ)) (s : Workshop eng κ)
    (answers : List (WorkshopAnswer κ)) : Prop where
  sound : s.Sound encode spec object numTotal answers
  waits : (run Workshop.call start seen).halt = none
  here : (run Workshop.call start seen).state = s
  held : ∀ j handle packet, .fed j handle packet (.ok .decoded) ∈ answers →
    ∃ before, before <+: seen ∧
      ((run Workshop.call start before).state.decoders j).recoverObject = .ok (.ok object)

theorem Workshop.After.call (faithful : eng.Faithful encode) (prompt : eng.Prompt encode)
    (hcarries : spec.Carries object) {start : Workshop eng κ}
    {seen : List (WorkshopCall κ)} (h : After encode spec object numTotal start seen s answers)
    {call : WorkshopCall κ} (hgo : (s.call call).halt = none) :
    After encode spec object numTotal start (seen ++ [call]) (s.call call).state
      (answers ++ (s.call call).events) := by
  have hnext : run Workshop.call start (seen ++ [call]) =
      (s.call call).after (run Workshop.call start seen).events := by
    rw [run_concat h.waits, h.here]
  refine ⟨h.sound.call faithful prompt hcarries hgo, ?_, ?_, ?_⟩
  · rw [hnext]
    exact hgo
  · rw [hnext, after_state]
  · intro j handle packet hmem
    rcases List.mem_append.mp hmem with hmem | hmem
    · obtain ⟨before, hprefix, hheld⟩ := h.held j handle packet hmem
      exact ⟨before, hprefix.trans (List.prefix_append _ _), hheld⟩
    · refine ⟨seen ++ [call], List.prefix_refl _, ?_⟩
      rw [hnext, after_state]
      exact h.sound.decoded faithful prompt hcarries hmem

theorem Workshop.run_after (faithful : eng.Faithful encode) (prompt : eng.Prompt encode)
    (hcarries : spec.Carries object) (h : s.Sound encode spec object numTotal [])
    {calls : List (WorkshopCall κ)}
    (hgo : (run Workshop.call s calls).halt = none) :
    After encode spec object numTotal s calls (run Workshop.call s calls).state
      (run Workshop.call s calls).events :=
  run_traced (P := After encode spec object numTotal s)
    ⟨h, rfl, rfl, fun _ _ _ hmem => nomatch hmem⟩
    (fun _ _ _ _ h hgo => h.call faithful prompt hcarries hgo) calls hgo

/-- For both codecs, both constructors, every object, any number of decoders and every
sequence of calls: a handle that was given out names a packet of the object for ever, and
handles count up; every packet given to a decoder is the one the handle names, and is
taken; and whenever a decoder is asked for the object, it returns the object or says
`DecodeNotComplete`. The run panics exactly at the first call for more repair packets than a
vector can hold, or for an id that overflows. -/
theorem storage_safe (faithful : eng.Faithful encode) (prompt : eng.Prompt encode)
    (encodes : eng.Encodes) (totals : eng.TotalsFit)
    (henc : TransferEncoderImpl.Constructed eng spec object s.encoder)
    (hdec : ∀ j, TransferDecoderImpl.Constructed eng spec (s.decoders j))
    (hempty : s.storage.packets = []) (htotal : eng.numTotal spec = .ok numTotal)
    (calls : List (WorkshopCall κ)) :
    let out := run Workshop.call s calls
    (out.halt = none →
      (∀ answer ∈ out.events, answer.Right eng encode spec object out.state.storage) ∧
      out.events.flatMap WorkshopAnswer.handles = List.range out.state.storage.packets.length) ∧
    out.halt = calls.findSome? (·.panic numTotal) := by
  intro out
  obtain ⟨hspec, hserves⟩ := henc.serves
  have hcarries : spec.Carries object := hspec ▸ hserves.1
  have hstart : s.Sound encode spec object numTotal [] :=
    Workshop.sound_start henc hdec hempty htotal
  refine ⟨fun hgo => ?_, ?_⟩
  · have hafter := Workshop.run_after faithful prompt hcarries hstart hgo
    exact ⟨hafter.sound.right, hafter.sound.handles⟩
  · refine run_stops (P := fun s : Workshop eng κ => ∃ answers,
      s.Sound encode spec object numTotal answers) (fun s call h => ?_) calls ⟨[], hstart⟩
    obtain ⟨answers, h⟩ := h
    exact ⟨h.halt faithful prompt encodes totals hcarries call,
      fun hgo => ⟨_, h.call faithful prompt hcarries hgo⟩⟩

/-- For the same runs: a decoder that was given every source packet, in any order, between any
other packets and by any handles, held the object at some time. -/
theorem storage_complete (faithful : eng.Faithful encode) (prompt : eng.Prompt encode)
    (henc : TransferEncoderImpl.Constructed eng spec object s.encoder)
    (hdec : ∀ j, TransferDecoderImpl.Constructed eng spec (s.decoders j))
    (hempty : s.storage.packets = []) {calls : List (WorkshopCall κ)}
    (hgo : (run Workshop.call s calls).halt = none) {j : κ}
    (hall : ∀ i < spec.sourceK, ∃ handle result,
      .fed j handle (spec.packet encode object ⟨i, i⟩) result ∈ (run Workshop.call s calls).events) :
    ∃ before, before <+: calls ∧
      ((run Workshop.call s before).state.decoders j).recoverObject = .ok (.ok object) := by
  obtain ⟨hspec, hserves⟩ := henc.serves
  obtain ⟨numTotal, htotal⟩ := hserves.numTotal
  have hcarries : spec.Carries object := hspec ▸ hserves.1
  have htotal : eng.numTotal spec = .ok numTotal := hspec ▸ htotal
  have hafter := Workshop.run_after faithful prompt hcarries
    (Workshop.sound_start henc hdec hempty htotal) hgo
  obtain ⟨fed, reports, hj⟩ := hafter.sound.decoders j
  have hids : ∀ c < spec.sourceK, ∃ v, (c, v) ∈ fed := by
    intro i hi
    obtain ⟨handle, result, hmem⟩ := hall i hi
    obtain ⟨_, status, rfl⟩ := hafter.sound.right _ hmem
    obtain ⟨c, v, hc, hv⟩ := hj.all handle _ status hmem
    rw [source_esi hi, codedId_of_emitted (.source hi)] at hc
    cases hc
    exact ⟨v, hv⟩
  have hdone : .decoded ∈ reports := hj.holds.decoded_of_sources prompt (hj.isFor ▸ hcarries)
    (hj.isFor ▸ htotal) (by rw [hj.isFor]; exact hids)
  obtain ⟨handle, packet, hmem⟩ := hj.reported hdone
  exact hafter.held j handle packet hmem

end

namespace Repetition

/-- An encoder of four bytes and two decoders around one store. -/
def workshop10 : Workshop engines Bool :=
  ⟨.new 1, encoder10, fun _ => decoder10⟩

/-- The same operators as without a manager. -/
def manager10 : StorageManager engines :=
  workshop10.storage.manager engines.ops.vecDataOperater engines.ops.fresh_vec

theorem workshop10_encoder :
    TransferEncoderImpl.Constructed engines spec10 [1, 2, 3, 4] workshop10.encoder :=
  .newWithStorageManager (rfl : TransferEncoderImpl.newWithStorageManager engines spec10
    [1, 2, 3, 4] manager10 = .ok (.ok encoder10))

theorem workshop10_decoders (j : Bool) :
    TransferDecoderImpl.Constructed engines spec10 (workshop10.decoders j) :=
  .newWithStorageManager (rfl : TransferDecoderImpl.newWithStorageManager engines spec10 manager10 =
    .ok (.ok decoder10))

/-- One decoder gets the source packets between repair packets, the other one a single
packet, and both are asked for the object. -/
def calls10 : List (WorkshopCall Bool) :=
  [.store (.repairPackets 0 2), .feed true 1, .store .sourcePackets, .feed true 5, .feed true 9,
    .feed true 2, .feed true 2, .feed false 0, .feed true 4, .feed true 3, .recover true,
    .recover false]

end Repetition

open Repetition in
theorem storage_safe_four : (run Workshop.call workshop10 calls10).events.flatMap
    WorkshopAnswer.handles = [0, 1, 2, 3, 4, 5] :=
  ((storage_safe engines_faithful engines_prompt engines_encodes engines_totals workshop10_encoder
    workshop10_decoders rfl rfl calls10).1 rfl).2

open Repetition in
theorem storage_complete_four : ∃ before, before <+: calls10 ∧
    ((run Workshop.call workshop10 before).state.decoders true).recoverObject =
      .ok (.ok [1, 2, 3, 4]) := by
  refine @storage_complete _ _ _ _ _ _ _ engines_faithful engines_prompt
    workshop10_encoder workshop10_decoders rfl calls10 rfl _ fun i hi => ?_
  match i, hi with
  | 0, _ => exact ⟨2, .ok .pending, List.mem_of_getElem? (i := 5) rfl⟩
  | 1, _ => exact ⟨3, .ok .decoded, List.mem_of_getElem? (i := 9) rfl⟩
  | 2, _ => exact ⟨4, .ok .pending, List.mem_of_getElem? (i := 8) rfl⟩
  | 3, _ => exact ⟨5, .ok .pending, List.mem_of_getElem? (i := 3) rfl⟩

end FountainTransfer
