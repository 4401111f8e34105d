import FountainTransfer.Construction
import FountainTransfer.Numbering
import FountainTransfer.Sending

/-!
# Planning a transmission

The sender computes all packets before it sends the first: the source symbols of the
object, and `repair_rounds` adjacent ranges of `repair_count` repair symbols.

Results:
1. `sendPlan_eq`: where the encoder can be built and there is room for the repair packets,
   this is the plan, packet by packet.
2. `sendPlan_iff`: a valid session and a matching object are planned exactly then.
3. `all_or_nothing_iff`: with a socket that never fails, a transfer is all-or-nothing
   exactly when it can be planned and `T` is at most 65478.
-/

namespace FountainTransfer

variable {eng : Engines} {encode : EncodingMap}

/-! ## Repair rounds -/

/-- Adjacent ranges put end to end are one range. -/
theorem flatMap_rounds {α : Type} (f : Nat → α) (count rounds : Nat) :
    ((List.range rounds).flatMap fun round => (List.range count).map fun i => f (round * count + i)) =
      (List.range (rounds * count)).map f := by
  induction rounds with
  | zero => simp
  | succ rounds ih =>
    rw [List.range_succ, List.flatMap_append, ih, Nat.succ_mul, List.range_add, List.map_append,
      List.map_map]
    simp [Function.comp_def]

theorem round_lt {rounds count round i : Nat} (hround : round < rounds) (hi : i < count) :
    round * count + i < rounds * count := by
  have hnext : (round + 1) * count ≤ rounds * count := Nat.mul_le_mul_right count hround
  rw [Nat.succ_mul] at hnext
  omega

/-- Rounds whose ids do not overflow, and whose packets have room, are all computed. -/
theorem repairRounds_eq (faithful : eng.Faithful encode) (encodes : eng.Encodes) {object : Bytes}
    {numTotal count : Nat} :
    ∀ {rounds : List Nat} {enc : TransferEncoderImpl eng} {repair : List TransferPacket},
      enc.Serves object → eng.numTotal enc.spec = .ok numTotal →
      (repair.length + rounds.length * count) * packetBytes ≤ isizeMax →
      (∀ round ∈ rounds, ∀ i < count, numTotal + (round * count + i) ≤ usizeMax ∧
        enc.spec.sourceK + (round * count + i) ≤ usizeMax) →
      ∃ enc', repairRounds count enc repair rounds = .ok (enc', repair ++ rounds.flatMap fun round =>
        (List.range count).map fun i => enc.spec.packet encode object
          (enc.spec.codecKind.repairIdsAt enc.spec.sourceK numTotal (round * count + i)))
  | [], enc, repair, _, _, _, _ => ⟨enc, by rw [repairRounds, List.flatMap_nil, List.append_nil]⟩
  | round :: rounds, enc, repair, h, htotal, hroom, hfit => by
    have hstart : mulUsize round count = .ok (round * count) := by
      refine mulUsize_eq_ok.mpr ⟨?_, rfl⟩
      cases count with
      | zero => exact Nat.zero_le _
      | succ count =>
        have hfirst := (hfit round List.mem_cons_self 0 count.succ_pos).1
        omega
    rw [List.length_cons, Nat.succ_mul] at hroom
    have hcount : count * packetBytes ≤ isizeMax :=
      Nat.le_trans (Nat.mul_le_mul_right _ (by omega)) hroom
    obtain ⟨enc₁, packets, hout⟩ := TransferEncoderImpl.repairPackets_returns encodes h htotal hcount
      (hfit round List.mem_cons_self)
    obtain ⟨hspec, hserves, _, numTotal', htotal', _, hpackets⟩ :=
      TransferEncoderImpl.repairPackets_eq_ok faithful h hout
    cases htotal.symm.trans htotal'
    have hlength : packets.length = count := by rw [hpackets, List.length_map, List.length_range]
    have hextend : withCapacity ((repair.length + packets.length) * packetBytes) = .ok () :=
      withCapacity_eq_ok.mpr (Nat.le_trans (Nat.mul_le_mul_right _ (by omega)) hroom)
    have hrest : ((repair ++ packets).length + rounds.length * count) * packetBytes ≤ isizeMax := by
      rw [List.length_append, hlength]
      exact Nat.le_trans (Nat.mul_le_mul_right _ (by omega)) hroom
    obtain ⟨enc₂, hmore⟩ := repairRounds_eq faithful encodes hserves (hspec ▸ htotal) hrest
      fun r hr => by
        rw [hspec]
        exact hfit r (List.mem_cons_of_mem _ hr)
    rw [hspec] at hmore
    refine ⟨enc₂, ?_⟩
    simp only [repairRounds, hstart, hout, hextend, ok_bind]
    rw [hmore, hpackets, List.flatMap_cons, List.append_assoc]

/-- Rounds that were computed have room for their packets. -/
theorem repairRounds_room {object : Bytes} {count : Nat} :
    ∀ {rounds : List Nat} {enc enc' : TransferEncoderImpl eng} {repair packets : List TransferPacket},
      enc.Serves object → repair.length * packetBytes ≤ isizeMax →
      repairRounds count enc repair rounds = .ok (enc', packets) →
      (repair.length + rounds.length * count) * packetBytes ≤ isizeMax
  | [], _, _, repair, _, _, hroom, _ => by
    rw [List.length_nil, Nat.zero_mul, Nat.add_zero]
    exact hroom
  | round :: rounds, enc, enc', repair, packets, h, _, hrounds => by
    simp only [repairRounds, bind_eq_ok, withCapacity_eq_ok] at hrounds
    obtain ⟨_, _, ⟨next, out⟩, hout, _, hextend, hmore⟩ := hrounds
    obtain ⟨_, hserves, _, _, _, _, hemitted⟩ := TransferEncoderImpl.repairPackets_emitted h hout
    have hlength : out.length = count := by
      rw [← hemitted.length_eq, List.length_range]
    have hrest := repairRounds_room hserves (by rw [List.length_append]; exact hextend) hmore
    rw [List.length_append, hlength] at hrest
    rw [List.length_cons, Nat.succ_mul]
    exact Nat.le_trans (Nat.mul_le_mul_right _ (by omega)) hrest

/-! ## The plan -/

/-- Repair symbol `j` of a spec, as a packet. -/
def TransferSpec.repairPacket (spec : TransferSpec) (encode : EncodingMap) (object : Bytes)
    (numTotal j : Nat) : TransferPacket :=
  spec.packet encode object (spec.codecKind.repairIdsAt spec.sourceK numTotal j)

/-- The packets of all rounds have room. -/
def SendConfig.Fits (config : SendConfig) : Prop :=
  config.repairRounds.toNat * config.repairCount.toNat * packetBytes ≤ isizeMax

instance (config : SendConfig) : Decidable config.Fits :=
  inferInstanceAs (Decidable (_ ≤ isizeMax))

section

variable {object : Bytes} {session : SessionParams} {config : SendConfig} {numTotal : Nat}

/-- What has room is too little for an id to overflow. -/
theorem repairIds_of_room (totals : eng.TotalsFit) {spec : TransferSpec}
    (htotal : eng.numTotal spec = .ok numTotal) {n : Nat} (hroom : n * packetBytes ≤ isizeMax)
    {j : Nat} (hj : j < n) : numTotal + j ≤ usizeMax ∧ spec.sourceK + j ≤ usizeMax := by
  obtain ⟨hle, hsmall⟩ := totals.of_numTotal htotal
  unfold packetBytes isizeMax at hroom
  unfold usizeMax
  omega

theorem sendPlan_eq (faithful : eng.Faithful encode) (encodes : eng.Encodes)
    (totals : eng.TotalsFit) (hcarries : session.spec.Carries object)
    (hbuilds : eng.BuildsEncoder session.spec object)
    (htotal : eng.numTotal session.spec = .ok numTotal) (hroom : config.Fits) :
    sendPlan eng object session config = .ok (.ok
      ⟨(List.range session.spec.sourceK).map fun i => session.spec.packet encode object ⟨i, i⟩,
        (List.range (config.repairRounds.toNat * config.repairCount.toNat)).map
          (session.spec.repairPacket encode object numTotal)⟩) := by
  obtain ⟨enc, hnew⟩ := (TransferEncoderImpl.new_iff
    (validateSpec_eq_ok.mpr ⟨hcarries.length_pos, hcarries.symbol_pos⟩) hcarries.length).mpr
      ⟨hcarries.padded, hbuilds⟩
  obtain ⟨hspec, hserves⟩ := (TransferEncoderImpl.Constructed.new hnew).serves
  have hsource := TransferEncoderImpl.sourcePackets_eq faithful hserves
  have hrounds : ∀ round ∈ List.range config.repairRounds.toNat, ∀ i < config.repairCount.toNat,
      numTotal + (round * config.repairCount.toNat + i) ≤ usizeMax ∧
        enc.spec.sourceK + (round * config.repairCount.toNat + i) ≤ usizeMax :=
    fun round hround i hi =>
      repairIds_of_room totals (hspec ▸ htotal) hroom (round_lt (List.mem_range.mp hround) hi)
  have hempty : (([] : List TransferPacket).length + (List.range config.repairRounds.toNat).length *
      config.repairCount.toNat) * packetBytes ≤ isizeMax := by
    rw [List.length_nil, Nat.zero_add, List.length_range]
    exact hroom
  obtain ⟨enc', hrepair⟩ :=
    repairRounds_eq faithful encodes hserves (hspec ▸ htotal) hempty hrounds
  rw [hspec] at hsource hrepair
  rw [List.nil_append, flatMap_rounds fun j => session.spec.packet encode object
    (session.spec.codecKind.repairIdsAt session.spec.sourceK numTotal j)] at hrepair
  simp only [sendPlan, hnew, ok_bind, hrepair, hsource, pure_eq_ok]
  rfl

/-- What a plan needs of a session. -/
structure SessionParams.Plannable (session : SessionParams) (limits : BuildLimits)
    (config : SendConfig) : Prop where
  encodable : limits.encoder session.spec.codec session.spec.sourceK session.spec.symbolSizeT.toNat
  padded : session.spec.sourceK * session.spec.symbolSizeT.toNat ≤ isizeMax
  room : config.Fits

variable {limits : BuildLimits}

/-- A valid session and a matching object are planned exactly then. -/
theorem sendPlan_iff (faithful : eng.Faithful encode) (encodes : eng.Encodes)
    (builds : eng.Builds limits) (totals : eng.TotalsFit)
    (hvalid : validateSpec session.spec = .ok ())
    (hlength : object.length = session.spec.transferLengthF.toNat) :
    (∃ plan, sendPlan eng object session config = .ok (.ok plan)) ↔
      session.Plannable limits config := by
  obtain ⟨hf, ht⟩ := validateSpec_eq_ok.mp hvalid
  constructor
  · rintro ⟨plan, hplan⟩
    obtain ⟨enc, enc', hnew, _, hrepair⟩ := sendPlan_eq_ok hplan
    obtain ⟨hpadded, hencoder⟩ := (TransferEncoderImpl.new_iff hvalid hlength).mp ⟨enc, hnew⟩
    have hserves := (TransferEncoderImpl.Constructed.new hnew).serves.2
    have hroom := repairRounds_room hserves (Nat.zero_le _) hrepair
    rw [List.length_nil, Nat.zero_add, List.length_range] at hroom
    exact ⟨(builds.encoder_iff ht hlength).mp hencoder, hpadded, hroom⟩
  · rintro ⟨hencodable, hpadded, hroom⟩
    have hencoder := (builds.encoder_iff ht hlength).mpr hencodable
    obtain ⟨numTotal, htotal⟩ := hencoder.exists_numTotal
    exact ⟨_, sendPlan_eq faithful encodes totals ⟨hf, ht, hlength, hpadded⟩ hencoder htotal hroom⟩

/-! ## All or nothing -/

/-- An error and an empty wire, or success and the whole plan on the wire. -/
def AllOrNothing (eng : Engines) (object : Bytes) (session : SessionParams) (config : SendConfig)
    (progress : Bool) : Prop :=
  let run := sendObjectWithSocketImpl eng sendAlways object session config progress
  (∃ e, run.result = .ok (.error e) ∧ run.wire = []) ∨
    (run.result = .ok (.ok ()) ∧ ∃ plan, sendPlan eng object session config = .ok (.ok plan) ∧
      run.wire = plan.datagrams session)

variable {progress : Bool}

theorem not_allOrNothing_of_stray (faithful : eng.Faithful encode) {plan : SendPlan}
    (h : sendPlan eng object session config = .ok (.ok plan))
    (hlarge : 65478 < session.spec.symbolSizeT.toNat) :
    ¬ AllOrNothing eng object session config progress := by
  obtain ⟨hwire, hresult⟩ := sendObject_too_large faithful progress h hlarge
  rintro (⟨_, _, hnil⟩ | ⟨hok, _⟩)
  · cases hwire.symm.trans hnil
  · cases hresult.symm.trans hok

/-- A planning that panics is no error. -/
theorem planned_of_allOrNothing (hvalid : validateSpec session.spec = .ok ())
    (hlength : object.length = session.spec.transferLengthF.toNat)
    (h : AllOrNothing eng object session config progress) :
    ∃ plan, sendPlan eng object session config = .ok (.ok plan) := by
  match hplan : sendPlan eng object session config with
  | .error panic =>
    have hpanic : (sendObjectWithSocketImpl eng sendAlways object session config progress).result =
        .error panic := by
      simp only [sendObjectWithSocketImpl, hplan]
    rcases h with ⟨_, herror, _⟩ | ⟨hok, _⟩
    · cases hpanic.symm.trans herror
    · cases hpanic.symm.trans hok
  | .ok (.error e) => exact absurd hplan (sendPlan_not_refused hvalid hlength e)
  | .ok (.ok plan) => exact ⟨plan, rfl⟩

/-- For every valid session, matching object and configuration: the transfer is
all-or-nothing exactly when it can be planned and `29 + T` is within the datagram limit. -/
theorem all_or_nothing_iff (faithful : eng.Faithful encode) (encodes : eng.Encodes)
    (builds : eng.Builds limits) (totals : eng.TotalsFit)
    (hvalid : validateSpec session.spec = .ok ())
    (hlength : object.length = session.spec.transferLengthF.toNat) :
    AllOrNothing eng object session config progress ↔
      session.Plannable limits config ∧ session.spec.symbolSizeT.toNat ≤ 65478 := by
  rw [← sendPlan_iff faithful encodes builds totals hvalid hlength]
  constructor
  · intro hall
    obtain ⟨plan, hplan⟩ := planned_of_allOrNothing hvalid hlength hall
    refine ⟨⟨plan, hplan⟩, Decidable.byContradiction fun hlarge => ?_⟩
    exact not_allOrNothing_of_stray faithful hplan (Nat.not_le.mp hlarge) hall
  · rintro ⟨⟨plan, hplan⟩, hsmall⟩
    obtain ⟨hresult, hwire⟩ := sendObject_fits faithful progress hplan hsmall
    exact .inr ⟨hresult, plan, hplan, hwire⟩

end

open Repetition in
/-- One RaptorQ symbol and two repair symbols, with a callback. -/
theorem all_or_nothing_one_byte : AllOrNothing engines [42] ⟨7, specQ⟩ ⟨2, 1⟩ true :=
  (all_or_nothing_iff engines_faithful engines_encodes engines_builds engines_totals rfl rfl).mpr
    ⟨⟨⟨rfl, rfl, by decide⟩, by decide, by decide⟩, by decide⟩

namespace Repetition

/-- One byte in one symbol of 65479 bytes. -/
def wideSession : SessionParams := ⟨7, ⟨1, 65479, CodecKind.raptorQ.defaultConfig⟩⟩

theorem wideSession_planned : ∃ plan, sendPlan engines [42] wideSession ⟨0, 0⟩ = .ok (.ok plan) :=
  (sendPlan_iff engines_faithful engines_encodes engines_builds engines_totals rfl rfl).mpr
    ⟨⟨rfl, rfl, by decide⟩, by decide, by decide⟩

end Repetition

open Repetition in
/-- The metadata of a transfer none of whose packets can be sent. -/
theorem stray_metadata :
    validateSpec wideSession.spec = .ok () ∧
    (sendObjectWithSocketImpl engines sendAlways [42] wideSession ⟨0, 0⟩ false).wire =
      [metaFrame wideSession] ∧
    (sendObjectWithSocketImpl engines sendAlways [42] wideSession ⟨0, 0⟩ false).result =
      .ok (.error (.datagramTooLarge (29 + wideSession.spec.symbolSizeT.toNat))) ∧
    ¬ AllOrNothing engines [42] wideSession ⟨0, 0⟩ false := by
  obtain ⟨plan, hplan⟩ := wideSession_planned
  obtain ⟨hwire, hresult⟩ := sendObject_too_large engines_faithful false hplan (by decide)
  exact ⟨rfl, hwire, hresult, not_allOrNothing_of_stray engines_faithful hplan (by decide)⟩

end FountainTransfer
