import FountainTransfer.Cli
import FountainTransfer.Network

/-!
# Copying files between hosts

`fountain send` on some hosts and `fountain recv` on others, over one network.

1. `files_copied`: what `fountain recv` leaves on its host is a copy of the file of a sender
   it hears, or the files as they were.
2. `files_broadcast`: a file that `fountain send` can send can still be copied to any number
   of hosts that wait.
-/

namespace FountainTransfer

open HaltingMachine Medium

/-- The send that was prepared. -/
def Prepared.transmission (prepared : Prepared) (host : SendHost) (args : SendArgs) : Transmission :=
  ⟨prepared.object, args.config, host.sendTo, args.progress⟩

/-- Hosts `ι` where `fountain send` has come to its first datagram, and hosts `κ` where
`fountain recv` has bound its socket. Nothing else writes to their files. -/
structure Fleet (eng : Engines) (ι κ : Type) where
  sendHost : ι → SendHost
  sendArgs : ι → SendArgs
  prepared : ι → Prepared
  recvHost : κ → RecvHost
  recvArgs : κ → RecvArgs
  listenAddr : κ → SocketAddr
  hears : κ → ι → Prop
  launched : ∀ i, prepareSend (sendHost i) (sendArgs i) = .ok (prepared i)
  connected : ∀ i, (sendHost i).bindError = none
  bound : ∀ j, (recvHost j).bind (recvArgs j).listen = .ok (listenAddr j)
  esisFit : ∀ i, ((prepared i).transmission (sendHost i) (sendArgs i)).EsisFit eng
    (prepared i).session
  consistent : ∀ {j i i'}, hears j i → hears j i' →
    (prepared i).session.sessionId = (prepared i').session.sessionId →
    (prepared i).session = (prepared i').session ∧ (prepared i).object = (prepared i').object

section

variable {eng : Engines} {ι κ : Type}

theorem prepareSend_built {host : SendHost} {args : SendArgs} {p : Prepared}
    (h : prepareSend host args = .ok p) : ∃ f t kind,
      SessionParams.fromFileAndCli p.session.sessionId f t kind = .ok p.session := by
  simp only [prepareSend, bind_eq_ok, mapError_eq_ok, pure_eq_ok, Except.ok.injEq] at h
  obtain ⟨kind, _, _, _, object, _, session, hsession, rfl⟩ := h
  obtain ⟨_, _, rfl⟩ := fromFileAndCli_eq_ok.mp hsession
  exact ⟨UInt64.ofNat object.length, args.symbolSize.toUInt64, kind, hsession⟩

/-- The transfers behind the commands. -/
def Fleet.deployment (F : Fleet eng ι κ) : Deployment eng ι κ where
  session i := (F.prepared i).session
  transmission i := (F.prepared i).transmission (F.sendHost i) (F.sendArgs i)
  task j := ⟨(F.recvArgs j).config, (F.recvArgs j).progress, F.listenAddr j⟩
  hears := F.hears
  built i := prepareSend_built (F.launched i)
  esisFit := F.esisFit
  consistent := F.consistent

variable (F : Fleet eng ι κ)

/-- What `fountain recv` has done on host `j`. -/
def Fleet.command (w : F.deployment.World) (j : κ) : RecvCommand :=
  finishRecv (F.recvHost j).files (F.recvArgs j) ((w.nodes j).events, (w.nodes j).halt)

/-- The file that `fountain send` was given on host `i`. -/
def Fleet.input (i : ι) : Result IoError Bytes :=
  (F.sendHost i).files.content (F.sendArgs i).path

/-- The file that `fountain recv` was given on host `j`, by now. -/
def Fleet.output (w : F.deployment.World) (j : κ) : Result IoError Bytes :=
  (F.command w j).files.content (F.recvArgs j).output

/-- Host `j` may take up the session of host `i`. -/
def Fleet.Expects (j : κ) (i : ι) : Prop :=
  ∀ expected, (F.recvArgs j).sessionId = some expected → (F.prepared i).session.sessionId = expected

variable {F} {w w' : F.deployment.World} {i : ι} {j : κ}

/-! ## The commands and the transfers -/

theorem input_eq (F : Fleet eng ι κ) (i : ι) : F.input i = .ok (F.prepared i).object := by
  obtain ⟨_, hconfigured, _⟩ := prepareSend_eq_ok.mp (F.launched i)
  exact hconfigured.reads

/-- On the network is what `fountain send` sends. -/
theorem script_eq (F : Fleet eng ι κ) (i : ι) :
    F.deployment.setup.script i = (runSend eng (F.sendHost i) (F.sendArgs i)).wire := by
  rw [runSend, F.launched i]
  dsimp only
  rw [sendObject, F.connected i]
  rfl

/-- Each receiver runs `fountain recv`, on what the network offered it. -/
theorem command_eq [DecidableEq ι] [DecidableEq κ] (hreach : Reachable F.deployment.setup w)
    (j : κ) : ∃ arrivals, F.command w j = runRecv eng (F.recvHost j) (F.recvArgs j) arrivals ∧
      ∀ arrival ∈ arrivals, Offered F.deployment.setup w j arrival := by
  obtain ⟨arrivals, hrun, hoffered⟩ := hreach.hasRead j
  refine ⟨arrivals, ?_, hoffered⟩
  rw [runRecv, receiveObject, F.bound j, Fleet.command, hrun]
  rfl

theorem command_succeeds : (F.command w j).exit = some .success ↔
    (∃ object, Returned F.deployment w j object) ∧
      (F.recvHost j).files.denied (F.recvArgs j).output = none := by
  rw [Fleet.command, finishRecv_success]
  refine and_congr_left' ⟨?_, ?_⟩
  · rintro ⟨outcome, hok⟩
    exact ⟨_, outcome, hok, rfl⟩
  · rintro ⟨_, outcome, hok, _⟩
    exact ⟨outcome, hok⟩

/-- A command that succeeds leaves the object it received. -/
theorem output_eq {object : Bytes} (hreturned : Returned F.deployment w j object)
    (hwritable : (F.recvHost j).files.denied (F.recvArgs j).output = none) :
    F.output w j = .ok object := by
  obtain ⟨outcome, hok, rfl⟩ := hreturned
  rw [Fleet.output, Fleet.command, hok, (finishRecv_outcome outcome).1, write_allowed hwritable]
  exact Function.update_self ..

/-- The command is over. -/
theorem halted_of_exit (h : (F.command w j).exit ≠ none) : ∃ r, (w.nodes j).halt = some r := by
  refine Option.ne_none_iff_exists'.mp fun hnone => h ?_
  rw [Fleet.command, hnone]
  rfl

variable {encode : EncodingMap} {limits : BuildLimits}

/-- The plan of a command that would succeed. -/
theorem plan_of_success (faithful : eng.Faithful encode) (encodes : eng.Encodes)
    (builds : eng.Builds limits) (totals : eng.TotalsFit)
    (hsocket : (F.sendHost i).sendTo = sendAlways)
    (hsuccess : exitCode (runSend eng (F.sendHost i) (F.sendArgs i)).result = .success) :
    ∃ plan, sendPlan eng (F.prepared i).object (F.prepared i).session (F.sendArgs i).config =
        .ok (.ok plan) ∧
      (F.prepared i).session.spec.symbolSizeT.toNat ≤ 65478 := by
  have houtcome := runSend_outcome faithful encodes builds totals (F.sendArgs i)
    (F.connected i) hsocket
  generalize (runSend eng (F.sendHost i) (F.sendArgs i)).wire = wire,
    (runSend eng (F.sendHost i) (F.sendArgs i)).result = result at houtcome hsuccess
  cases houtcome with
  | refused _ => cases hsuccess
  | unplanned _ _ => cases hsuccess
  | tooLarge _ _ _ => cases hsuccess
  | sent hprepare _ hplan hsize =>
    cases (F.launched i).symm.trans hprepare
    obtain ⟨_, hconfigured, hsession⟩ := prepareSend_eq_ok.mp hprepare
    refine ⟨_, hplan, ?_⟩
    rw [hsession, hconfigured.spec.2.1]
    exact hsize

/-- ESIs fit in a `u32` when all symbols there could be do. -/
theorem esisFit_of_le (faithful : eng.Faithful encode) (encodes : eng.Encodes)
    (totals : eng.TotalsFit) {x : Transmission} {session : SessionParams}
    (h : ∀ numTotal, eng.numTotal session.spec = .ok numTotal →
      numTotal + x.config.repairRounds.toNat * x.config.repairCount.toNat ≤ 2 ^ 32) :
    x.EsisFit eng session := by
  intro plan hplan packet hmem
  obtain ⟨hcarries, _⟩ := plan_packets_sent faithful hplan
  have hbuilds := buildsEncoder_of_plan hplan
  obtain ⟨numTotal, htotal⟩ := hbuilds.exists_numTotal
  obtain ⟨hle, _⟩ := totals.of_numTotal htotal
  have hfit := h numTotal htotal
  have hroom : x.config.Fits := by
    unfold SendConfig.Fits packetBytes isizeMax
    omega
  cases hplan.symm.trans (sendPlan_eq faithful encodes totals hcarries hbuilds htotal hroom)
  have hesi : ∀ ids : RepairIds, ids.esi < 2 ^ 32 →
      (session.spec.packet encode x.object ids).esi.toNat < 2 ^ 32 := by
    intro ids hsmall
    rw [packet_esi (Nat.le_trans (Nat.le_of_lt hsmall) (by decide))]
    exact hsmall
  rcases List.mem_append.mp hmem with hmem | hmem
  · obtain ⟨i, hi, rfl⟩ := List.mem_map.mp hmem
    have hi := List.mem_range.mp hi
    exact hesi ⟨i, i⟩ (show i < 2 ^ 32 by omega)
  · obtain ⟨j, hj, rfl⟩ := List.mem_map.mp hmem
    have hj := List.mem_range.mp hj
    refine hesi _ ?_
    cases session.spec.codecKind with
    | raptorQ => exact (show session.spec.sourceK + j < 2 ^ 32 by omega)
    | raptor10 => exact (show numTotal + j < 2 ^ 32 by omega)

variable [DecidableEq ι] [DecidableEq κ]

/-! ## Safety -/

/-- For every fleet, every run, and every receiver: when its command exits with success, its
output equals the input of a sender it hears, whose session it may take up and which has
begun to send. When it does not, all files are as they were, or the write of the output has
failed. Other files are as they were in any case, and once the command is over nothing
changes. -/
theorem files_copied (faithful : eng.Faithful encode) (hreach : Reachable F.deployment.setup w)
    (hlater : Relation.ReflTransGen (Step F.deployment.setup) w w') (j : κ) :
    ((F.command w j).exit = some .success →
      ∃ i, F.hears j i ∧ F.Expects j i ∧ 0 < w.sent i ∧ F.output w j = F.input i) ∧
    ((F.command w j).exit ≠ some .success → (F.command w j).files = (F.recvHost j).files ∨
      ∃ source, (F.command w j).result =
        some (.ok (.error (.writeOutput (F.recvArgs j).output source)))) ∧
    (∀ path ≠ (F.recvArgs j).output,
      (F.command w j).files.content path = (F.recvHost j).files.content path) ∧
    ((F.command w j).exit ≠ none → F.command w' j = F.command w j) := by
  refine ⟨fun hsuccess => ?_, finishRecv_files, fun path hne => finishRecv_other hne, fun hexit => ?_⟩
  · obtain ⟨⟨object, hreturned⟩, hwritable⟩ := command_succeeds.mp hsuccess
    obtain ⟨i, ⟨hhears, hexpects⟩, hsent, hobject⟩ := hreturned.sourced faithful hreach
    refine ⟨i, hhears, hexpects, hsent, ?_⟩
    rw [output_eq hreturned hwritable, input_eq, hobject]
    rfl
  · obtain ⟨r, hr⟩ := halted_of_exit hexit
    rw [Fleet.command, Fleet.command, halted_stays hlater hr]

/-! ## Progress -/

/-- A command that would succeed can serve any number of receivers. -/
theorem exists_returned (faithful : eng.Faithful encode) (prompt : eng.PromptOnce encode)
    (encodes : eng.Encodes) (builds : eng.Builds limits) (totals : eng.TotalsFit)
    (hsmall : eng.SourceIdsFit) (hsocket : (F.sendHost i).sendTo = sendAlways)
    (hsuccess : exitCode (runSend eng (F.sendHost i) (F.sendArgs i)).result = .success)
    (hidle : w.sent i = 0) {js : List κ} (hready : ∀ j ∈ js, Ready F.deployment w j i) :
    ∃ w', Relation.ReflTransGen (Step F.deployment.setup) w w' ∧
      ∀ j ∈ js, Returned F.deployment w' j (F.prepared i).object := by
  obtain ⟨plan, hplan, hsize⟩ := plan_of_success faithful encodes builds totals hsocket hsuccess
  obtain ⟨w₁, hsends, hstill, hpool⟩ :=
    exists_broadcast (D := F.deployment) faithful hplan hsize hsocket hidle
  obtain ⟨w₂, hreads, hreturned⟩ := exists_received_all faithful prompt hsmall hplan hsize js hpool
    fun j hmem => hstill j (hready j hmem)
  exact ⟨w₂, hsends.trans hreads, hreturned⟩

/-- For every fleet, every world, a host on which `fountain send` would succeed and has yet to
send, and any number of receivers that hear it, still wait, can take up its session and can
write: the parties can go on so that all their commands exit with success, and every
output equals the input. -/
theorem files_broadcast (faithful : eng.Faithful encode) (prompt : eng.PromptOnce encode)
    (encodes : eng.Encodes) (builds : eng.Builds limits) (totals : eng.TotalsFit)
    (hsmall : eng.SourceIdsFit) (hsocket : (F.sendHost i).sendTo = sendAlways)
    (hsuccess : exitCode (runSend eng (F.sendHost i) (F.sendArgs i)).result = .success)
    (hidle : w.sent i = 0) {js : List κ} (hready : ∀ j ∈ js, Ready F.deployment w j i)
    (hwritable : ∀ j ∈ js, (F.recvHost j).files.denied (F.recvArgs j).output = none) :
    ∃ w', Relation.ReflTransGen (Step F.deployment.setup) w w' ∧
      ∀ j ∈ js, (F.command w' j).exit = some .success ∧ F.output w' j = F.input i := by
  obtain ⟨w', hsteps, hreturned⟩ :=
    exists_returned faithful prompt encodes builds totals hsmall hsocket hsuccess hidle hready
  refine ⟨w', hsteps, fun j hmem => ⟨?_, ?_⟩⟩
  · exact command_succeeds.mpr ⟨⟨_, hreturned j hmem⟩, hwritable j hmem⟩
  · rw [output_eq (hreturned j hmem) (hwritable j hmem), input_eq]

end

namespace Repetition

/-- Two hosts that wait for a file, and one with a file of four bytes. -/
def fourFleet : Fleet engines Unit Bool where
  sendHost _ := fourHost
  sendArgs _ := .default "in.bin" "peer:7878"
  prepared _ := ⟨sender, [1, 2, 3, 4],
    (SendArgs.default "in.bin" "peer:7878").session (some 7) .raptorQ [1, 2, 3, 4]⟩
  recvHost _ := ⟨fourFiles, fun _ => .ok ⟨0, 7878⟩⟩
  recvArgs _ := .default "out.bin"
  listenAddr _ := ⟨0, 7878⟩
  hears _ _ := True
  launched _ := prepareSend_eq_ok.mpr ⟨.raptorQ, four_configured, rfl⟩
  connected _ := rfl
  bound _ := rfl
  esisFit _ := esisFit_of_le engines_faithful engines_encodes engines_totals fun numTotal htotal => by
    cases htotal
    decide
  consistent _ _ _ := ⟨rfl, rfl⟩

theorem four_ready (j : Bool) : Ready fourFleet.deployment fourFleet.deployment.setup.initial j () :=
  ⟨trivial, rfl, (fun _ h => nomatch h), fun _ h => nomatch h⟩

/-- Both hosts get the file. -/
theorem four_returned : ∃ w : fourFleet.deployment.World, Reachable fourFleet.deployment.setup w ∧
    ∀ j, Returned fourFleet.deployment w j [1, 2, 3, 4] := by
  obtain ⟨w, hsteps, hreturned⟩ := exists_returned (F := fourFleet) (i := ()) engines_faithful
    engines_promptOnce engines_encodes engines_builds engines_totals
    engines_sourceIdsFit rfl four_sends rfl fun j (_ : j ∈ [true, false]) => four_ready j
  refine ⟨w, hsteps, fun j => hreturned j ?_⟩
  cases j <;> simp

end Repetition

open Repetition in
theorem files_copied_four : ∃ w, Reachable fourFleet.deployment.setup w ∧ ∀ j,
    (fourFleet.command w j).exit = some .success ∧
      ∃ i, fourFleet.hears j i ∧ fourFleet.Expects j i ∧ 0 < w.sent i ∧
        fourFleet.output w j = fourFleet.input i := by
  obtain ⟨w, hreach, hreturned⟩ := four_returned
  refine ⟨w, hreach, fun j => ?_⟩
  have hsuccess := command_succeeds.mpr ⟨⟨_, hreturned j⟩, rfl⟩
  exact ⟨hsuccess, (files_copied engines_faithful hreach .refl j).1 hsuccess⟩

open Repetition in
theorem files_broadcast_four : ∃ w, Reachable fourFleet.deployment.setup w ∧
    ∀ j ∈ [true, false], (fourFleet.command w j).exit = some .success ∧
      fourFleet.output w j = fourFleet.input () := by
  obtain ⟨w, hsteps, hcopied⟩ := files_broadcast (F := fourFleet) (i := ()) engines_faithful
    engines_promptOnce engines_encodes engines_builds engines_totals
    engines_sourceIdsFit rfl four_sends rfl (fun j _ => four_ready j) fun _ _ => rfl
  exact ⟨w, hsteps, hcopied⟩

end FountainTransfer
