import FountainTransfer.Copying
import FountainTransfer.Medium
import FountainTransfer.Recovery

/-!
# Many senders and many receivers on one network

Senders put their datagrams on the network one by one, and each receiver reads copies of
the datagrams of the senders it can hear, in any order and any number of times, between
timeouts, failures of its socket and stray datagrams. Nothing orders the steps of
different parties.

1. `Deployment.returned`: what a receiver returns is the object of one sender.
2. `network_copies`: all that the parties do together is copying, object by object.
3. `objects_agree`: two receivers of one session return the same object.
4. `never_wedged`: wherever a run has led, the receivers that wait can still get the object
   of a sender that has yet to send.
-/

namespace FountainTransfer

open HaltingMachine Medium

variable {eng : Engines} {encode : EncodingMap} {ι κ : Type}

/-! ## Deployments -/

/-- Senders `ι` and receivers `κ`. Two senders that one receiver hears have different
session ids, unless they send the same object in the same way. -/
structure Deployment (eng : Engines) (ι κ : Type) where
  session : ι → SessionParams
  transmission : ι → Transmission
  task : κ → RecvTask
  hears : κ → ι → Prop
  built : ∀ i, ∃ f t kind,
    SessionParams.fromFileAndCli (session i).sessionId f t kind = .ok (session i)
  esisFit : ∀ i, (transmission i).EsisFit eng (session i)
  consistent : ∀ {j i i'}, hears j i → hears j i' →
    (session i).sessionId = (session i').sessionId →
    session i = session i' ∧ (transmission i).object = (transmission i').object

section

variable (D : Deployment eng ι κ)

/-- Not of the transfers receiver `j` can hear: no session of theirs, and no other session
that `j` would take up. A timeout or a failure of the socket is such an arrival too. -/
def Deployment.Stray (j : κ) (arrival : Arrival) : Prop :=
  ∀ message peer, heard arrival = some (message, peer) →
    (∀ i, D.hears j i → message.sessionId ≠ (D.session i).sessionId) ∧
    ∀ spec, specFromSessionMeta message = .ok spec →
      ∃ expected, (D.task j).config.expectedSessionId = some expected ∧
        message.sessionId ≠ expected

def Deployment.setup :
    Setup ι κ Bytes (RecvState eng) Arrival ProgressEvent RecvEnd where
  script i := (D.transmission i).wire eng (D.session i)
  hears := D.hears
  reads bytes arrival := ∃ peer, arrival = .datagram bytes peer
  stray := D.Stray
  step j := step (D.task j)
  start _ := RecvState.initial eng

/-- The receivers and senders at one time. -/
abbrev Deployment.World (_ : Deployment eng ι κ) : Type :=
  Medium.World ι κ Bytes (RecvState eng) ProgressEvent RecvEnd

/-- The object receiver `j` has returned. -/
def Returned (w : D.World) (j : κ) (object : Bytes) : Prop :=
  ∃ outcome : RecvOutcome, (w.nodes j).halt = some (.ok (.ok outcome)) ∧ outcome.object = object

/-- Receiver `j` still waits, and may take up the session of sender `i`. -/
structure Ready (w : D.World) (j : κ) (i : ι) : Prop where
  hears : D.hears j i
  waits : (w.nodes j).halt = none
  admits : Admits (D.task j) (w.nodes j).state (D.session i).sessionId

/-- What the parties are there to do: sender `i` offers its object to the receivers that
hear it and do not expect another session. -/
def Deployment.offers : Copying.Offers ι κ Bytes where
  object i := (D.transmission i).object
  hears j i := D.hears j i ∧ ∀ expected, (D.task j).config.expectedSessionId = some expected →
    (D.session i).sessionId = expected

def fateOf : Option RecvEnd → Copying.Fate Bytes
  | none => .waiting
  | some (.ok (.ok outcome)) => .got outcome.object
  | some _ => .failed

def Deployment.view (w : D.World) : Copying.State ι κ Bytes where
  begun i := 0 < w.sent i
  fate j := fateOf (w.nodes j).halt

end

/-! ## Where a session comes from -/

section

variable {task : RecvTask} {s : RecvState eng} {arrivals : List Arrival}

/-- The session the receiver holds was announced by one of the arrivals. -/
def Announced (arrivals : List Arrival) (s : RecvState eng) : Prop :=
  ∀ active, s.session = some active → ∃ arrival ∈ arrivals, Announces arrival active

theorem run_announced (hinv : RecvInv task s) (h : Announced arrivals s) {outcome : RecvOutcome}
    (hok : (run (step task) s arrivals).halt = some (.ok (.ok outcome))) :
    RecvInv task (run (step task) s arrivals).state ∧ ∃ active,
      (run (step task) s arrivals).state.session = some active ∧
      ∃ arrival ∈ arrivals, Announces arrival active := by
  have hsafe := run_safe (P := fun s => RecvInv task s ∧ Announced arrivals s)
    (Q := fun s (r : RecvEnd) => ∀ outcome : RecvOutcome, r = .ok (.ok outcome) →
      RecvInv task s ∧ ∃ active, s.session = some active ∧
        ∃ arrival ∈ arrivals, Announces arrival active)
    ⟨hinv, h⟩ fun s arrival hmem hs => by
      have heffect := step_effect task s arrival
      have hnext : Announced arrivals (step task s arrival).state := by
        intro active hactive
        rcases heffect.session hs.1 with hsame | ⟨session, hannounces, _, hsession⟩
        · exact hs.2 active (hsame.symm.trans hactive)
        · cases hsession.symm.trans hactive
          exact ⟨arrival, hmem, hannounces⟩
      refine ⟨fun _ => ⟨heffect.preserves hs.1, hnext⟩, ?_⟩
      rintro _ hhalt outcome rfl
      obtain ⟨active, hactive⟩ := heffect.session_of_ok hs.1 hhalt
      exact ⟨heffect.preserves hs.1, active, hactive, hnext active hactive⟩
  exact hsafe.2 _ hok outcome rfl

end

section

variable (D : Deployment eng ι κ) (w : D.World)

theorem view_initial : D.view D.setup.initial = Copying.State.start ι κ Bytes := by
  simp [Deployment.view, Setup.initial, Copying.State.start, fateOf]

theorem view_put [DecidableEq ι] (i : ι) (bytes : Bytes) :
    D.view (w.put i bytes) = { D.view w with begun := fun i' => i' = i ∨ (D.view w).begun i' } := by
  simp only [Deployment.view, World.put, Copying.State.mk.injEq, and_true]
  funext i'
  by_cases heq : i' = i
  · subst heq
    simp
  · simp [heq]

theorem view_read [DecidableEq κ] (j : κ) (arrival : Arrival) :
    D.view (w.read D.setup j arrival) =
      (D.view w).settle j (fateOf (step (D.task j) (w.nodes j).state arrival).halt) := by
  simp only [Deployment.view, Copying.State.settle, read_sent, Copying.State.mk.injEq, true_and]
  funext j'
  by_cases heq : j' = j
  · subst heq
    rw [read_self, after_halt, Function.update_self]
    rfl
  · rw [read_other heq, Function.update_of_ne heq]

variable {D w}

/-- A receiver has returned what its destination got. -/
theorem returned_iff {j : κ} {object : Bytes} :
    Returned D w j object ↔ (D.view w).fate j = .got object := by
  show (∃ outcome : RecvOutcome, _) ↔ fateOf (w.nodes j).halt = _
  constructor
  · rintro ⟨outcome, hok, rfl⟩
    rw [hok, fateOf]
  · intro hgot
    cases hhalt : (w.nodes j).halt with
    | none =>
      rw [hhalt] at hgot
      cases hgot
    | some r =>
      rw [hhalt] at hgot
      rcases r with _ | _ | outcome
      · cases hgot
      · cases hgot
      · cases hgot
        exact ⟨outcome, rfl, rfl⟩

end

/-! ## Safety -/

section

variable {D : Deployment eng ι κ} {w w' : D.World} {j : κ} {i : ι}

theorem Deployment.default (D : Deployment eng ι κ) (i : ι) :
    (D.session i).spec.codec = (D.session i).spec.codecKind.defaultConfig := by
  obtain ⟨f, t, kind, hsession⟩ := D.built i
  obtain ⟨_, _, heq⟩ := fromFileAndCli_eq_ok.mp hsession
  rw [heq, TransferSpec.codecKind, defaultConfig_kind]

/-- What was offered to a receiver does no harm to a session it hears. -/
theorem honest_of_offered (faithful : eng.Faithful encode) (hhears : D.hears j i) {arrival : Arrival}
    (hoffered : Offered D.setup w j arrival) {message : WireMessage} {peer : SocketAddr}
    (hheard : heard arrival = some (message, peer)) :
    Honest eng encode (D.session i) (D.transmission i).object message := by
  rcases hoffered with hstray | ⟨i', hhears', bytes, hbytes, sender, rfl⟩
  · exact .foreign ((hstray message peer hheard).1 i hhears)
  · have hwire : bytes ∈ (D.transmission i').wire eng (D.session i') := List.mem_of_mem_take hbytes
    by_cases hid : (D.session i').sessionId = (D.session i).sessionId
    · obtain ⟨hsession, hobject⟩ := D.consistent hhears' hhears hid
      rw [← hsession, ← hobject]
      exact honest_of_wire faithful (D.esisFit i') hwire hheard
    · refine .foreign fun heq => hid (Eq.trans ?_ heq)
      rcases heard_of_wire faithful hwire hheard with rfl | ⟨_, _, _, _, rfl, _⟩
      · rfl
      · rfl

/-- Only a sender the receiver hears can have announced the session it holds. -/
theorem sender_of_announced (faithful : eng.Faithful encode) {arrival : Arrival}
    {active : SessionParams}
    (hexpected : ∀ expected, (D.task j).config.expectedSessionId = some expected →
      active.sessionId = expected)
    (hoffered : Offered D.setup w j arrival) (hannounces : Announces arrival active) :
    ∃ i, D.hears j i ∧ 0 < w.sent i ∧ active.sessionId = (D.session i).sessionId := by
  obtain ⟨message, peer, hheard, hid, hspec⟩ := hannounces
  rcases hoffered with hstray | ⟨i, hhears, bytes, hbytes, sender, rfl⟩
  · obtain ⟨expected, he, hne⟩ := (hstray message peer hheard).2 _ hspec
    exact absurd (hid.trans (hexpected expected he)) hne
  · refine ⟨i, hhears, ?_, ?_⟩
    · refine Nat.pos_of_ne_zero fun hzero => ?_
      rw [hzero] at hbytes
      exact nomatch hbytes
    · rcases heard_of_wire faithful (List.mem_of_mem_take hbytes) hheard with
        rfl | ⟨_, _, _, _, rfl, _⟩
      · exact hid.symm
      · cases hspec

variable [DecidableEq ι] [DecidableEq κ]

/-- What a receiver returns is the object of a sender it hears, whose session it holds and
which has begun to send. -/
theorem Deployment.returned (faithful : eng.Faithful encode) (hreach : Reachable D.setup w)
    {outcome : RecvOutcome} (hok : (w.nodes j).halt = some (.ok (.ok outcome))) :
    ∃ i, D.offers.hears j i ∧ 0 < w.sent i ∧
      HoldsSession (D.session i).sessionId (w.nodes j).state ∧
      outcome.object = (D.transmission i).object := by
  obtain ⟨history, hrun, hoffered⟩ := hreach.hasRead j
  have hreceive : w.nodes j = receive eng (D.task j) history := hrun
  rw [hreceive] at hok ⊢
  obtain ⟨hinv, active, hactive, arrival, hmem, hannounces⟩ :=
    run_announced (.initial (D.task j)) (fun _ h => nomatch h) hok
  have hexpected : ∀ expected, (D.task j).config.expectedSessionId = some expected →
      active.sessionId = expected := fun _ he => hinv.expected hactive he
  obtain ⟨i, hhears, hsent, hid⟩ :=
    sender_of_announced faithful hexpected (hoffered arrival hmem) hannounces
  have hheld : HoldsSession (D.session i).sessionId (receive eng (D.task j) history).state :=
    ⟨active, hactive, hid⟩
  have hhonest : AllHonest eng encode (D.session i) (D.transmission i).object history :=
    fun arrival hmem message peer hheard =>
      honest_of_offered faithful hhears (hoffered arrival hmem) hheard
  refine ⟨i, ⟨hhears, fun expected he => hid.symm.trans (hexpected expected he)⟩, hsent, hheld, ?_⟩
  exact run_collects faithful (D.default i) hhonest (.initial _) (fun _ h => nomatch h) hok hheld

/-! ## Refinement -/

/-- Whatever one party does is copying, or nothing. -/
theorem step_copies (faithful : eng.Faithful encode) (hreach : Reachable D.setup w)
    (hstep : Step D.setup w w') :
    D.view w' = D.view w ∨ Copying.Step D.offers (D.view w) (D.view w') := by
  have hreach' : Reachable D.setup w' := hreach.tail hstep
  cases hstep with
  | send i bytes _ =>
    rw [view_put]
    exact .inr (.begins i)
  | lose _ _ => exact .inl rfl
  | read j arrival hwaits _ =>
    have hwaiting : (D.view w).fate j = .waiting := congrArg fateOf hwaits
    have hself : ((w.read D.setup j arrival).nodes j).halt =
        (step (D.task j) (w.nodes j).state arrival).halt := by
      rw [read_self, after_halt]
      rfl
    rw [view_read]
    match hhalt : (step (D.task j) (w.nodes j).state arrival).halt with
    | none =>
      left
      simp only [Copying.State.settle, fateOf, ← hwaiting, Function.update_eq_self]
    | some (.ok (.ok outcome)) =>
      obtain ⟨i, hhears, hbegun, _, hobject⟩ :=
        Deployment.returned faithful hreach' (hself.trans hhalt)
      rw [fateOf, hobject]
      exact .inr (.copies j i hwaiting hbegun hhears)
    | some (.ok (.error _)) => exact .inr (.fails j hwaiting)
    | some (.error _) => exact .inr (.fails j hwaiting)

/-- From any reachable world on, what happens is copying. -/
theorem view_later (faithful : eng.Faithful encode) (hreach : Reachable D.setup w)
    (hlater : Relation.ReflTransGen (Step D.setup) w w') :
    Relation.ReflTransGen (Copying.Step D.offers) (D.view w) (D.view w') :=
  simulation (fun _ _ hsteps hstep => step_copies faithful (hreach.trans hsteps) hstep) hlater

/-- What a reachable world looks like is reached by copying. -/
theorem view_reachable (faithful : eng.Faithful encode) (hreach : Reachable D.setup w) :
    Copying.Reachable D.offers (D.view w) := by
  rw [Copying.Reachable, ← view_initial]
  exact view_later faithful .refl hreach

/-- For every deployment and every run of it, each step any party takes next copies the object
of a sender to a receiver that waits for it, settles that a receiver gets nothing, lets a
sender begin, or does nothing; and the whole run was made of such steps. -/
theorem network_copies (faithful : eng.Faithful encode) (hreach : Reachable D.setup w) :
    Copying.Reachable D.offers (D.view w) ∧
    ∀ w', Step D.setup w w' →
      D.view w' = D.view w ∨ Copying.Step D.offers (D.view w) (D.view w') :=
  ⟨view_reachable faithful hreach, fun _ => step_copies faithful hreach⟩

/-! ## What a receiver returned -/

theorem Returned.sourced (faithful : eng.Faithful encode) (hreach : Reachable D.setup w)
    {object : Bytes} (h : Returned D w j object) :
    ∃ i, D.offers.hears j i ∧ 0 < w.sent i ∧ object = (D.transmission i).object := by
  exact (view_reachable faithful hreach).got j object (returned_iff.mp h)

theorem Returned.stays (faithful : eng.Faithful encode) (hreach : Reachable D.setup w)
    (hlater : Relation.ReflTransGen (Step D.setup) w w') {object : Bytes}
    (h : Returned D w j object) : Returned D w' j object := by
  have hgot : (D.view w).fate j = .got object := returned_iff.mp h
  have hsame := Copying.final (j := j) (view_later faithful hreach hlater) (by rw [hgot]; nofun)
  exact returned_iff.mpr (hsame.trans hgot)

/-! ## Agreement -/

/-- For every deployment, two receivers, and two times of a run: when both have returned an
object for sessions of one id, and no two senders they hear use this id for different
objects, the objects are equal, and the earlier one is still the result later. -/
theorem objects_agree (faithful : eng.Faithful encode) {j' : κ} {sessionId : UInt64}
    {object object' : Bytes} (hreach : Reachable D.setup w)
    (hlater : Relation.ReflTransGen (Step D.setup) w w')
    (hreturned : Returned D w j object) (hreturned' : Returned D w' j' object')
    (hheld : HoldsSession sessionId (w.nodes j).state)
    (hheld' : HoldsSession sessionId (w'.nodes j').state)
    (hone : ∀ i i', D.hears j i → D.hears j' i' → (D.session i).sessionId = sessionId →
      (D.session i').sessionId = sessionId → (D.transmission i).object = (D.transmission i').object) :
    object = object' ∧ Returned D w' j object := by
  refine ⟨?_, hreturned.stays faithful hreach hlater⟩
  obtain ⟨outcome, hok, rfl⟩ := hreturned
  obtain ⟨outcome', hok', rfl⟩ := hreturned'
  have hreach' : Reachable D.setup w' := hreach.trans hlater
  obtain ⟨i, ⟨hhears, _⟩, _, ⟨active, hactive, hid⟩, hobject⟩ :=
    Deployment.returned faithful hreach hok
  obtain ⟨i', ⟨hhears', _⟩, _, ⟨active', hactive', hid'⟩, hobject'⟩ :=
    Deployment.returned faithful hreach' hok'
  obtain ⟨_, hsame, heq⟩ := hheld
  obtain ⟨_, hsame', heq'⟩ := hheld'
  cases hactive.symm.trans hsame
  cases hactive'.symm.trans hsame'
  rw [hobject, hobject']
  exact hone i i' hhears hhears' (hid.symm.trans heq) (hid'.symm.trans heq')

/-! ## Progress -/

/-- A sender that has yet to send can put all its datagrams on the network before any receiver
goes on. -/
theorem exists_broadcast {plan : SendPlan} (faithful : eng.Faithful encode)
    (hplan : sendPlan eng (D.transmission i).object (D.session i) (D.transmission i).config =
      .ok (.ok plan))
    (hsize : (D.session i).spec.symbolSizeT.toNat ≤ 65478)
    (hsocket : (D.transmission i).sendTo = sendAlways) (hidle : w.sent i = 0) :
    ∃ w', Relation.ReflTransGen (Step D.setup) w w' ∧ (∀ j, Ready D w j i → Ready D w' j i) ∧
      ∀ bytes ∈ plan.datagrams (D.session i), (i, bytes) ∈ w'.pool := by
  have hwire : D.setup.script i = plan.datagrams (D.session i) := by
    show (sendObjectWithSocketImpl eng (D.transmission i).sendTo _ _ _ _).wire = _
    rw [hsocket]
    exact (sendObject_fits faithful _ hplan hsize).2
  obtain ⟨w', hsends, hnodes, _, hpool⟩ := exists_sent (S := D.setup) i w
  rw [hidle, List.drop_zero, hwire] at hpool
  refine ⟨w', hsends, fun j hready => ?_, hpool⟩
  exact ⟨hready.hears, hnodes ▸ hready.waits, hnodes ▸ hready.admits⟩

/-- From the datagrams on the network, a receiver that is ready can get the object. The other
receivers stay as they are. -/
theorem exists_received (faithful : eng.Faithful encode) (prompt : eng.PromptOnce encode)
    (hsmall : eng.SourceIdsFit) {plan : SendPlan}
    (hplan : sendPlan eng (D.transmission i).object (D.session i) (D.transmission i).config =
      .ok (.ok plan))
    (hsize : (D.session i).spec.symbolSizeT.toNat ≤ 65478)
    (hpool : ∀ bytes ∈ plan.datagrams (D.session i), (i, bytes) ∈ w.pool) (hready : Ready D w j i) :
    ∃ w', Relation.ReflTransGen (Step D.setup) w w' ∧ w'.pool = w.pool ∧
      (∀ j' ≠ j, w'.nodes j' = w.nodes j') ∧ Returned D w' j (D.transmission i).object := by
  obtain ⟨hhears, hwaits, hadmits⟩ := hready
  let peer : SocketAddr := ⟨0, 0⟩
  let after : List Arrival :=
    plan.source.map fun packet => .datagram (packetFrame (D.session i).sessionId packet) peer
  have hoffer : ∀ bytes ∈ plan.datagrams (D.session i),
      OnOffer D.setup w j (.datagram bytes peer) := fun bytes hmem =>
    .inr ⟨i, bytes, hpool bytes hmem, hhears, peer, rfl⟩
  have hoffers : ∀ arrival ∈ .datagram (metaFrame (D.session i)) peer :: after,
      OnOffer D.setup w j arrival := by
    intro arrival hmem
    rcases List.mem_cons.mp hmem with rfl | hmem
    · exact hoffer _ List.mem_cons_self
    · obtain ⟨packet, hpacket, rfl⟩ := List.mem_map.mp hmem
      exact hoffer _ (List.mem_cons_of_mem _ (List.mem_map_of_mem (List.mem_append_left _ hpacket)))
  obtain ⟨w', hreads, hpool', hread⟩ := exists_read w hoffers hwaits
  obtain ⟨outcome, hok, hobject⟩ :=
    run_recovers_once faithful prompt hsmall hplan (D.default i) hsize hadmits peer
  refine ⟨w', hreads, hpool', fun j' hne => ?_, outcome, ?_, hobject⟩
  · rw [hread, Function.update_of_ne hne]
  · rw [hread, Function.update_self, after_halt]
    exact hok

/-- One sender serves any number of receivers, one after the other. -/
theorem exists_received_all (faithful : eng.Faithful encode) (prompt : eng.PromptOnce encode)
    (hsmall : eng.SourceIdsFit) {plan : SendPlan}
    (hplan : sendPlan eng (D.transmission i).object (D.session i) (D.transmission i).config =
      .ok (.ok plan))
    (hsize : (D.session i).spec.symbolSizeT.toNat ≤ 65478) :
    ∀ (js : List κ) {w : D.World}, (∀ bytes ∈ plan.datagrams (D.session i), (i, bytes) ∈ w.pool) →
      (∀ j ∈ js, Ready D w j i) → ∃ w', Relation.ReflTransGen (Step D.setup) w w' ∧
        ∀ j ∈ js, Returned D w' j (D.transmission i).object
  | [], w, _, _ => ⟨w, .refl, fun _ hmem => nomatch hmem⟩
  | j :: js, w, hpool, hready => by
    have hmore : ∀ j' ∈ js, Ready D w j' i := fun j' hmem => hready j' (List.mem_cons_of_mem j hmem)
    by_cases hagain : j ∈ js
    · obtain ⟨w', hsteps, hreturned⟩ :=
        exists_received_all faithful prompt hsmall hplan hsize js hpool hmore
      refine ⟨w', hsteps, fun j' hmem => ?_⟩
      rcases List.mem_cons.mp hmem with rfl | hmem
      · exact hreturned j' hagain
      · exact hreturned j' hmem
    · obtain ⟨w₁, hfirst, hpool₁, hothers, outcome, hok, hobject⟩ :=
        exists_received faithful prompt hsmall hplan hsize hpool (hready j List.mem_cons_self)
      have hready₁ : ∀ j' ∈ js, Ready D w₁ j' i := by
        intro j' hmem
        obtain ⟨hhears, hwaits, hadmits⟩ := hmore j' hmem
        rw [← hothers j' fun heq => hagain (heq ▸ hmem)] at hwaits hadmits
        exact ⟨hhears, hwaits, hadmits⟩
      obtain ⟨w₂, hrest, hreturned⟩ := exists_received_all faithful prompt hsmall hplan hsize js
        (fun bytes hmem => hpool₁ ▸ hpool bytes hmem) hready₁
      refine ⟨w₂, hfirst.trans hrest, fun j' hmem => ?_⟩
      rcases List.mem_cons.mp hmem with rfl | hmem
      · exact ⟨outcome, halted_stays hrest hok ▸ hok, hobject⟩
      · exact hreturned j' hmem

/-- For every deployment, every world, a sender that has yet to send, with a plan for symbols
that fit a datagram, and any number of receivers that hear it and still wait: unless they are
bound to another session, the parties can go on so that all of them return the object,
whatever they have read before. -/
theorem never_wedged (faithful : eng.Faithful encode) (prompt : eng.PromptOnce encode)
    (hsmall : eng.SourceIdsFit) {plan : SendPlan}
    (hplan : sendPlan eng (D.transmission i).object (D.session i) (D.transmission i).config =
      .ok (.ok plan))
    (hsize : (D.session i).spec.symbolSizeT.toNat ≤ 65478)
    (hsocket : (D.transmission i).sendTo = sendAlways) (hidle : w.sent i = 0) {js : List κ}
    (hready : ∀ j ∈ js, Ready D w j i) :
    ∃ w', Relation.ReflTransGen (Step D.setup) w w' ∧
      ∀ j ∈ js, Returned D w' j (D.transmission i).object := by
  obtain ⟨w₁, hsends, hstill, hpool⟩ := exists_broadcast faithful hplan hsize hsocket hidle
  obtain ⟨w₂, hreads, hreturned⟩ := exists_received_all faithful prompt hsmall hplan hsize js hpool
    fun j hmem => hstill j (hready j hmem)
  exact ⟨w₂, hsends.trans hreads, hreturned⟩

end

namespace Repetition

/-- Four bytes in session 7 and one byte in session 8, and two receivers. -/
def pairDeployment : Deployment engines Bool Bool where
  session
    | true => session10
    | false => ⟨8, specQ⟩
  transmission
    | true => transmission10
    | false => ⟨[42], ⟨0, 0⟩, sendAlways, false⟩
  task _ := openTask
  hears _ _ := True
  built
    | true => ⟨4, 1, .raptor10, rfl⟩
    | false => ⟨1, 1, .raptorQ, rfl⟩
  esisFit
    | true => transmission10_fits
    | false => fun plan hplan => by
      cases hplan
      decide
  consistent {_ i i'} _ _ hid := by
    cases i <;> cases i'
    · exact ⟨rfl, rfl⟩
    · exact absurd hid (by decide)
    · exact absurd hid (by decide)
    · exact ⟨rfl, rfl⟩

theorem stray_junk (j : Bool) : pairDeployment.Stray j (.datagram [9, 9] sender) :=
  fun _ _ hheard => nomatch hheard

theorem pair_onOffer {w : pairDeployment.World}
    (hpool : ∀ bytes ∈ pairDeployment.setup.script true, (true, bytes) ∈ w.pool) (j : Bool) :
    ∀ arrival ∈ arrivalsOf frames10, OnOffer pairDeployment.setup w j arrival := by
  have hcases : ∀ bytes ∈ frames10,
      bytes ∈ transmission10.wire engines session10 ∨ bytes = [9, 9] := by decide
  intro arrival hmem
  obtain ⟨bytes, hbytes, rfl⟩ := List.mem_map.mp hmem
  rcases hcases bytes hbytes with hwire | rfl
  · exact .inr ⟨true, bytes, hpool bytes hwire, trivial, sender, rfl⟩
  · exact .inl (stray_junk j)

/-- A receiver that has read nothing yet may read the frames. -/
theorem pair_reads {w : pairDeployment.World} {j : Bool}
    (hpool : ∀ bytes ∈ pairDeployment.setup.script true, (true, bytes) ∈ w.pool)
    (hidle : w.nodes j = ⟨.initial engines, [], none⟩) :
    ∃ w', Relation.ReflTransGen (Medium.Step pairDeployment.setup) w w' ∧ w'.pool = w.pool ∧
      w'.nodes = Function.update w.nodes j (receive engines openTask (arrivalsOf frames10)) := by
  obtain ⟨w', hreads, hpool', hnodes⟩ := exists_read w (pair_onOffer hpool j) (by rw [hidle])
  rw [hidle, after_nil] at hnodes
  exact ⟨w', hreads, hpool', hnodes⟩

/-- Both receivers get the four bytes. -/
theorem pair_received : ∃ w : pairDeployment.World, Reachable pairDeployment.setup w ∧
    ∀ j, w.nodes j = receive engines openTask (arrivalsOf frames10) := by
  obtain ⟨w₁, hsends, hnodes₁, _, hpool⟩ :=
    exists_sent (S := pairDeployment.setup) true pairDeployment.setup.initial
  have hidle : ∀ j, w₁.nodes j = ⟨.initial engines, [], none⟩ := fun j => congrFun hnodes₁ j
  obtain ⟨w₂, hreads₂, hpool₂, hnodes₂⟩ := pair_reads hpool (hidle true)
  obtain ⟨w₃, hreads₃, _, hnodes₃⟩ := pair_reads (j := false) (hpool₂ ▸ hpool)
    (by rw [hnodes₂, Function.update_of_ne (by decide), hidle])
  refine ⟨w₃, (hsends.trans hreads₂).trans hreads₃, fun j => ?_⟩
  rw [hnodes₃]
  cases j with
  | true => rw [Function.update_of_ne (by decide), hnodes₂, Function.update_self]
  | false => rw [Function.update_self]

/-- Both receivers are in a transfer of another file under the id of the four bytes. -/
def pairBusy : pairDeployment.World := ⟨fun _ => 0, [], fun _ => ⟨activeQ, [], none⟩⟩

end Repetition

open Repetition in
theorem network_copies_pair : ∃ w, Reachable pairDeployment.setup w ∧
    (∀ j, Returned pairDeployment w j [1, 2, 3, 4]) ∧
    Copying.Reachable pairDeployment.offers (pairDeployment.view w) ∧
    ∀ w', Medium.Step pairDeployment.setup w w' → pairDeployment.view w' = pairDeployment.view w ∨
      Copying.Step pairDeployment.offers (pairDeployment.view w) (pairDeployment.view w') := by
  obtain ⟨w, hreach, hnodes⟩ := pair_received
  refine ⟨w, hreach, fun j => ⟨outcome10, ?_, rfl⟩, network_copies engines_faithful hreach⟩
  rw [hnodes]
  rfl

open Repetition in
theorem objects_agree_pair : ∃ w, Reachable pairDeployment.setup w ∧ ∃ object object',
    Returned pairDeployment w true object ∧ Returned pairDeployment w false object' ∧
      object = object' ∧ Returned pairDeployment w true object := by
  obtain ⟨w, hreach, hnodes⟩ := pair_received
  have hreturned : ∀ j, Returned pairDeployment w j [1, 2, 3, 4] := fun j =>
    ⟨outcome10, by rw [hnodes]; rfl, rfl⟩
  have hheld : ∀ j, HoldsSession 7 (w.nodes j).state := fun j =>
    ⟨session10, by rw [hnodes]; rfl, rfl⟩
  refine ⟨w, hreach, _, _, hreturned true, hreturned false, ?_⟩
  refine objects_agree engines_faithful hreach .refl (hreturned true) (hreturned false) (hheld true)
    (hheld false) ?_
  intro i i' _ _ hid hid'
  exact (pairDeployment.consistent (j := true) trivial trivial (hid.trans hid'.symm)).2

open Repetition in
theorem never_wedged_pair : ∃ w',
    Relation.ReflTransGen (Medium.Step pairDeployment.setup) pairBusy w' ∧
      ∀ j ∈ [true, false], Returned pairDeployment w' j [1, 2, 3, 4] :=
  never_wedged (i := true) engines_faithful engines_promptOnce engines_sourceIdsFit
    (rfl : sendPlan engines [1, 2, 3, 4] session10 ⟨1, 1⟩ = .ok (.ok plan10)) (by decide) rfl rfl
    fun _ _ => ⟨trivial, rfl, (fun _ h => nomatch h), fun _ h => by cases h; rfl⟩

end FountainTransfer
