import FountainTransfer.Recovery
import FountainTransfer.Timeout

/-!
# Pacing and transfers in time

With a clock, the send loops of `sender.rs` sleep for `inter_packet_delay` after every
source and repair packet, and not after the metadata. What a sender puts on the wire does
not depend on it; when it does is `Pace.time`.

1. `paced_send`: the paced sender is the one of `sendObjectWithSocketImpl`, and it sends at
   the times of its pace, so in no interval more often than the delay allows.
2. `run_steady`: a receiver that never waits too long reads as if there were no timeout.
3. `paced_transfer`: a transfer paced slowly over a network that keeps the order is
   received when delay and jitter stay below the timeout, and by when.
-/

namespace FountainTransfer

open HaltingMachine

variable {eng : Engines} {encode : EncodingMap}

/-! ## The clock of a sender -/

/-- `inter_packet_delay`, and what else passes between message `n` and the next one. -/
structure Pace where
  interPacketDelay : Duration
  lag : Nat → Duration

/-- When the sender is ready for message `n`, if it is for the first one at `start`. -/
def Pace.time (pace : Pace) (start : Nat) : Nat → Nat
  | 0 => start
  | 1 => start + pace.lag 0
  | n + 2 => pace.time start (n + 1) + pace.lag (n + 1) + pace.interPacketDelay

/-- The locals of the send loops, the times of the datagrams sent, and the time now. -/
structure PacedState where
  sender : SendState
  sentAt : List Nat
  now : Nat

def PacedState.send (pace : Pace) (sendTo : SendTo) (progress : Bool) (st : PacedState)
    (message : WireMessage) : Result NetError PacedState := do
  let sender ← st.sender.send sendTo progress message
  return ⟨sender, st.sentAt ++ [st.now], st.now + pace.lag st.sender.wire.length⟩

/-- `if !config.inter_packet_delay.is_zero() { sleep(..) }`. -/
def PacedState.sleep (pace : Pace) (st : PacedState) : PacedState :=
  if pace.interPacketDelay = 0 then st else { st with now := st.now + pace.interPacketDelay }

/-- `sendPackets` with a clock. -/
def sendPacketsPaced (pace : Pace) (sendTo : SendTo) (progress : Bool) (sessionId : UInt64)
    (report : Nat → Nat → ProgressEvent) :
    PacedState → Nat → List TransferPacket → PacedState × Result NetError Unit
  | st, _, [] => (st, .ok ())
  | st, index, packet :: rest =>
    match st.send pace sendTo progress (packetMessage sessionId packet) with
    | .error e => (st, .error e)
    | .ok st =>
      let event := report (index + 1) st.sender.bytesSent
      let sender : SendState :=
        if progress then { st.sender with events := st.sender.events ++ [event] } else st.sender
      let st := ({ st with sender := sender } : PacedState).sleep pace
      sendPacketsPaced pace sendTo progress sessionId report st (index + 1) rest

/-- What a paced call leaves behind. -/
structure PacedRun where
  run : SendRun
  sentAt : List Nat
  ended : Nat

/-- `sendPlanned` with a clock. -/
def sendPlannedPaced (pace : Pace) (start : Nat) (sendTo : SendTo) (progress : Bool)
    (session : SessionParams) (plan : SendPlan) (planned : Nat) : PacedRun :=
  let report (event : ProgressEvent) : List ProgressEvent := if progress then [event] else []
  let started := report (.senderStarted session.sessionId session.spec.transferLengthF
    session.spec.symbolSizeT plan.source.length plan.repair.length planned)
  let sessionMeta := sessionMetaFromSpec session.sessionId session.spec
  match PacedState.send pace sendTo progress ⟨⟨[], started, 0⟩, [], start⟩ sessionMeta with
  | .error e => ⟨⟨[], started, .ok (.error e)⟩, [], start⟩
  | .ok st =>
    -- no sleep after the metadata
    match sendPacketsPaced pace sendTo progress session.sessionId
        (fun sent bytesSent => .senderSourcePacketSent sent plan.source.length bytesSent planned)
        st 0 plan.source with
    | (st, .error e) => ⟨⟨st.sender.wire, st.sender.events, .ok (.error e)⟩, st.sentAt, st.now⟩
    | (st, .ok ()) =>
      match sendPacketsPaced pace sendTo progress session.sessionId
          (fun sent bytesSent => .senderRepairPacketSent sent plan.repair.length bytesSent planned)
          st 0 plan.repair with
      | (st, .error e) => ⟨⟨st.sender.wire, st.sender.events, .ok (.error e)⟩, st.sentAt, st.now⟩
      | (st, .ok ()) =>
        ⟨⟨st.sender.wire, st.sender.events ++ report (.senderFinished plan.source.length
          plan.repair.length st.sender.bytesSent planned), .ok (.ok ())⟩, st.sentAt, st.now⟩

/-- `sendObjectWithSocketImpl` with a clock. -/
def sendObjectPaced (eng : Engines) (pace : Pace) (start : Nat) (sendTo : SendTo) (object : Bytes)
    (session : SessionParams) (config : SendConfig) (progress : Bool) : PacedRun :=
  match sendPlan eng object session config with
  | .error panic => ⟨⟨[], [], .error panic⟩, [], start⟩
  | .ok (.error e) => ⟨⟨[], [], .ok (.error (.core e))⟩, [], start⟩
  | .ok (.ok plan) =>
    match plannedBytes session plan progress with
    | .error e => ⟨⟨[], [], .ok (.error (.protocol e))⟩, [], start⟩
    | .ok planned => sendPlannedPaced pace start sendTo progress session plan planned

/-! ## The times of the datagrams -/

section

variable {pace : Pace} {start : Nat} {sendTo : SendTo} {progress : Bool} {sessionId : UInt64}
  {report : Nat → Nat → ProgressEvent}

/-- The datagrams so far were sent at the times of the pace. -/
def OnPace (pace : Pace) (start : Nat) (wire : List Bytes) (sentAt : List Nat) : Prop :=
  sentAt = (List.range wire.length).map (pace.time start)

/-- The sender is ready for the next message. -/
structure PacedState.Ready (pace : Pace) (start : Nat) (st : PacedState) : Prop where
  onPace : OnPace pace start st.sender.wire st.sentAt
  now : st.now = pace.time start st.sender.wire.length

theorem PacedState.send_eq (st : PacedState) (pace : Pace) (sendTo : SendTo) (progress : Bool)
    (message : WireMessage) :
    (∃ e, st.send pace sendTo progress message = .error e ∧
      st.sender.send sendTo progress message = .error e) ∨
    ∃ sender, st.sender.send sendTo progress message = .ok sender ∧
      st.send pace sendTo progress message =
        .ok ⟨sender, st.sentAt ++ [st.now], st.now + pace.lag st.sender.wire.length⟩ := by
  unfold PacedState.send
  cases st.sender.send sendTo progress message with
  | error e => exact .inl ⟨e, rfl, rfl⟩
  | ok sender => exact .inr ⟨sender, rfl, rfl⟩

theorem PacedState.sleep_sender (st : PacedState) : (st.sleep pace).sender = st.sender := by
  unfold PacedState.sleep
  split <;> rfl

theorem PacedState.sleep_sentAt (st : PacedState) : (st.sleep pace).sentAt = st.sentAt := by
  unfold PacedState.sleep
  split <;> rfl

theorem PacedState.sleep_now (st : PacedState) :
    (st.sleep pace).now = st.now + pace.interPacketDelay := by
  unfold PacedState.sleep
  split
  · next h => rw [h, Nat.add_zero]
  · rfl

/-- A message that is sent when the sender is ready for it. -/
theorem PacedState.Ready.sent {st : PacedState} {sender : SendState} {message : WireMessage}
    (h : st.Ready pace start) (hsend : st.sender.send sendTo progress message = .ok sender) :
    sender.wire.length = st.sender.wire.length + 1 ∧
      OnPace pace start sender.wire (st.sentAt ++ [st.now]) := by
  have hlength : sender.wire.length = st.sender.wire.length + 1 := by
    rw [(send_eq_ok hsend).1, List.length_append, List.length_singleton]
  refine ⟨hlength, ?_⟩
  rw [OnPace, hlength, List.range_succ, List.map_append, List.map_singleton, ← h.onPace, h.now]

/-- After a packet, which is never the first message, the sender sleeps until it is ready. -/
theorem PacedState.Ready.slept {st : PacedState} {sender : SendState} {message : WireMessage}
    (h : st.Ready pace start) (hfirst : 0 < st.sender.wire.length)
    (hsend : st.sender.send sendTo progress message = .ok sender) {sender' : SendState}
    (hwire : sender'.wire = sender.wire) :
    (PacedState.sleep pace ⟨sender', st.sentAt ++ [st.now],
      st.now + pace.lag st.sender.wire.length⟩).Ready pace start := by
  obtain ⟨hlength, hpace⟩ := h.sent hsend
  obtain ⟨n, hn⟩ := Nat.exists_eq_add_of_lt hfirst
  refine ⟨?_, ?_⟩
  · rw [sleep_sender, sleep_sentAt, hwire]
    exact hpace
  · rw [sleep_now, sleep_sender, hwire, hlength, h.now, hn, Nat.zero_add]
    rfl

/-- A paced loop is the plain one, and leaves the sender ready for another message. -/
structure LoopPaced (pace : Pace) (start : Nat) (paced : PacedState × Result NetError Unit)
    (plain : SendState × Result NetError Unit) : Prop where
  same : plain = (paced.1.sender, paced.2)
  ready : paced.1.Ready pace start
  started : 0 < paced.1.sender.wire.length

theorem sendPacketsPaced_eq (sendTo : SendTo) (progress : Bool) (sessionId : UInt64)
    (report : Nat → Nat → ProgressEvent) :
    ∀ (packets : List TransferPacket) {st : PacedState} (index : Nat),
    st.Ready pace start → 0 < st.sender.wire.length →
    LoopPaced pace start (sendPacketsPaced pace sendTo progress sessionId report st index packets)
      (sendPackets sendTo progress sessionId report st.sender index packets)
  | [], _, _, hready, hfirst => ⟨rfl, hready, hfirst⟩
  | packet :: rest, st, index, hready, hfirst => by
    rw [sendPacketsPaced, sendPackets]
    rcases st.send_eq pace sendTo progress (packetMessage sessionId packet) with
      ⟨e, hpaced, hplain⟩ | ⟨sender, hplain, hpaced⟩
    · rw [hpaced, hplain]
      exact ⟨rfl, hready, hfirst⟩
    · rw [hpaced, hplain]
      dsimp only
      have hlength := (hready.sent hplain).1
      generalize hreported : (if progress = true then _ else sender) = sender'
      have hwire : sender'.wire = sender.wire := by
        rw [← hreported]
        split <;> rfl
      have hrest := sendPacketsPaced_eq sendTo progress sessionId report rest (index + 1)
        (hready.slept hfirst hplain hwire)
        (by rw [PacedState.sleep_sender, hwire, hlength]; exact Nat.succ_pos _)
      rw [PacedState.sleep_sender] at hrest
      exact hrest

/-- After the metadata, which is the first message, the sender does not sleep. -/
theorem ready_after_metadata (pace : Pace) (start : Nat) {events : List ProgressEvent} {sender : SendState}
    {message : WireMessage}
    (hsend : SendState.send sendTo progress ⟨[], events, 0⟩ message = .ok sender) :
    (⟨sender, [] ++ [start], start + pace.lag ([] : List Bytes).length⟩ : PacedState).Ready pace start ∧
      sender.wire.length = 1 := by
  have hidle : (⟨⟨[], events, 0⟩, [], start⟩ : PacedState).Ready pace start := ⟨rfl, rfl⟩
  obtain ⟨hlength, hpace⟩ := hidle.sent hsend
  refine ⟨⟨hpace, ?_⟩, hlength⟩
  rw [hlength]
  rfl

/-- A paced call does what the plain one does, in the times of the pace. -/
structure PacedRun.Follows (paced : PacedRun) (pace : Pace) (start : Nat) (plain : SendRun) :
    Prop where
  run : paced.run = plain
  sentAt : OnPace pace start plain.wire paced.sentAt
  ended : paced.ended = pace.time start plain.wire.length

theorem sendPlannedPaced_follows (pace : Pace) (start : Nat) (sendTo : SendTo) (progress : Bool)
    (session : SessionParams) (plan : SendPlan) (planned : Nat) :
    (sendPlannedPaced pace start sendTo progress session plan planned).Follows pace start
      (sendPlanned sendTo progress session plan planned) := by
  unfold sendPlannedPaced sendPlanned
  dsimp only
  generalize (if progress = true then _ else ([] : List ProgressEvent)) = started
  rcases PacedState.send_eq ⟨⟨[], started, 0⟩, [], start⟩ pace sendTo progress
    (sessionMetaFromSpec session.sessionId session.spec) with
    ⟨e, hpaced, hplain⟩ | ⟨sender, hplain, hpaced⟩
  · rw [hpaced, hplain]
    exact ⟨rfl, rfl, rfl⟩
  · rw [hpaced, hplain]
    dsimp only
    obtain ⟨hready, hlength⟩ := ready_after_metadata pace start hplain
    obtain ⟨hsame, hready, hfirst⟩ := sendPacketsPaced_eq sendTo progress session.sessionId
      (fun sent bytesSent => .senderSourcePacketSent sent plan.source.length bytesSent planned)
      plan.source 0 hready (by rw [hlength]; exact Nat.one_pos)
    rw [hsame]
    generalize sendPacketsPaced _ _ _ _ _ _ _ plan.source = paced at hready hfirst ⊢
    match paced, hready, hfirst with
    | (st, .error e), hready, _ => exact ⟨rfl, hready.onPace, hready.now⟩
    | (st, .ok ()), hready, hfirst =>
      obtain ⟨hsame, hready, _⟩ := sendPacketsPaced_eq sendTo progress session.sessionId
        (fun sent bytesSent => .senderRepairPacketSent sent plan.repair.length bytesSent planned)
        plan.repair 0 hready hfirst
      dsimp only
      rw [hsame]
      generalize sendPacketsPaced _ _ _ _ _ _ _ plan.repair = paced at hready ⊢
      match paced, hready with
      | (st, .error e), hready => exact ⟨rfl, hready.onPace, hready.now⟩
      | (st, .ok ()), hready => exact ⟨rfl, hready.onPace, hready.now⟩

theorem sendObjectPaced_follows (eng : Engines) (pace : Pace) (start : Nat) (sendTo : SendTo)
    (object : Bytes) (session : SessionParams) (config : SendConfig) (progress : Bool) :
    (sendObjectPaced eng pace start sendTo object session config progress).Follows pace start
      (sendObjectWithSocketImpl eng sendTo object session config progress) := by
  unfold sendObjectPaced sendObjectWithSocketImpl
  match sendPlan eng object session config with
  | .error _ => exact ⟨rfl, rfl, rfl⟩
  | .ok (.error _) => exact ⟨rfl, rfl, rfl⟩
  | .ok (.ok plan) =>
    dsimp only
    cases plannedBytes session plan progress with
    | error e => exact ⟨rfl, rfl, rfl⟩
    | ok planned => exact sendPlannedPaced_follows ..

end

/-! ## How often a sender sends -/

section

variable {pace : Pace} {start : Nat} {wire : List Bytes} {sentAt : List Nat} {m n t t' : Nat}

theorem OnPace.getElem? (h : OnPace pace start wire sentAt) :
    sentAt[n]? = some t ↔ n < wire.length ∧ t = pace.time start n := by
  rw [h, List.getElem?_map]
  by_cases hn : n < wire.length
  · simp [hn, eq_comm]
  · simp [hn]

theorem Pace.time_succ (pace : Pace) (start : Nat) (hm : 0 < m) :
    pace.time start (m + 1) = pace.time start m + pace.lag m + pace.interPacketDelay := by
  cases m with
  | zero => exact absurd hm (Nat.lt_irrefl 0)
  | succ m => rfl

/-- From one packet to the `n`-th after it there are `n` sleeps. -/
theorem Pace.time_add (pace : Pace) (start n : Nat) (hm : 0 < m) :
    pace.time start m + n * pace.interPacketDelay ≤ pace.time start (m + n) := by
  induction n with
  | zero => simp
  | succ n ih =>
    rw [← Nat.add_assoc, pace.time_succ start (Nat.add_pos_left hm n), Nat.succ_mul]
    omega

/-- For every pace, socket, object and configuration: the paced sender puts the same
datagrams on the wire, reports the same and ends the same as without a clock. Of any
`n + 1` packets in a row the last is sent at least `n` delays after the first, the first
packet is sent as soon as the sender is ready after the metadata, and the call ends a
delay after the last packet. -/
theorem paced_send (eng : Engines) (pace : Pace) (start : Nat) (sendTo : SendTo) (object : Bytes)
    (session : SessionParams) (config : SendConfig) (progress : Bool) :
    let paced := sendObjectPaced eng pace start sendTo object session config progress
    paced.run = sendObjectWithSocketImpl eng sendTo object session config progress ∧
      paced.sentAt.length = paced.run.wire.length ∧
      (∀ m n t t', 0 < m → paced.sentAt[m]? = some t → paced.sentAt[m + n]? = some t' →
        t + n * pace.interPacketDelay ≤ t') ∧
      (∀ t, paced.sentAt[1]? = some t → t = start + pace.lag 0) ∧
      (∀ t, 1 < paced.sentAt.length → paced.sentAt.getLast? = some t →
        t + pace.interPacketDelay ≤ paced.ended) := by
  obtain ⟨hrun, hpace, hended⟩ :=
    sendObjectPaced_follows eng pace start sendTo object session config progress
  refine ⟨hrun, ?_, ?_, ?_, ?_⟩
  · rw [hrun, hpace, List.length_map, List.length_range]
  · intro m n t t' hm ht ht'
    rw [(hpace.getElem?.mp ht).2, (hpace.getElem?.mp ht').2]
    exact pace.time_add start n hm
  · intro t ht
    exact (hpace.getElem?.mp ht).2
  · intro t hlength hlast
    have hcount : (sendObjectPaced eng pace start sendTo object session config progress).sentAt.length =
        (sendObjectWithSocketImpl eng sendTo object session config progress).wire.length := by
      rw [hpace, List.length_map, List.length_range]
    rw [List.getLast?_eq_getElem?] at hlast
    rw [(hpace.getElem?.mp hlast).2, hended, ← hcount]
    have hsleep := pace.time_add start 1 (Nat.sub_pos_of_lt hlength)
    rw [Nat.sub_add_cancel (Nat.le_of_lt hlength), Nat.one_mul] at hsleep
    exact hsleep

end

/-! ## Receivers that never wait too long -/

/-- Each datagram comes within `wait` of the one before, and the first one of `since`. -/
def Steady (wait : Duration) : Nat → List TimedDatagram → Prop
  | _, [] => True
  | since, d :: datagrams => d.time ≤ since + wait ∧ Steady wait d.time datagrams

section

variable {task : RecvTask} {c : Clock eng} {datagrams : List TimedDatagram} {wait : Duration}

theorem steady_of_gaps {since : Nat}
    (hfirst : ∀ d, datagrams[0]? = some d → d.time ≤ since + wait)
    (hgaps : ∀ n d d', datagrams[n]? = some d → datagrams[n + 1]? = some d' →
      d'.time ≤ d.time + wait) : Steady wait since datagrams := by
  induction datagrams generalizing since with
  | nil => trivial
  | cons d datagrams ih =>
    refine ⟨hfirst d rfl, ih (fun d' hd' => hgaps 0 d d' rfl hd') fun n e e' he he' => ?_⟩
    exact hgaps (n + 1) e e' he he'

theorem Steady.left {more : List TimedDatagram} :
    ∀ {datagrams : List TimedDatagram} {since : Nat}, Steady wait since (datagrams ++ more) →
      Steady wait since datagrams
  | [], _, _ => trivial
  | _ :: _, _, h => ⟨h.1, Steady.left h.2⟩

/-- The timeout makes no difference then. -/
theorem run_steady (h : Steady task.config.recvTimeout c.since datagrams) :
    (run (Clock.tick task) c datagrams).halt =
      (run (step task) c.recv (datagrams.map (·.arrival))).halt := by
  induction datagrams generalizing c with
  | nil => rfl
  | cons d datagrams ih =>
    obtain ⟨hin, hrest⟩ := h
    have htick := tick_inTime hin
    rw [List.map_cons]
    cases hd : (step task c.recv d.arrival).halt with
    | some r =>
      have hhalt : (c.tick task d).halt = some r := by rw [htick]; exact hd
      rw [run_cons_halt hhalt, run_cons_halt hd, hhalt, hd]
    | none =>
      have hgo : (c.tick task d).halt = none := by rw [htick]; exact hd
      have hsince : (c.tick task d).state.since = d.time := by rw [htick]
      have hrecv : (c.tick task d).state.recv = (step task c.recv d.arrival).state := by rw [htick]
      rw [run_cons_continue hgo, run_cons_continue hd, after_halt, after_halt, ← hrecv]
      exact ih (hsince ▸ hrest)

/-- The last wait does not begin after the last datagram. -/
theorem run_since_le {bound : Nat} (hstart : c.since ≤ bound)
    (hall : ∀ d ∈ datagrams, d.time ≤ bound) :
    (run (Clock.tick task) c datagrams).state.since ≤ bound := by
  have hstep : ∀ c : Clock eng, ∀ d ∈ datagrams, c.since ≤ bound →
      (c.tick task d).state.since ≤ bound := by
    intro c d hmem hc
    unfold Clock.tick
    split
    · exact hall d hmem
    · exact hc
  have hsafe := run_safe (P := fun c : Clock eng => c.since ≤ bound)
    (Q := fun c (_ : RecvEnd) => c.since ≤ bound) hstart
    fun c d hmem hc => ⟨fun _ => hstep c d hmem hc, fun _ _ => hstep c d hmem hc⟩
  cases hhalt : (run (Clock.tick task) c datagrams).halt with
  | none => exact hsafe.1 hhalt
  | some r => exact hsafe.2 r hhalt

end

/-! ## A paced transfer -/

/-- What arrives when the network loses nothing, keeps the order, and takes `latency n`
for datagram `n`. -/
def carried (paced : PacedRun) (latency : Nat → Duration) (peer : SocketAddr) :
    List TimedDatagram :=
  (paced.run.wire.zip paced.sentAt).mapIdx fun n x => ⟨x.2 + latency n, x.1, peer⟩

section

variable {pace : Pace} {start : Nat} {paced : PacedRun} {plain : SendRun}
  {latency : Nat → Duration} {peer : SocketAddr}

theorem Pace.time_mono (pace : Pace) (start : Nat) {m n : Nat} (h : m ≤ n) :
    pace.time start m ≤ pace.time start n := by
  have hnext : ∀ n, pace.time start n ≤ pace.time start (n + 1) := by
    intro n
    cases n with
    | zero => exact Nat.le_add_right _ _
    | succ n =>
      rw [pace.time_succ start n.succ_pos, Nat.add_assoc]
      exact Nat.le_add_right _ _
  induction h with
  | refl => exact Nat.le_refl _
  | step _ ih => exact Nat.le_trans ih (hnext _)

theorem carried_getElem? (h : paced.Follows pace start plain) {n : Nat} {d : TimedDatagram} :
    (carried paced latency peer)[n]? = some d ↔
      ∃ bytes, plain.wire[n]? = some bytes ∧ d = ⟨pace.time start n + latency n, bytes, peer⟩ := by
  obtain ⟨hrun, hpace, _⟩ := h
  rw [carried, hrun, List.getElem?_mapIdx, Option.map_eq_some_iff]
  constructor
  · rintro ⟨⟨bytes, t⟩, hx, rfl⟩
    obtain ⟨hbytes, ht⟩ := List.getElem?_zip_eq_some.mp hx
    exact ⟨bytes, hbytes, by rw [(hpace.getElem?.mp ht).2]⟩
  · rintro ⟨bytes, hbytes, rfl⟩
    have hn : n < plain.wire.length := (List.getElem?_eq_some_iff.mp hbytes).1
    exact ⟨(bytes, pace.time start n),
      List.getElem?_zip_eq_some.mpr ⟨hbytes, hpace.getElem?.mpr ⟨hn, rfl⟩⟩, rfl⟩

theorem carried_arrivals (h : paced.Follows pace start plain) :
    (carried paced latency peer).map (·.arrival) = plain.wire.map (.datagram · peer) := by
  refine List.ext_getElem? fun n => ?_
  rw [List.getElem?_map, List.getElem?_map]
  cases hd : (carried paced latency peer)[n]? with
  | some d =>
    obtain ⟨bytes, hbytes, rfl⟩ := (carried_getElem? h).mp hd
    rw [hbytes]
    rfl
  | none =>
    cases hbytes : plain.wire[n]? with
    | none => rfl
    | some bytes =>
      have hsome : (carried paced latency peer)[n]? = some _ :=
        (carried_getElem? h).mpr ⟨bytes, hbytes, rfl⟩
      cases hd.symm.trans hsome

/-- The gaps of what arrives are those of the pace, and the jitter. -/
theorem carried_steady (h : paced.Follows pace start plain) {since low : Nat}
    {jitter wait : Duration} (hlag : ∀ n, pace.lag n + pace.interPacketDelay + jitter ≤ wait)
    (hlatency : ∀ n, low ≤ latency n ∧ latency n ≤ low + jitter)
    (hfirst : start + latency 0 ≤ since + wait) :
    Steady wait since (carried paced latency peer) := by
  refine steady_of_gaps (fun d hd => ?_) fun n d d' hd hd' => ?_
  · obtain ⟨_, _, rfl⟩ := (carried_getElem? h).mp hd
    exact hfirst
  · obtain ⟨_, _, rfl⟩ := (carried_getElem? h).mp hd
    obtain ⟨_, _, rfl⟩ := (carried_getElem? h).mp hd'
    have hnext : pace.time start (n + 1) ≤ pace.time start n + pace.lag n + pace.interPacketDelay := by
      cases n with
      | zero => exact Nat.le_add_right _ _
      | succ n => exact Nat.le_of_eq (pace.time_succ start n.succ_pos)
    have hlo := (hlatency n).1
    have hhi := (hlatency (n + 1)).2
    have hgap := hlag n
    dsimp only [Duration] at hhi hgap
    show pace.time start (n + 1) + latency (n + 1) ≤ pace.time start n + latency n + wait
    omega

/-- The metadata and the source packets come first. -/
theorem datagrams_take {session : SessionParams} {plan : SendPlan} :
    (plan.datagrams session).take (plan.source.length + 1) =
      metaFrame session :: plan.source.map (packetFrame session.sessionId) := by
  have hlength : plan.source.length = (plan.source.map (packetFrame session.sessionId)).length :=
    (List.length_map _).symm
  rw [SendPlan.datagrams, List.take_succ_cons, SendPlan.packets, List.map_append,
    List.take_left' hlength.symm]

theorem carried_front (h : paced.Follows pace start plain) {session : SessionParams}
    {plan : SendPlan} (hwire : plain.wire = plan.datagrams session) :
    ((carried paced latency peer).take (plan.source.length + 1)).map (·.arrival) =
      .datagram (metaFrame session) peer ::
        plan.source.map fun packet => .datagram (packetFrame session.sessionId packet) peer := by
  rw [List.map_take, carried_arrivals h, hwire, ← List.map_take, datagrams_take, List.map_cons,
    List.map_map]
  rfl

/-- The first `n + 1` datagrams arrive in time for the `n`-th. -/
theorem carried_time_le (h : paced.Follows pace start plain) {low : Nat} {jitter : Duration}
    (hlatency : ∀ n, latency n ≤ low + jitter) {n : Nat} {d : TimedDatagram}
    (hmem : d ∈ (carried paced latency peer).take (n + 1)) :
    d.time ≤ pace.time start n + low + jitter := by
  obtain ⟨m, hm⟩ := List.getElem?_of_mem hmem
  rw [List.getElem?_take] at hm
  split at hm
  · next hlt =>
    obtain ⟨_, _, rfl⟩ := (carried_getElem? h).mp hm
    have htime := pace.time_mono start (Nat.le_of_lt_succ hlt)
    have hhi := hlatency m
    dsimp only [Duration] at hhi
    show pace.time start m + latency m ≤ _
    omega
  · cases hm

/-- A receiver that has heard nothing admits the session it expects. -/
theorem admits_initial {task : RecvTask} {sessionId : UInt64}
    (hexpected : ∀ expected, task.config.expectedSessionId = some expected → sessionId = expected) :
    Admits task (RecvState.initial eng) sessionId :=
  ⟨hexpected, fun _ h => nomatch h⟩

/-- For every session of `TransferSpec::new`, planned object, pace, receiver that waits for
the session before the first datagram arrives, and network that loses nothing, keeps the
order and is never more than `jitter` slower than its best: when delay, lag and jitter
together stay within the timeout, the receiver returns the object by the time the last
source packet arrives. -/
theorem paced_transfer (faithful : eng.Faithful encode) (prompt : eng.PromptOnce encode)
    (hsmall : eng.SourceIdsFit) {sessionId : UInt64} {f t : Usize} {kind : CodecKind}
    {spec : TransferSpec} {object : Bytes} {config : SendConfig} {progress : Bool}
    {plan : SendPlan} {task : RecvTask} {since low : Nat} {jitter : Duration}
    {rest : List TimedDatagram} (hspec : TransferSpec.new f t kind = .ok spec)
    (hsize : t.toNat ≤ 65478)
    (hplan : sendPlan eng object ⟨sessionId, spec⟩ config = .ok (.ok plan))
    (hexpected : ∀ expected, task.config.expectedSessionId = some expected → sessionId = expected)
    (hlag : ∀ n, pace.lag n + pace.interPacketDelay + jitter ≤ task.config.recvTimeout)
    (hlatency : ∀ n, low ≤ latency n ∧ latency n ≤ low + jitter)
    (hearly : since ≤ start + latency 0)
    (hfirst : start + latency 0 ≤ since + task.config.recvTimeout) :
    let paced := sendObjectPaced eng pace start sendAlways object ⟨sessionId, spec⟩ config progress
    let out := run (Clock.tick task) (Clock.start eng since) (carried paced latency peer ++ rest)
    (∃ outcome, out.halt = some (.ok (.ok outcome)) ∧ outcome.object = object) ∧
      out.state.since ≤ pace.time start spec.sourceK + low + jitter := by
  intro paced out
  obtain ⟨_, _, hspec⟩ := TransferSpec.new_eq_ok.mp hspec
  have hdefault : spec.codec = spec.codecKind.defaultConfig := by
    rw [hspec, TransferSpec.codecKind, defaultConfig_kind]
  have hsize : spec.symbolSizeT.toNat ≤ 65478 := by
    rw [hspec]
    exact hsize
  have hfollows := sendObjectPaced_follows eng pace start sendAlways object ⟨sessionId, spec⟩
    config progress
  have hwire := (sendObject_fits faithful progress hplan hsize).2
  have hcount : plan.source.length = spec.sourceK := by
    rw [(plan_packets_sent faithful hplan).2.2, List.length_map, List.length_range]
  -- the receiver is done with the metadata and the source packets
  let front := (carried paced latency peer).take (spec.sourceK + 1)
  have harrivals := @carried_front _ _ _ _ latency peer hfollows _ _ hwire
  rw [hcount] at harrivals
  obtain ⟨outcome, hok, hobject⟩ := run_recovers_once faithful prompt hsmall hplan hdefault hsize
    (admits_initial hexpected) peer
  have hsteady : Steady task.config.recvTimeout since front := by
    have hall : Steady task.config.recvTimeout since (carried paced latency peer) :=
      carried_steady hfollows hlag hlatency hfirst
    rw [← List.take_append_drop (spec.sourceK + 1) (carried paced latency peer)] at hall
    exact hall.left
  have hdone : (run (Clock.tick task) (Clock.start eng since) front).halt = some (.ok (.ok outcome)) := by
    rw [run_steady hsteady, harrivals]
    exact hok
  have hout : out = run (Clock.tick task) (Clock.start eng since) front := by
    show run (Clock.tick task) (Clock.start eng since) (carried paced latency peer ++ rest) = _
    rw [← List.take_append_drop (spec.sourceK + 1) (carried paced latency peer), List.append_assoc,
      run_append_of_halt hdone]
  rw [hout]
  refine ⟨⟨outcome, hdone, hobject⟩, run_since_le ?_ fun d hmem =>
    carried_time_le hfollows (fun n => (hlatency n).2) hmem⟩
  have hstart := pace.time_mono start (Nat.zero_le spec.sourceK)
  have hhi := (hlatency 0).2
  dsimp only [Duration] at hhi
  show since ≤ pace.time start spec.sourceK + low + jitter
  rw [Pace.time] at hstart
  omega

end

namespace Repetition

/-- A delay of 20 milliseconds, and one millisecond for each message. -/
def pace10 : Pace := ⟨20000000, fun _ => 1000000⟩

def paced10 : PacedRun :=
  sendObjectPaced engines pace10 0 sendAlways [1, 2, 3, 4] session10 ⟨1, 1⟩ false

/-- Every other datagram takes 10 milliseconds instead of 5. -/
def latency10 (n : Nat) : Duration := if n % 2 = 0 then 5000000 else 10000000

theorem latency10_bounds (n : Nat) : 5000000 ≤ latency10 n ∧ latency10 n ≤ 5000000 + 5000000 := by
  unfold latency10
  split <;> decide

end Repetition

open Repetition in
/-- The fourth source packet is sent after 64 milliseconds. -/
theorem paced_transfer_of_four :
    (∃ outcome, (run (Clock.tick openTask) (Clock.start engines 0)
        (carried paced10 latency10 sender ++ [])).halt = some (.ok (.ok outcome)) ∧
      outcome.object = [1, 2, 3, 4]) ∧
    (run (Clock.tick openTask) (Clock.start engines 0)
      (carried paced10 latency10 sender ++ [])).state.since ≤ 64000000 + 5000000 + 5000000 :=
  @paced_transfer engines encode pace10 0 latency10 sender engines_faithful engines_promptOnce
    engines_sourceIdsFit 7 4 1 .raptor10 spec10 _ _ false plan10 openTask 0 5000000 5000000 []
    (rfl : TransferSpec.new 4 1 .raptor10 = .ok spec10)
    (by decide) (rfl : sendPlan engines [1, 2, 3, 4] ⟨7, spec10⟩ ⟨1, 1⟩ = .ok (.ok plan10))
    (fun _ h => nomatch h)
    (fun _ => (by decide : 1000000 + 20000000 + 5000000 ≤ 60000000000)) latency10_bounds (by decide)
    (by decide)

end FountainTransfer
