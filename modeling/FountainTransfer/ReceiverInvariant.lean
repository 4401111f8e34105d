import FountainTransfer.Decoding
import FountainTransfer.Receiver
import FountainTransfer.Repetition

/-!
# The invariant of the receive loop

`step_effect` says once what one arrival can do to the loop; every invariant of the
receiver is a case analysis over it. `RecvInv` ties session, decoder and counters
together in every reachable state (`receiver_invariant`), and with it several error
paths of the loop body are dead. Which path a packet takes is `packetExit`.
-/

namespace FountainTransfer

open HaltingMachine

/-! ## What an arrival says -/

/-- The message a datagram is read as, and its peer. -/
def heard : Arrival → Option (WireMessage × SocketAddr)
  | .datagram bytes peer =>
    match decodeMessage (bytes.take maxDatagram) with
    | .error _ => none
    | .ok message => some (message, peer)
  | _ => none

/-- The arrival is acceptable metadata for `session`. -/
def Announces (arrival : Arrival) (session : SessionParams) : Prop :=
  ∃ message peer, heard arrival = some (message, peer) ∧
    message.sessionId = session.sessionId ∧ specFromSessionMeta message = .ok session.spec

/-- The arrival is a packet of `session`. -/
def Delivers (arrival : Arrival) (session : SessionParams) (packet : TransferPacket)
    (peer : SocketAddr) : Prop :=
  ∃ message, heard arrival = some (message, peer) ∧
    transferPacketFromMessage message session.sessionId session.spec.symbolSizeT.toNat = .ok packet

/-- The loop takes metadata of this session id. -/
def Admits {eng : Engines} (task : RecvTask) (s : RecvState eng) (sessionId : UInt64) : Prop :=
  (∀ expected, task.config.expectedSessionId = some expected → sessionId = expected) ∧
    ∀ session, s.session = some session → session.sessionId = sessionId

theorem any_ne_eq_false {o : Option UInt64} {x : UInt64} :
    ¬ o.any (x ≠ ·) = true ↔ ∀ y, o = some y → x = y := by
  cases o <;> simp

section

variable {eng : Engines} {task : RecvTask} {s : RecvState eng}

/-- Everything one arrival can do. -/
inductive Effect (task : RecvTask) (s : RecvState eng) (arrival : Arrival) : RecvOut eng → Prop
  | ended {e : NetError} : recvDatagramTimeout task.config.recvTimeout arrival = .error e →
      Effect task s arrival ⟨s, [], some (.ok (.error e))⟩
  | ignored (reason : IgnoredDatagramReason) : Effect task s arrival (emitIgnored task s reason)
  | noDecoder {session : SessionParams} : s.session = some session → s.decoder = none →
      Effect task s arrival (panicked s (.expect "decoder after meta"))
  | noScheme {session : SessionParams} {panic : Panic} : Announces arrival session →
      Admits task s session.sessionId →
      TransferDecoderImpl.new eng session.spec = .error panic →
      Effect task s arrival (panicked s panic)
  | established {session : SessionParams} {decoder : TransferDecoderImpl eng} :
      Announces arrival session → Admits task s session.sessionId →
      TransferDecoderImpl.new eng session.spec = .ok (.ok decoder) →
      Effect task s arrival (establish task s session decoder)
  | notTaken {session : SessionParams} {decoder : TransferDecoderImpl eng}
      {packet : TransferPacket} {peer : SocketAddr} {panic : Panic} :
      s.session = some session → s.decoder = some decoder →
      Delivers arrival session packet peer → decoder.addPacket packet = .error panic →
      Effect task s arrival (panicked s panic)
  | accepted {session : SessionParams} {decoder decoder' : TransferDecoderImpl eng}
      {packet : TransferPacket} {peer : SocketAddr} {status : DecodeStatus} :
      s.session = some session → s.decoder = some decoder →
      Delivers arrival session packet peer →
      decoder.addPacket packet = .ok (.ok (decoder', status)) →
      Effect task s arrival (accept task s session decoder' status packet peer)

theorem step_of_heard {arrival : Arrival} {message : WireMessage} {peer : SocketAddr}
    (h : heard arrival = some (message, peer)) :
    step task s arrival = onMessage task s message peer := by
  cases arrival with
  | datagram bytes sender =>
    simp only [heard] at h
    split at h
    · cases h
    · next m hdecode =>
      cases h
      simp only [step, recvDatagramTimeout, hdecode]
  | nothing => cases h
  | failure e => cases h

theorem onSessionMeta_effect {arrival : Arrival} {message : WireMessage} {peer : SocketAddr}
    (h : heard arrival = some (message, peer)) :
    Effect task s arrival (onSessionMeta task s message message.sessionId) := by
  unfold onSessionMeta
  split
  · exact .ignored _
  · next hexpected =>
    split
    · exact .ignored _
    · next hactive =>
      have hadmits : Admits task s message.sessionId := by
        refine ⟨any_ne_eq_false.mp hexpected, fun session hsession => ?_⟩
        simpa [hsession] using hactive
      split
      · exact .ignored _
      · next spec hspec =>
        have hannounces : Announces arrival ⟨message.sessionId, spec⟩ := ⟨message, peer, h, rfl, hspec⟩
        split
        · next hnew => exact .noScheme hannounces hadmits hnew
        · exact .ignored _
        · next hnew => exact .established hannounces hadmits hnew

theorem onPacket_effect {arrival : Arrival} {message : WireMessage} {peer : SocketAddr}
    (h : heard arrival = some (message, peer)) :
    Effect task s arrival (onPacket task s message message.sessionId peer) := by
  unfold onPacket
  split
  · exact .ignored _
  · next session hsession =>
    split
    · exact .ignored _
    · split
      · exact .ignored _
      · split
        · exact .ignored _
        · next packet hpacket =>
          split
          · next hnone => exact .noDecoder hsession hnone
          · next decoder hdecoder =>
            split
            · next hadd => exact .notTaken hsession hdecoder ⟨message, h, hpacket⟩ hadd
            · exact .ignored _
            · next hadd => exact .accepted hsession hdecoder ⟨message, h, hpacket⟩ hadd

theorem step_effect (task : RecvTask) (s : RecvState eng) (arrival : Arrival) :
    Effect task s arrival (step task s arrival) := by
  match hheard : heard arrival with
  | some (message, peer) =>
    rw [step_of_heard hheard]
    cases message with
    | sessionMeta => exact onSessionMeta_effect hheard
    | packet => exact onPacket_effect hheard
  | none =>
    -- the socket failed, or the datagram does not decode
    unfold step
    split
    · next e he => exact .ended he
    · next datagram peer hrecv =>
      split
      · exact .ignored _
      · next message hdecode =>
        cases arrival with
        | datagram bytes sender =>
          cases hrecv
          simp [heard, hdecode] at hheard
        | nothing => cases hrecv
        | failure e => cases hrecv

/-! ## The two branches that change the session -/

theorem expectedSourceSymbols_eq {spec : TransferSpec} (ht : 0 < spec.symbolSizeT.toNat) :
    expectedSourceSymbols spec = .ok spec.sourceK :=
  if_neg (usize_pos.mp ht)

/-- The state after metadata was accepted. -/
def RecvState.restarted (s : RecvState eng) (session : SessionParams)
    (decoder : TransferDecoderImpl eng) : RecvState eng :=
  ⟨some session, some decoder, 0, 0, s.ignoredDatagrams⟩

/-- The state after a packet was accepted. -/
def RecvState.advanced (s : RecvState eng) (decoder : TransferDecoderImpl eng)
    (packet : TransferPacket) : RecvState eng :=
  ⟨s.session, some decoder, s.packetsReceived + 1,
    saturatingAdd s.bytesReceived packet.symbol.length, s.ignoredDatagrams⟩

theorem establish_eq {session : SessionParams} {decoder : TransferDecoderImpl eng}
    (ht : 0 < session.spec.symbolSizeT.toNat) :
    establish task s session decoder =
      ⟨s.restarted session decoder, task.report (.receiverSessionEstablished session.sessionId
        session.spec.transferLengthF session.spec.symbolSizeT session.spec.sourceK), none⟩ := by
  simp only [establish, expectedSourceSymbols_eq ht, RecvTask.report]
  split <;> rfl

theorem accept_state {session : SessionParams} {decoder : TransferDecoderImpl eng}
    {status : DecodeStatus} {packet : TransferPacket} {peer : SocketAddr}
    (ht : 0 < session.spec.symbolSizeT.toNat) :
    (accept task s session decoder status packet peer).state = s.advanced decoder packet := by
  simp only [accept, expectedSourceSymbols_eq ht]
  split
  · split <;> rfl
  · rfl

/-- How an accepted packet ends the receive, if it does. -/
theorem accept_halt {session : SessionParams} {decoder : TransferDecoderImpl eng}
    {status : DecodeStatus} {packet : TransferPacket} {peer : SocketAddr}
    (ht : 0 < session.spec.symbolSizeT.toNat) :
    (accept task s session decoder status packet peer).halt =
      if status = .decoded then
        some (match decoder.recoverObject with
          | .error panic => .error panic
          | .ok (.error e) => .ok (.error (.core e))
          | .ok (.ok object) =>
            .ok (.ok ⟨object, s.packetsReceived + 1, peer, task.listenAddr⟩))
      else none := by
  simp only [accept, expectedSourceSymbols_eq ht]
  split
  · split <;> simp [*]
  · rfl

/-! ## The invariant -/

/-- What holds of the locals of the loop whenever it waits for a datagram. -/
structure RecvInv (task : RecvTask) (s : RecvState eng) : Prop where
  together : s.session = none ↔ s.decoder = none
  spec : ∀ {session decoder}, s.session = some session → s.decoder = some decoder →
    decoder.spec = session.spec
  took : ∀ {decoder}, s.decoder = some decoder → ∃ fed reports, decoder.Took fed reports
  expected : ∀ {session sessionId}, s.session = some session →
    task.config.expectedSessionId = some sessionId → session.sessionId = sessionId
  dimensions : ∀ {session}, s.session = some session →
    1 ≤ session.spec.transferLengthF.toNat ∧ 1 ≤ session.spec.symbolSizeT.toNat ∧
      session.spec.symbolSizeT.toNat ≤ 65535
  bytes : ∀ {session}, s.session = some session →
    s.bytesReceived = min (s.packetsReceived * session.spec.symbolSizeT.toNat) usizeMax
  idle : s.session = none → s.packetsReceived = 0 ∧ s.bytesReceived = 0

theorem RecvInv.initial (task : RecvTask) : RecvInv task (RecvState.initial eng) where
  together := iff_of_true rfl rfl
  spec h := nomatch h
  took h := nomatch h
  expected h := nomatch h
  dimensions h := nomatch h
  bytes h := nomatch h
  idle _ := ⟨rfl, rfl⟩

theorem Announces.dimensions {arrival : Arrival} {session : SessionParams}
    (h : Announces arrival session) :
    1 ≤ session.spec.transferLengthF.toNat ∧ 1 ≤ session.spec.symbolSizeT.toNat ∧
      session.spec.symbolSizeT.toNat ≤ 65535 := by
  obtain ⟨_, _, _, _, hspec⟩ := h
  obtain ⟨_, _, f, t, kind, _, _, hf, ht, hspec⟩ := specFromSessionMeta_eq_ok.mp hspec
  rw [hspec]
  have htop := t.toNat_lt
  simp only [UInt16.toNat_toUInt64]
  omega

theorem Delivers.length {arrival : Arrival} {session : SessionParams} {packet : TransferPacket}
    {peer : SocketAddr} (h : Delivers arrival session packet peer) :
    packet.symbol.length = session.spec.symbolSizeT.toNat := by
  obtain ⟨_, _, hpacket⟩ := h
  obtain ⟨_, _, hlength, _⟩ := transferPacketFromMessage_eq_ok.mp hpacket
  exact hlength

theorem RecvInv.ignored (h : RecvInv task s) (reason : IgnoredDatagramReason) :
    RecvInv task (emitIgnored task s reason).state where
  together := h.together
  spec := h.spec
  took := h.took
  expected := h.expected
  dimensions := h.dimensions
  bytes := h.bytes
  idle := h.idle

theorem RecvInv.restarted {arrival : Arrival} {session : SessionParams}
    {decoder : TransferDecoderImpl eng} (hannounces : Announces arrival session)
    (hadmits : Admits task s session.sessionId)
    (hnew : TransferDecoderImpl.new eng session.spec = .ok (.ok decoder)) :
    RecvInv task (s.restarted session decoder) := by
  obtain ⟨hspec, htook⟩ := (TransferDecoderImpl.Constructed.new hnew).took
  refine ⟨by simp [RecvState.restarted], ?_, ?_, ?_, ?_, ?_, ?_⟩
  · rintro _ _ ⟨⟩ ⟨⟩
    exact hspec
  · rintro _ ⟨⟩
    exact ⟨[], [], htook⟩
  · rintro _ sessionId ⟨⟩ hexpected
    exact hadmits.1 sessionId hexpected
  · rintro _ ⟨⟩
    exact hannounces.dimensions
  · rintro _ ⟨⟩
    simp [RecvState.restarted]
  · intro hnone
    cases hnone

theorem RecvInv.advanced {arrival : Arrival} {session : SessionParams}
    {decoder decoder' : TransferDecoderImpl eng} {packet : TransferPacket} {peer : SocketAddr}
    {status : DecodeStatus} (h : RecvInv task s) (hsession : s.session = some session)
    (hdecoder : s.decoder = some decoder) (hdelivers : Delivers arrival session packet peer)
    (hadd : decoder.addPacket packet = .ok (.ok (decoder', status))) :
    RecvInv task (s.advanced decoder' packet) := by
  obtain ⟨fed, reports, htook⟩ := h.took hdecoder
  obtain ⟨c, _, hspec', htook'⟩ := htook.addPacket hadd
  have hspec := h.spec hsession hdecoder
  refine ⟨by simp [RecvState.advanced, hsession], ?_, ?_, h.expected, h.dimensions, ?_, ?_⟩
  · rintro session' _ hsession' ⟨⟩
    cases hsession.symm.trans hsession'
    exact hspec'.trans hspec
  · rintro _ ⟨⟩
    exact ⟨_, _, htook'⟩
  · intro session' hsession'
    cases hsession.symm.trans hsession'
    have hbytes := h.bytes hsession
    simp only [RecvState.advanced, saturatingAdd, hbytes, hdelivers.length, Nat.add_mul, Nat.one_mul]
    omega
  · intro hnone
    cases hsession.symm.trans hnone

/-- One arrival keeps the invariant, whether the loop goes on or not. -/
theorem Effect.preserves {arrival : Arrival} {out : RecvOut eng} (he : Effect task s arrival out)
    (h : RecvInv task s) : RecvInv task out.state := by
  cases he with
  | ended _ => exact h
  | ignored reason => exact h.ignored reason
  | noDecoder _ _ => exact h
  | noScheme _ _ _ => exact h
  | established hannounces hadmits hnew =>
    rw [establish_eq hannounces.dimensions.2.1]
    exact .restarted hannounces hadmits hnew
  | notTaken _ _ _ _ => exact h
  | accepted hsession hdecoder hdelivers hadd =>
    rw [accept_state (h.dimensions hsession).2.1]
    exact h.advanced hsession hdecoder hdelivers hadd

theorem RecvInv.of_reaches {t : RecvState eng} (h : Reaches (step task) s t) (hs : RecvInv task s) :
    RecvInv task t :=
  h.invariant hs fun s arrival hinv _ => (step_effect task s arrival).preserves hinv

/-- The decoder the loop holds has not reported that it is done. -/
def Undecided (s : RecvState eng) : Prop :=
  ∀ decoder, s.decoder = some decoder →
    ∃ fed reports, decoder.Took fed reports ∧ .decoded ∉ reports

theorem Effect.undecided {arrival : Arrival} {out : RecvOut eng} (he : Effect task s arrival out)
    (hinv : RecvInv task s) (h : Undecided s) (hgo : out.halt = none) : Undecided out.state := by
  cases he with
  | ended _ => exact h
  | ignored _ => exact h
  | noDecoder _ _ => exact h
  | noScheme _ _ _ => exact h
  | established hannounces _ hnew =>
    rw [establish_eq hannounces.dimensions.2.1]
    rintro _ ⟨⟩
    exact ⟨[], [], (TransferDecoderImpl.Constructed.new hnew).took.2, List.not_mem_nil⟩
  | notTaken _ _ _ _ => exact h
  | @accepted session decoder decoder' packet peer status hsession hdecoder _ hadd =>
    have ht := (hinv.dimensions hsession).2.1
    rw [accept_halt ht] at hgo
    rw [accept_state ht]
    rintro _ ⟨⟩
    obtain ⟨fed, reports, htook, hpending⟩ := h decoder hdecoder
    obtain ⟨c, _, _, htook'⟩ := htook.addPacket hadd
    refine ⟨_, _, htook', fun hmem => ?_⟩
    -- had this packet completed the object, the loop would have returned
    rcases List.mem_append.mp hmem with hmem | hmem
    · exact hpending hmem
    · rw [if_pos (List.mem_singleton.mp hmem).symm] at hgo
      cases hgo

theorem Undecided.of_reaches {t : RecvState eng} (h : Reaches (step task) s t)
    (hs : RecvInv task s) (hundecided : Undecided s) : Undecided t := by
  have hboth := h.invariant (P := fun u => RecvInv task u ∧ Undecided u) ⟨hs, hundecided⟩
    fun u arrival hu hgo => ⟨(step_effect task u arrival).preserves hu.1,
      (step_effect task u arrival).undecided hu.1 hu.2 hgo⟩
  exact hboth.2

theorem Undecided.initial : Undecided (RecvState.initial eng) := fun _ h => nomatch h

/-! ## The session id -/

/-- A session, once there is one, keeps its id. -/
theorem Effect.keeps_id {arrival : Arrival} {out : RecvOut eng} (he : Effect task s arrival out)
    (h : RecvInv task s) {sessionId : UInt64}
    (hid : ∃ session, s.session = some session ∧ session.sessionId = sessionId) :
    ∃ session, out.state.session = some session ∧ session.sessionId = sessionId := by
  obtain ⟨session, hsession, hid⟩ := hid
  cases he with
  | ended _ => exact ⟨session, hsession, hid⟩
  | ignored reason => exact ⟨session, hsession, hid⟩
  | noDecoder _ _ => exact ⟨session, hsession, hid⟩
  | noScheme _ _ _ => exact ⟨session, hsession, hid⟩
  | established hannounces hadmits hnew =>
    rw [establish_eq hannounces.dimensions.2.1]
    exact ⟨_, rfl, (hadmits.2 session hsession).symm.trans hid⟩
  | notTaken _ _ _ _ => exact ⟨session, hsession, hid⟩
  | accepted hactive hdecoder hdelivers hadd =>
    rw [accept_state (h.dimensions hactive).2.1]
    exact ⟨session, hsession, hid⟩

theorem sessionId_of_reaches {t : RecvState eng} (h : Reaches (step task) s t) (hs : RecvInv task s)
    {session : SessionParams} (hsession : s.session = some session) :
    ∃ session', t.session = some session' ∧ session'.sessionId = session.sessionId := by
  have hboth := h.invariant
    (P := fun u => RecvInv task u ∧
      ∃ session', u.session = some session' ∧ session'.sessionId = session.sessionId)
    ⟨hs, session, hsession, rfl⟩ fun u arrival hu _ =>
      ⟨(step_effect task u arrival).preserves hu.1, (step_effect task u arrival).keeps_id hu.1 hu.2⟩
  exact hboth.2

/-! ## Panics -/

/-- The panics the receive loop raises itself: the `expect` on the decoder, and the
division in `expected_source_symbols`. -/
def Panic.OfLoop : Panic → Prop
  | .expect _ => True
  | .divideByZero => True
  | _ => False

/-- The call panics, if at all, further down. -/
def NotOfLoop {α : Type} (call : Call α) : Prop := ∀ panic, call = .error panic → ¬ panic.OfLoop

theorem NotOfLoop.ok {α : Type} (a : α) : NotOfLoop (.ok a : Call α) := fun _ h => nomatch h

theorem NotOfLoop.bind {α β : Type} {x : Call α} {f : α → Call β} (hx : NotOfLoop x)
    (hf : ∀ a, NotOfLoop (f a)) : NotOfLoop (x >>= f) := by
  cases x with
  | error panic => exact fun _ h => hx _ (by cases h; rfl)
  | ok a => exact hf a

theorem NotOfLoop.assert (holds : Bool) (text : String) : NotOfLoop (assert holds text) := by
  cases holds with
  | true => exact .ok ()
  | false => exact fun _ h => by cases h; exact id

theorem NotOfLoop.addUsize (a b : Nat) : NotOfLoop (addUsize a b) := by
  unfold FountainTransfer.addUsize
  split
  · exact .ok _
  · exact fun _ h => by cases h; exact id

theorem NotOfLoop.withCapacity (n : Nat) : NotOfLoop (withCapacity n) := by
  unfold FountainTransfer.withCapacity
  split
  · exact .ok _
  · exact fun _ h => by cases h; exact id

theorem NotOfLoop.engineCall {α : Type} (result : Except String α) :
    NotOfLoop (engineCall result) := by
  cases result with
  | ok a => exact .ok a
  | error text => exact fun _ h => by cases h; exact id

theorem NotOfLoop.new (spec : TransferSpec) : NotOfLoop (TransferDecoderImpl.new eng spec) := by
  unfold TransferDecoderImpl.new
  split
  · exact .ok _
  · next hvalid =>
    obtain ⟨hf, ht⟩ := validateSpec_eq_ok.mp hvalid
    refine .bind ?_ fun _ => .ok _
    unfold TransferDecoderImpl.withOperator
    split
    · rw [Rfc6330TransmissionParams.forObject_eq hf ht, ok_bind]
      exact .bind (.bind (.engineCall _) fun _ => .bind (.engineCall _) fun _ => .ok _) fun _ => .ok _
    · rw [Rfc5053TransmissionParams.forObject_eq hf ht, ok_bind]
      exact .bind (.bind (.engineCall _) fun _ => .bind (.engineCall _) fun _ => .ok _) fun _ => .ok _

theorem NotOfLoop.codedId (decoder : TransferDecoderImpl eng) (esi : Nat) :
    NotOfLoop (decoder.codedId esi) := by
  cases decoder with
  | raptorQ decoder spec =>
    simp only [TransferDecoderImpl.codedId, payloadEsiToCodedId]
    split
    · exact .ok _
    · exact .bind (.bind (.assert _ _) fun _ => .ok _) fun _ => .addUsize _ _
  | raptor10 decoder spec => exact .ok _

theorem NotOfLoop.feed (decoder : TransferDecoderImpl eng) (c : Nat) (symbol : Bytes) :
    NotOfLoop (decoder.feed c symbol) := by
  cases decoder <;> exact .bind (.bind (.engineCall _) fun _ => .ok _) fun _ => .ok _

theorem NotOfLoop.addPacket (decoder : TransferDecoderImpl eng) (packet : TransferPacket) :
    NotOfLoop (decoder.addPacket packet) := by
  by_cases h : decoder.WellFormed packet
  · rw [TransferDecoderImpl.addPacket_eq h]
    exact .bind (.codedId _ _) fun _ => .bind (.feed _ _ _) fun _ => .ok _
  · obtain ⟨e, he⟩ := TransferDecoderImpl.addPacket_rejects h
    rw [he]
    exact .ok _

theorem NotOfLoop.recoverObject (decoder : TransferDecoderImpl eng) :
    NotOfLoop decoder.recoverObject := by
  unfold TransferDecoderImpl.recoverObject
  split
  · exact .ok _
  · cases decoder <;>
      exact .bind (.bind (.assert _ _) fun _ => .bind (.assert _ _) fun _ => .bind (.assert _ _)
        fun _ => .bind (.withCapacity _) fun _ => .ok _) fun _ => .ok _

/-! ## The exits of a packet -/

/-- The points at which the loop body is done with a packet, in the order of the source. -/
inductive PacketExit (eng : Engines)
  | beforeSession
  | foreign
  | unexpected
  | unread (error : ProtocolError)
  | noDecoder
  | panics (panic : Panic)
  | refused (error : TransferError)
  | taken (session : SessionParams) (decoder : TransferDecoderImpl eng) (status : DecodeStatus)
      (packet : TransferPacket)

def packetExit (task : RecvTask) (s : RecvState eng) (message : WireMessage) : PacketExit eng :=
  match s.session with
  | none => .beforeSession
  | some session =>
    if session.sessionId ≠ message.sessionId then .foreign
    else if task.config.expectedSessionId.any (message.sessionId ≠ ·) then .unexpected
    else
      match transferPacketFromMessage message session.sessionId session.spec.symbolSizeT.toNat with
      | .error e => .unread e
      | .ok packet =>
        match s.decoder with
        | none => .noDecoder
        | some decoder =>
          match decoder.addPacket packet with
          | .error panic => .panics panic
          | .ok (.error e) => .refused e
          | .ok (.ok (decoder, status)) => .taken session decoder status packet

/-- What the loop does there. -/
def PacketExit.out (task : RecvTask) (s : RecvState eng) (peer : SocketAddr) :
    PacketExit eng → RecvOut eng
  | .beforeSession => emitIgnored task s .beforeSession
  | .foreign => emitIgnored task s .foreignSession
  | .unexpected => emitIgnored task s .foreignSession
  | .unread e => emitIgnored task s (reasonForProtocolError e)
  | .noDecoder => panicked s (.expect "decoder after meta")
  | .panics panic => panicked s panic
  | .refused _ => emitIgnored task s .invalidPacket
  | .taken session decoder status packet => accept task s session decoder status packet peer

theorem onPacket_eq_exit (message : WireMessage) (peer : SocketAddr) :
    onPacket task s message message.sessionId peer = (packetExit task s message).out task s peer := by
  unfold onPacket packetExit
  cases s.session with
  | none => rfl
  | some session =>
    dsimp only
    split
    · rfl
    · split
      · rfl
      · cases transferPacketFromMessage message session.sessionId
          session.spec.symbolSizeT.toNat with
        | error e => rfl
        | ok packet =>
          cases s.decoder with
          | none => rfl
          | some decoder =>
            dsimp only
            generalize decoder.addPacket packet = result
            rcases result with panic | e | ⟨decoder, status⟩
            · rfl
            · rfl
            · rfl

/-- What the loop has found out about a packet at each exit. -/
inductive ExitsAt (task : RecvTask) (s : RecvState eng) (message : WireMessage) :
    PacketExit eng → Prop
  | beforeSession : s.session = none → ExitsAt task s message .beforeSession
  | foreign {session : SessionParams} : s.session = some session →
      session.sessionId ≠ message.sessionId → ExitsAt task s message .foreign
  | unexpected {session : SessionParams} : s.session = some session →
      session.sessionId = message.sessionId →
      task.config.expectedSessionId.any (message.sessionId ≠ ·) = true →
      ExitsAt task s message .unexpected
  | unread {session : SessionParams} {e : ProtocolError} : s.session = some session →
      session.sessionId = message.sessionId →
      transferPacketFromMessage message session.sessionId session.spec.symbolSizeT.toNat = .error e →
      ExitsAt task s message (.unread e)
  | noDecoder {session : SessionParams} : s.session = some session → s.decoder = none →
      ExitsAt task s message .noDecoder
  | panics {decoder : TransferDecoderImpl eng} {packet : TransferPacket} {panic : Panic} :
      s.decoder = some decoder → decoder.addPacket packet = .error panic →
      ExitsAt task s message (.panics panic)
  | refused {session : SessionParams} {decoder : TransferDecoderImpl eng} {packet : TransferPacket}
      {e : TransferError} : s.session = some session → s.decoder = some decoder →
      transferPacketFromMessage message session.sessionId session.spec.symbolSizeT.toNat =
        .ok packet → decoder.addPacket packet = .ok (.error e) → ExitsAt task s message (.refused e)
  | taken {session : SessionParams} {decoder decoder' : TransferDecoderImpl eng}
      {packet : TransferPacket} {status : DecodeStatus} : s.session = some session →
      s.decoder = some decoder → decoder.addPacket packet = .ok (.ok (decoder', status)) →
      ExitsAt task s message (.taken session decoder' status packet)

theorem packetExit_spec (task : RecvTask) (s : RecvState eng) (message : WireMessage) :
    ExitsAt task s message (packetExit task s message) := by
  unfold packetExit
  split
  · next hnone => exact .beforeSession hnone
  · next session hsession =>
    split
    · next hid => exact .foreign hsession hid
    · next hid =>
      have hid : session.sessionId = message.sessionId := Decidable.not_not.mp hid
      split
      · next hexpected => exact .unexpected hsession hid hexpected
      · split
        · next hread => exact .unread hsession hid hread
        · next packet hread =>
          split
          · next hnone => exact .noDecoder hsession hnone
          · next decoder hdecoder =>
            split
            · next hadd => exact .panics hdecoder hadd
            · next hadd => exact .refused hsession hdecoder hread hadd
            · next hadd => exact .taken hsession hdecoder hadd

/-- A message of the session is refused for its version or for the length of its symbol. -/
theorem transferPacketFromMessage_refuses {version : UInt8} {sessionId : UInt64} {sbn esi : UInt32}
    {symbol : Bytes} {t : Nat} {e : ProtocolError}
    (h : transferPacketFromMessage (.packet version sessionId sbn esi symbol) sessionId t =
      .error e) :
    (version ≠ wireVersion ∧ e = .unsupportedVersion version) ∨
      e = .symbolLengthMismatch t symbol.length := by
  simp only [transferPacketFromMessage, ne_eq, not_true_eq_false, if_false] at h
  split at h
  · next hversion => exact .inl ⟨hversion, (Except.error.inj h).symm⟩
  · split at h
    · exact .inr (Except.error.inj h).symm
    · cases h

/-! ## Dead branches -/

/-- A decoder that is done does not answer with an error. -/
theorem recoverObject_of_decoded {decoder : TransferDecoderImpl eng} {e : TransferError}
    (h : decoder.decodeStatus = .decoded) : decoder.recoverObject ≠ .ok (.error e) := by
  unfold TransferDecoderImpl.recoverObject
  rw [if_neg (not_not_intro h)]
  cases decoder <;>
  · intro hbad
    simp only [bind_eq_ok, pure_eq_ok] at hbad
    obtain ⟨_, _, hbad⟩ := hbad
    cases hbad

/-- What cannot happen to the next arrival. -/
structure DeadBranches (task : RecvTask) (s : RecvState eng) (arrival : Arrival) : Prop where
  /-- The loop leaves a packet where `packetExit` says. -/
  exit : ∀ {version sessionId sbn esi symbol peer},
    heard arrival = some (.packet version sessionId sbn esi symbol, peer) →
    step task s arrival =
      (packetExit task s (.packet version sessionId sbn esi symbol)).out task s peer
  /-- `expect("decoder after meta")` does not fire. -/
  expect : (step task s arrival).halt ≠ some (.error (.expect "decoder after meta"))
  /-- The ceiling division has no zero divisor. -/
  divide : (step task s arrival).halt ≠ some (.error .divideByZero)
  /-- `recover_object()?` does not return. -/
  recover : ∀ e, (step task s arrival).halt ≠ some (.ok (.error (.core e)))
  /-- The second check of a packet against `expected_session_id` finds nothing. -/
  secondCheck : ∀ {version sessionId sbn esi symbol peer},
    heard arrival = some (.packet version sessionId sbn esi symbol, peer) →
    packetExit task s (.packet version sessionId sbn esi symbol) ≠ .unexpected
  /-- `transfer_packet_from_message` refuses a packet for its version or its length, never
  for its session id. -/
  sessionId : ∀ {version sessionId sbn esi symbol peer e},
    heard arrival = some (.packet version sessionId sbn esi symbol, peer) →
    packetExit task s (.packet version sessionId sbn esi symbol) = .unread e →
    (∃ session, s.session = some session ∧ session.sessionId = sessionId) ∧
      ((version ≠ wireVersion ∧ e = .unsupportedVersion version) ∨
        ∃ expected actual, e = .symbolLengthMismatch expected actual)
  /-- `add_packet` finds no wrong length in a packet that was read for the session. -/
  length : ∀ {version sessionId sbn esi symbol peer},
    heard arrival = some (.packet version sessionId sbn esi symbol, peer) → ∀ expected actual,
    packetExit task s (.packet version sessionId sbn esi symbol) ≠
      .refused (.symbolLengthMismatch expected actual)

theorem Effect.no_panic {arrival : Arrival} {out : RecvOut eng} (he : Effect task s arrival out)
    (h : RecvInv task s) {panic : Panic} (hloop : panic.OfLoop) :
    out.halt ≠ some (.error panic) := by
  cases he with
  | ended _ => simp
  | ignored reason => simp [emitIgnored]
  | noDecoder hsession hnone =>
    rw [h.together.mpr hnone] at hsession
    cases hsession
  | noScheme _ _ hnew =>
    rintro ⟨⟩
    exact NotOfLoop.new _ _ hnew hloop
  | established hannounces _ _ => simp [establish_eq hannounces.dimensions.2.1]
  | notTaken _ _ _ hadd =>
    rintro ⟨⟩
    exact NotOfLoop.addPacket _ _ _ hadd hloop
  | @accepted session decoder decoder' packet peer status hsession hdecoder hdelivers hadd =>
    rw [accept_halt (h.dimensions hsession).2.1]
    split
    · split
      · next p hrecover =>
        rintro ⟨⟩
        exact NotOfLoop.recoverObject _ _ hrecover hloop
      · simp
      · simp
    · simp

theorem Effect.no_core_error {arrival : Arrival} {out : RecvOut eng}
    (he : Effect task s arrival out) (h : RecvInv task s) (hundecided : Undecided s)
    (reports : eng.ReportsStatus) (e : TransferError) :
    out.halt ≠ some (.ok (.error (.core e))) := by
  cases he with
  | ended hrecv =>
    rintro ⟨⟩
    cases arrival <;> cases hrecv
  | ignored reason => simp [emitIgnored]
  | noDecoder _ _ => simp [panicked]
  | noScheme _ _ _ => simp [panicked]
  | established hannounces _ _ => simp [establish_eq hannounces.dimensions.2.1]
  | notTaken _ _ _ _ => simp [panicked]
  | accepted hsession hdecoder _ hadd =>
    obtain ⟨_, _, htook, hpending⟩ := hundecided _ hdecoder
    rw [accept_halt (h.dimensions hsession).2.1]
    split
    · next hdone =>
      split
      · simp
      · next hrecover =>
        exact absurd hrecover
          (recoverObject_of_decoded ((htook.reportsStatus reports hpending hadd).trans hdone))
      · simp
    · simp

/-- Past the first check a packet has the id of the session, and so the expected one. -/
theorem RecvInv.not_unexpected (h : RecvInv task s) (message : WireMessage) :
    packetExit task s message ≠ .unexpected := by
  intro hexit
  cases hexit ▸ packetExit_spec task s message with
  | unexpected hsession hid hunexpected =>
    refine any_ne_eq_false.mpr (fun expected hexpected => ?_) hunexpected
    exact hid.symm.trans (h.expected hsession hexpected)

theorem unread_reason {version : UInt8} {sessionId : UInt64} {sbn esi : UInt32} {symbol : Bytes}
    {e : ProtocolError}
    (hexit : packetExit task s (.packet version sessionId sbn esi symbol) = .unread e) :
    (∃ session, s.session = some session ∧ session.sessionId = sessionId) ∧
      ((version ≠ wireVersion ∧ e = .unsupportedVersion version) ∨
        ∃ expected actual, e = .symbolLengthMismatch expected actual) := by
  cases hexit ▸ packetExit_spec task s (.packet version sessionId sbn esi symbol) with
  | unread hsession hid hread =>
    have hid : _ = sessionId := hid
    rw [hid] at hread
    refine ⟨⟨_, hsession, hid⟩, (transferPacketFromMessage_refuses hread).imp id fun hlength => ?_⟩
    exact ⟨_, _, hlength⟩

theorem RecvInv.not_refused_for_length (h : RecvInv task s) (message : WireMessage)
    (expected actual : Nat) :
    packetExit task s message ≠ .refused (.symbolLengthMismatch expected actual) := by
  intro hexit
  cases hexit ▸ packetExit_spec task s message with
  | @refused session decoder packet _ hsession hdecoder hread hadd =>
    obtain ⟨_, _, hlength, _⟩ := transferPacketFromMessage_eq_ok.mp hread
    have hlength : ¬ packet.symbol.length ≠ decoder.spec.symbolSizeT.toNat := by
      rw [h.spec hsession hdecoder]
      exact not_not_intro hlength
    unfold TransferDecoderImpl.addPacket at hadd
    rw [if_neg hlength] at hadd
    split at hadd
    · cases hadd
    · cases decoder <;>
      · simp only [bind_eq_ok, pure_eq_ok] at hadd
        obtain ⟨_, _, hbad⟩ := hadd
        cases hbad

theorem RecvInv.deadBranches (h : RecvInv task s) (hundecided : Undecided s)
    (reports : eng.ReportsStatus) (arrival : Arrival) : DeadBranches task s arrival where
  exit {version sessionId sbn esi symbol peer} hheard := by
    rw [step_of_heard hheard]
    exact onPacket_eq_exit (.packet version sessionId sbn esi symbol) peer
  expect := (step_effect task s arrival).no_panic h trivial
  divide := (step_effect task s arrival).no_panic h trivial
  recover := (step_effect task s arrival).no_core_error h hundecided reports
  secondCheck _ := h.not_unexpected _
  sessionId _ := unread_reason
  length _ := h.not_refused_for_length _

/-- For every configuration and every state the loop reaches: the invariant holds, the
session id never changes from there on, and whatever arrives next the dead branches are
not taken. -/
theorem receiver_invariant (reports : eng.ReportsStatus)
    (h : Reaches (step task) (RecvState.initial eng) s) :
    RecvInv task s ∧
    (∀ t session, Reaches (step task) s t → s.session = some session →
      ∃ session', t.session = some session' ∧ session'.sessionId = session.sessionId) ∧
    (∀ arrival, DeadBranches task s arrival) := by
  have hinv := RecvInv.of_reaches h (.initial task)
  have hundecided := Undecided.of_reaches h (.initial task) .initial
  exact ⟨hinv, fun _ _ ht hsession => sessionId_of_reaches ht hinv hsession,
    hinv.deadBranches hundecided reports⟩

end

namespace Repetition

/-- No expected session, and a callback. -/
def openTask : RecvTask := ⟨⟨60000000000, none⟩, true, ⟨0, 7878⟩⟩

/-- The receiver after the metadata of `specQ` under session id 7. -/
def activeQ : RecvState engines := ⟨some ⟨7, specQ⟩, some decoderQ, 0, 0, 0⟩

def metaQ : Arrival :=
  .datagram (wireCode.encode (sessionMetaFromSpec 7 specQ)) ⟨2130706433, 5000⟩

theorem activeQ_reached : Reaches (step openTask) (RecvState.initial engines) activeQ :=
  ⟨[metaQ], rfl, rfl⟩

end Repetition

open Repetition in
theorem receiver_invariant_active :
    RecvInv openTask activeQ ∧
    (∀ t session, Reaches (step openTask) activeQ t → activeQ.session = some session →
      ∃ session', t.session = some session' ∧ session'.sessionId = session.sessionId) ∧
    (∀ arrival, DeadBranches openTask activeQ arrival) :=
  receiver_invariant engines_reportsStatus activeQ_reached

end FountainTransfer
