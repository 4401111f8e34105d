import FountainTransfer.ReceiverInvariant

/-!
# Session pinning

The receiver is pinned to one session id: the expected one, or the one of the first
acceptable metadata. Datagrams that are not for this session, or not acceptable in it,
change nothing an observer sees of a receive: its end and its progress events, except
the events that report ignored datagrams. `session_pinning` states this for every
sequence of arrivals, for deletions and insertions at any position, and for a receiver
that was told the id instead of learning it.
-/

namespace FountainTransfer

open HaltingMachine

/-- Every event but `ReceiverDatagramIgnored`. -/
def accepted : ProgressEvent → Bool
  | .receiverDatagramIgnored _ _ => false
  | _ => true

def WireMessage.version : WireMessage → UInt8
  | .sessionMeta version _ _ _ _ => version
  | .packet version _ _ _ _ => version

/-! ## The session a receiver is pinned to -/

/-- The session an arrival announces, if it is acceptable metadata. -/
def announced (arrival : Arrival) : Option SessionParams :=
  match heard arrival with
  | none => none
  | some (message, _) =>
    match specFromSessionMeta message with
    | .error _ => none
    | .ok spec => some ⟨message.sessionId, spec⟩

theorem announced_eq_some {arrival : Arrival} {session : SessionParams} :
    announced arrival = some session ↔ Announces arrival session := by
  unfold announced Announces
  constructor
  · intro h
    split at h
    · cases h
    · next message peer hheard =>
      split at h
      · cases h
      · next spec hspec =>
        cases h
        exact ⟨message, peer, hheard, rfl, hspec⟩
  · rintro ⟨message, peer, hheard, hid, hspec⟩
    simp only [hheard, hspec, hid]

/-- The id of the first acceptable metadata. -/
def firstAnnounced (arrivals : List Arrival) : Option UInt64 :=
  (arrivals.findSome? announced).map (·.sessionId)

/-- The configured id, or else the first acceptable one. -/
def pinnedId (task : RecvTask) (arrivals : List Arrival) : Option UInt64 :=
  match task.config.expectedSessionId with
  | some expected => some expected
  | none => firstAnnounced arrivals

/-- Datagrams that do not matter to a receiver pinned to `p` in state `s`. -/
inductive Ignorable {eng : Engines} (p : Option UInt64) (s : RecvState eng) : Arrival → Prop
  | malformed {bytes : Bytes} {peer : SocketAddr} :
      heard (.datagram bytes peer) = none → Ignorable p s (.datagram bytes peer)
  | foreign {arrival : Arrival} {message : WireMessage} {peer : SocketAddr} :
      heard arrival = some (message, peer) → some message.sessionId ≠ p → Ignorable p s arrival
  | wrongVersion {arrival : Arrival} {message : WireMessage} {peer : SocketAddr} :
      heard arrival = some (message, peer) → message.version ≠ wireVersion →
      Ignorable p s arrival
  | unknownCodec {arrival : Arrival} {version codec : UInt8} {sessionId f : UInt64} {t : UInt16}
      {peer : SocketAddr} : heard arrival = some (.sessionMeta version sessionId codec f t, peer) →
      codec ≠ codecRaptorQ → codec ≠ codecRaptor10 → Ignorable p s arrival
  | wrongBlock {arrival : Arrival} {version : UInt8} {sessionId : UInt64} {sbn esi : UInt32}
      {symbol : Bytes} {peer : SocketAddr} :
      heard arrival = some (.packet version sessionId sbn esi symbol, peer) → sbn ≠ 0 →
      Ignorable p s arrival
  | wrongLength {arrival : Arrival} {version : UInt8} {sessionId : UInt64} {sbn esi : UInt32}
      {symbol : Bytes} {peer : SocketAddr} {session : SessionParams} :
      heard arrival = some (.packet version sessionId sbn esi symbol, peer) →
      s.session = some session → symbol.length ≠ session.spec.symbolSizeT.toNat →
      Ignorable p s arrival
  | beforeSession {arrival : Arrival} {version : UInt8} {sessionId : UInt64} {sbn esi : UInt32}
      {symbol : Bytes} {peer : SocketAddr} :
      heard arrival = some (.packet version sessionId sbn esi symbol, peer) → s.session = none →
      Ignorable p s arrival

section

variable {eng : Engines} {task task' : RecvTask} {s s' : RecvState eng} {p : Option UInt64}

/-- `p` is the id of the session, of the configuration, and, as long as a receiver that
was not told an id has no session, of the first metadata still to come. -/
structure Pinned (p : Option UInt64) (task : RecvTask) (s : RecvState eng)
    (arrivals : List Arrival) : Prop where
  session : ∀ session, s.session = some session → some session.sessionId = p
  expected : ∀ expected, task.config.expectedSessionId = some expected → some expected = p
  first : s.session = none → task.config.expectedSessionId = none → firstAnnounced arrivals = p

theorem firstAnnounced_cons_of_none {arrival : Arrival} {arrivals : List Arrival}
    (h : announced arrival = none) :
    firstAnnounced (arrival :: arrivals) = firstAnnounced arrivals := by
  simp [firstAnnounced, h]

theorem firstAnnounced_cons_of_some {arrival : Arrival} {arrivals : List Arrival}
    {session : SessionParams} (h : announced arrival = some session) :
    firstAnnounced (arrival :: arrivals) = some session.sessionId := by
  simp [firstAnnounced, h]

/-- A receiver only admits metadata of the id it is pinned to. -/
theorem Pinned.of_admits {arrival : Arrival} {arrivals : List Arrival} {session : SessionParams}
    (h : Pinned p task s (arrival :: arrivals)) (hannounces : Announces arrival session)
    (hadmits : Admits task s session.sessionId) : some session.sessionId = p := by
  -- by what the receiver compares the id with: the active session, the configuration, nothing
  cases hs : s.session with
  | some active => rw [← hadmits.2 active hs]; exact h.session active hs
  | none =>
    cases he : task.config.expectedSessionId with
    | some expected => rw [hadmits.1 expected he]; exact h.expected expected he
    | none =>
      rw [← firstAnnounced_cons_of_some (announced_eq_some.mpr hannounces)]
      exact h.first hs he

/-! ## What is ignorable is ignored -/

theorem onSessionMeta_ignored {message : WireMessage}
    (h : ∀ spec, specFromSessionMeta message = .ok spec → ¬ Admits task s message.sessionId) :
    ∃ reason, onSessionMeta task s message message.sessionId = emitIgnored task s reason := by
  unfold onSessionMeta
  split
  · exact ⟨_, rfl⟩
  · next hexpected =>
    split
    · exact ⟨_, rfl⟩
    · next hactive =>
      split
      · exact ⟨_, rfl⟩
      · next spec hspec =>
        refine absurd ?_ (h spec hspec)
        refine ⟨any_ne_eq_false.mp hexpected, fun session hsession => ?_⟩
        simpa [hsession] using hactive

theorem onPacket_ignored {message : WireMessage} {peer : SocketAddr} (hinv : RecvInv task s)
    (h : ∀ session packet, s.session = some session → session.sessionId = message.sessionId →
      transferPacketFromMessage message session.sessionId session.spec.symbolSizeT.toNat =
        .ok packet → packet.sbn ≠ 0) :
    ∃ reason, onPacket task s message message.sessionId peer = emitIgnored task s reason := by
  unfold onPacket
  split
  · exact ⟨_, rfl⟩
  · next session hsession =>
    split
    · exact ⟨_, rfl⟩
    · next hid =>
      split
      · exact ⟨_, rfl⟩
      · split
        · exact ⟨_, rfl⟩
        · next packet hpacket =>
          have hsbn := h session packet hsession (Decidable.not_not.mp hid) hpacket
          split
          · next hnone =>
            rw [hinv.together.mpr hnone] at hsession
            cases hsession
          · next decoder hdecoder =>
            -- the protocol layer takes any block number, the decoder only block 0
            have hrefused : ¬ decoder.WellFormed packet := fun hwell => hsbn hwell.1
            obtain ⟨e, he⟩ := TransferDecoderImpl.addPacket_rejects hrefused
            rw [he]
            exact ⟨_, rfl⟩

theorem step_unheard {bytes : Bytes} {peer : SocketAddr} (h : heard (.datagram bytes peer) = none) :
    step task s (.datagram bytes peer) = emitIgnored task s .malformed := by
  simp only [heard] at h
  split at h
  · next hdecode => simp only [step, recvDatagramTimeout, hdecode]
  · cases h

/-- A message is ignored when it is neither admitted metadata nor a packet of block 0
of the session. -/
theorem step_ignored {arrival : Arrival} {message : WireMessage} {peer : SocketAddr}
    (hheard : heard arrival = some (message, peer))
    (hmeta : ∀ spec, specFromSessionMeta message = .ok spec → ¬ Admits task s message.sessionId)
    (hinv : RecvInv task s)
    (hpacket : ∀ session packet, s.session = some session → session.sessionId = message.sessionId →
      transferPacketFromMessage message session.sessionId session.spec.symbolSizeT.toNat =
        .ok packet → packet.sbn ≠ 0) :
    ∃ reason, step task s arrival = emitIgnored task s reason := by
  rw [step_of_heard hheard]
  cases message with
  | sessionMeta => exact onSessionMeta_ignored hmeta
  | packet => exact onPacket_ignored hinv hpacket

theorem Ignorable.ignored {arrival : Arrival} {arrivals : List Arrival}
    (h : Ignorable p s arrival) (hinv : RecvInv task s)
    (hpin : Pinned p task s (arrival :: arrivals)) :
    ∃ reason, step task s arrival = emitIgnored task s reason := by
  cases h with
  | malformed hnone => exact ⟨_, step_unheard hnone⟩
  | @foreign _ message peer hheard hforeign =>
    refine step_ignored hheard (fun spec hspec hadmits => hforeign ?_) hinv
      fun session _ hsession hid _ => absurd (hid ▸ hpin.session session hsession) hforeign
    have hannounces : Announces arrival ⟨message.sessionId, spec⟩ :=
      ⟨message, peer, hheard, rfl, hspec⟩
    exact hpin.of_admits hannounces hadmits
  | wrongVersion hheard hversion =>
    refine step_ignored hheard (fun spec hspec => absurd ?_ hversion) hinv
      fun _ _ _ _ hpacket => absurd ?_ hversion
    · obtain ⟨_, _, _, _, _, rfl, _⟩ := specFromSessionMeta_eq_ok.mp hspec
      rfl
    · obtain ⟨_, rfl, _⟩ := transferPacketFromMessage_eq_ok.mp hpacket
      rfl
  | unknownCodec hheard hQ h10 =>
    refine step_ignored hheard (fun spec hspec _ => ?_) hinv fun _ _ _ _ hpacket => nomatch hpacket
    obtain ⟨_, _, _, _, _, heq, hkind, _⟩ := specFromSessionMeta_eq_ok.mp hspec
    cases heq
    rcases codecKindFromWire_eq_ok.mp hkind with ⟨rfl, _⟩ | ⟨rfl, _⟩
    · exact hQ rfl
    · exact h10 rfl
  | wrongBlock hheard hsbn =>
    refine step_ignored hheard (fun _ hspec => nomatch hspec) hinv fun _ packet _ _ hpacket => ?_
    obtain ⟨_, heq, _⟩ := transferPacketFromMessage_eq_ok.mp hpacket
    cases heq
    exact hsbn
  | wrongLength hheard hsession hlength =>
    refine step_ignored hheard (fun _ hspec => nomatch hspec) hinv
      fun session packet hactive _ hpacket => absurd ?_ hlength
    obtain ⟨_, heq, hsize, _⟩ := transferPacketFromMessage_eq_ok.mp hpacket
    cases heq
    cases hsession.symm.trans hactive
    exact hsize
  | beforeSession hheard hnone =>
    refine step_ignored hheard (fun _ hspec => nomatch hspec) hinv fun _ _ hsession => ?_
    cases hnone.symm.trans hsession

/-! ## Receivers that differ in what they ignored -/

/-- Equal but for the counter of ignored datagrams. -/
structure Alike (s s' : RecvState eng) : Prop where
  session : s'.session = s.session
  decoder : s'.decoder = s.decoder
  packets : s'.packetsReceived = s.packetsReceived
  bytes : s'.bytesReceived = s.bytesReceived

/-- Tasks that differ in the expected session id only. -/
structure SameTask (task task' : RecvTask) : Prop where
  timeout : task'.config.recvTimeout = task.config.recvTimeout
  progress : task'.progress = task.progress
  listenAddr : task'.listenAddr = task.listenAddr

theorem report_filter (task : RecvTask) (event : ProgressEvent) :
    (task.report event).filter accepted = if accepted event then task.report event else [] := by
  unfold RecvTask.report
  split <;> simp [List.filter_cons]

theorem SameTask.report (h : SameTask task task') (event : ProgressEvent) :
    task'.report event = task.report event := by
  simp only [RecvTask.report, h.progress]

theorem emitIgnored_observed (task : RecvTask) (s : RecvState eng) (reason : IgnoredDatagramReason) :
    observed accepted (emitIgnored task s reason) = ([], none) := by
  simp [observed, emitIgnored, report_filter, accepted]

theorem emitIgnored_agree (h : Alike s s') (reason reason' : IgnoredDatagramReason) :
    Agree accepted Alike (emitIgnored task s reason) (emitIgnored task' s' reason') := by
  refine ⟨?_, fun _ => ⟨h.session, h.decoder, h.packets, h.bytes⟩⟩
  rw [emitIgnored_observed, emitIgnored_observed]

theorem panicked_agree (h : Alike s s') (panic : Panic) :
    Agree accepted Alike (panicked s panic) (panicked s' panic) :=
  ⟨rfl, fun _ => h⟩

theorem establish_agree (h : SameTask task task') {session : SessionParams}
    {decoder : TransferDecoderImpl eng} (ht : 0 < session.spec.symbolSizeT.toNat) :
    Agree accepted Alike (establish task s session decoder) (establish task' s' session decoder) := by
  rw [establish_eq ht, establish_eq ht, h.report]
  exact ⟨rfl, fun _ => ⟨rfl, rfl, rfl, rfl⟩⟩

theorem accept_agree (htask : SameTask task task') (h : Alike s s') {session : SessionParams}
    {decoder : TransferDecoderImpl eng} {status : DecodeStatus} {packet : TransferPacket}
    {peer : SocketAddr} (ht : 0 < session.spec.symbolSizeT.toNat) :
    Agree accepted Alike (accept task s session decoder status packet peer)
      (accept task' s' session decoder status packet peer) := by
  refine ⟨?_, fun _ => ?_⟩
  · simp only [observed, accept, expectedSourceSymbols_eq ht, h.packets, h.bytes, htask.report,
      htask.listenAddr]
    split
    · split <;> rfl
    · rfl
  · rw [accept_state ht, accept_state ht]
    exact ⟨h.session, rfl, congrArg (· + 1) h.packets, by simp only [RecvState.advanced, h.bytes]⟩

theorem Pinned.admits {arrivals : List Arrival} {sessionId : UInt64}
    (h : Pinned p task s arrivals) (hid : some sessionId = p) : Admits task s sessionId :=
  ⟨fun expected he => Option.some.inj (hid.trans (h.expected expected he).symm),
    fun session hsession => Option.some.inj ((h.session session hsession).trans hid.symm)⟩

/-- A receiver with a session is pinned to it. -/
theorem Pinned.of_active {session : SessionParams} (hinv : RecvInv task s)
    (hactive : s.session = some session) (arrivals : List Arrival) :
    Pinned (some session.sessionId) task s arrivals where
  session other hother := by
    cases hactive.symm.trans hother
    rfl
  expected expected hexpected := by rw [hinv.expected hactive hexpected]
  first hnone := by cases hactive.symm.trans hnone

theorem onSessionMeta_admitted {message : WireMessage} {sessionId : UInt64}
    (h : Admits task s sessionId) :
    onSessionMeta task s message sessionId =
      match specFromSessionMeta message with
      | .error e => emitIgnored task s (reasonForProtocolError e)
      | .ok spec =>
        match TransferDecoderImpl.new eng spec with
        | .error panic => panicked s panic
        | .ok (.error _) => emitIgnored task s .invalidSessionMetadata
        | .ok (.ok decoder) => establish task s ⟨sessionId, spec⟩ decoder := by
  have hactive : ¬ s.session.any (·.sessionId ≠ sessionId) = true := by
    cases hs : s.session with
    | none => simp
    | some session => simp [h.2 session hs]
  exact (if_neg (any_ne_eq_false.mpr h.1)).trans (if_neg hactive)

theorem onPacket_admitted {message : WireMessage} {sessionId : UInt64} {peer : SocketAddr}
    {session : SessionParams} {decoder : TransferDecoderImpl eng} (h : Admits task s sessionId)
    (hsession : s.session = some session) (hdecoder : s.decoder = some decoder) :
    onPacket task s message sessionId peer =
      match transferPacketFromMessage message session.sessionId session.spec.symbolSizeT.toNat with
      | .error e => emitIgnored task s (reasonForProtocolError e)
      | .ok packet =>
        match decoder.addPacket packet with
        | .error panic => panicked s panic
        | .ok (.error _) => emitIgnored task s .invalidPacket
        | .ok (.ok (decoder, status)) => accept task s session decoder status packet peer := by
  simp only [onPacket, hsession, hdecoder]
  exact (if_neg (not_not_intro (h.2 session hsession))).trans (if_neg (any_ne_eq_false.mpr h.1))

theorem onSessionMeta_agree (htask : SameTask task task') (h : Alike s s') {message : WireMessage}
    {sessionId : UInt64} (hadmits : Admits task s sessionId) (hadmits' : Admits task' s' sessionId) :
    Agree accepted Alike (onSessionMeta task s message sessionId)
      (onSessionMeta task' s' message sessionId) := by
  rw [onSessionMeta_admitted hadmits, onSessionMeta_admitted hadmits']
  split
  · exact emitIgnored_agree h _ _
  · next spec hspec =>
    have ht : 0 < spec.symbolSizeT.toNat := by
      obtain ⟨_, _, f, t, kind, _, _, _, ht, rfl⟩ := specFromSessionMeta_eq_ok.mp hspec
      simpa using ht
    split
    · exact panicked_agree h _
    · exact emitIgnored_agree h _ _
    · exact establish_agree htask ht

theorem onPacket_agree (htask : SameTask task task') (h : Alike s s') (hinv : RecvInv task s)
    {message : WireMessage} {sessionId : UInt64} {peer : SocketAddr}
    (hadmits : Admits task s sessionId) (hadmits' : Admits task' s' sessionId) :
    Agree accepted Alike (onPacket task s message sessionId peer)
      (onPacket task' s' message sessionId peer) := by
  cases hsession : s.session with
  | none =>
    simp only [onPacket, h.session, hsession]
    exact emitIgnored_agree h _ _
  | some session =>
    cases hdecoder : s.decoder with
    | none => rw [hinv.together.mpr hdecoder] at hsession; cases hsession
    | some decoder =>
      rw [onPacket_admitted hadmits hsession hdecoder,
        onPacket_admitted hadmits' (h.session.trans hsession) (h.decoder.trans hdecoder)]
      split
      · exact emitIgnored_agree h _ _
      · split
        · exact panicked_agree h _
        · exact emitIgnored_agree h _ _
        · exact accept_agree htask h (hinv.dimensions hsession).2.1

/-- Two receivers pinned to one id do the same with an arrival, whichever of them was
told the id. -/
theorem step_agree (htask : SameTask task task') (h : Alike s s') (hinv : RecvInv task s)
    (hinv' : RecvInv task' s') {arrival : Arrival} {arrivals : List Arrival}
    (hpin : Pinned p task s (arrival :: arrivals))
    (hpin' : Pinned p task' s' (arrival :: arrivals)) :
    Agree accepted Alike (step task s arrival) (step task' s' arrival) := by
  match hheard : heard arrival with
  | some (message, peer) =>
    by_cases hid : some message.sessionId = p
    · rw [step_of_heard hheard, step_of_heard hheard]
      cases message with
      | sessionMeta => exact onSessionMeta_agree htask h (hpin.admits hid) (hpin'.admits hid)
      | packet => exact onPacket_agree htask h hinv (hpin.admits hid) (hpin'.admits hid)
    · obtain ⟨reason, hstep⟩ := Ignorable.ignored (.foreign hheard hid) hinv hpin
      obtain ⟨reason', hstep'⟩ := Ignorable.ignored (.foreign hheard hid) hinv' hpin'
      rw [hstep, hstep']
      exact emitIgnored_agree h _ _
  | none =>
    cases arrival with
    | datagram bytes peer =>
      rw [step_unheard hheard, step_unheard hheard]
      exact emitIgnored_agree h _ _
    | nothing =>
      simp only [step, recvDatagramTimeout, htask.timeout]
      exact ⟨rfl, fun _ => h⟩
    | failure e => exact ⟨rfl, fun _ => h⟩

/-! ## Whole runs -/

/-- Admitted metadata starts a session, unless its scheme does not exist. -/
theorem step_announced {arrival : Arrival} {session : SessionParams}
    (hannounces : Announces arrival session) (hadmits : Admits task s session.sessionId) :
    (∃ panic, TransferDecoderImpl.new eng session.spec = .error panic ∧
      step task s arrival = panicked s panic) ∨
    (∃ decoder, TransferDecoderImpl.new eng session.spec = .ok (.ok decoder) ∧
      step task s arrival = establish task s session decoder) := by
  obtain ⟨hf, ht, _⟩ := hannounces.dimensions
  obtain ⟨message, peer, hheard, hid, hspec⟩ := hannounces
  obtain ⟨sessionId, spec⟩ := session
  subst hid
  have hmeta : step task s arrival = onSessionMeta task s message message.sessionId := by
    rw [step_of_heard hheard]
    cases message with
    | sessionMeta => rfl
    | packet => cases hspec
  rw [hmeta, onSessionMeta_admitted hadmits, hspec]
  dsimp only
  match hnew : TransferDecoderImpl.new eng spec with
  | .error panic => exact .inl ⟨panic, rfl, rfl⟩
  | .ok (.error e) => exact absurd hnew (TransferDecoderImpl.new_ne_error hf ht e)
  | .ok (.ok decoder) => exact .inr ⟨decoder, rfl, rfl⟩

theorem Effect.session {arrival : Arrival} {out : RecvOut eng} (he : Effect task s arrival out)
    (h : RecvInv task s) :
    out.state.session = s.session ∨
      ∃ session, Announces arrival session ∧ Admits task s session.sessionId ∧
        out.state.session = some session := by
  cases he with
  | ended _ => exact .inl rfl
  | ignored _ => exact .inl rfl
  | noDecoder _ _ => exact .inl rfl
  | noScheme _ _ _ => exact .inl rfl
  | established hannounces hadmits _ =>
    rw [establish_eq hannounces.dimensions.2.1]
    exact .inr ⟨_, hannounces, hadmits, rfl⟩
  | notTaken _ _ _ _ => exact .inl rfl
  | accepted hsession _ _ _ =>
    rw [accept_state (h.dimensions hsession).2.1]
    exact .inl rfl

theorem Pinned.next {arrival : Arrival} {arrivals : List Arrival} (hinv : RecvInv task s)
    (h : Pinned p task s (arrival :: arrivals)) (hgo : (step task s arrival).halt = none) :
    Pinned p task (step task s arrival).state arrivals where
  session session' hsession' := by
    rcases (step_effect task s arrival).session hinv with hsame | ⟨session, hannounces, hadmits, hnew⟩
    · exact h.session session' (hsame.symm.trans hsession')
    · cases hnew.symm.trans hsession'
      exact h.of_admits hannounces hadmits
  expected := h.expected
  first hnone hexpected := by
    -- a session never ends, and the first metadata would have started one
    have hidle : s.session = none := by
      rcases (step_effect task s arrival).session hinv with hsame | ⟨session, _, _, hnew⟩
      · exact hsame.symm.trans hnone
      · cases hnew.symm.trans hnone
    cases hann : announced arrival with
    | none => rw [← firstAnnounced_cons_of_none hann]; exact h.first hidle hexpected
    | some session =>
      have hadmits : Admits task s session.sessionId := by
        simp [Admits, hidle, hexpected]
      have hannounces := announced_eq_some.mp hann
      rcases step_announced hannounces hadmits with ⟨panic, _, hstep⟩ | ⟨decoder, _, hstep⟩
      · rw [hstep] at hgo
        cases hgo
      · rw [hstep, establish_eq hannounces.dimensions.2.1] at hnone
        cases hnone

/-- Metadata of the pinned id is never ignorable when it is acceptable. -/
theorem Ignorable.ne_of_announces {arrival : Arrival} {session : SessionParams}
    (h : Ignorable p s arrival) (hannounces : Announces arrival session) :
    some session.sessionId ≠ p := by
  obtain ⟨message, peer, hheard, hid, hspec⟩ := hannounces
  obtain ⟨_, _, _, _, _, hmessage, hkind, _⟩ := specFromSessionMeta_eq_ok.mp hspec
  cases h with
  | malformed hnone => rw [hnone] at hheard; cases hheard
  | foreign hheard' hforeign =>
    cases hheard.symm.trans hheard'
    exact hid ▸ hforeign
  | wrongVersion hheard' hversion =>
    cases hheard.symm.trans hheard'
    exact absurd (hmessage ▸ rfl) hversion
  | unknownCodec hheard' hQ h10 =>
    cases hheard.symm.trans hheard'
    cases hmessage
    rcases codecKindFromWire_eq_ok.mp hkind with ⟨rfl, _⟩ | ⟨rfl, _⟩
    · exact absurd rfl hQ
    · exact absurd rfl h10
  | wrongBlock hheard' _ => cases hheard.symm.trans hheard'; cases hmessage
  | wrongLength hheard' _ _ => cases hheard.symm.trans hheard'; cases hmessage
  | beforeSession hheard' _ => cases hheard.symm.trans hheard'; cases hmessage

/-- Without an ignorable arrival, the same metadata comes first. -/
theorem Ignorable.firstAnnounced {arrival : Arrival} {arrivals : List Arrival}
    (h : Ignorable p s arrival) (hfirst : firstAnnounced (arrival :: arrivals) = p) :
    firstAnnounced arrivals = p := by
  cases hann : announced arrival with
  | none => rw [← firstAnnounced_cons_of_none hann]; exact hfirst
  | some session =>
    rw [firstAnnounced_cons_of_some hann] at hfirst
    exact absurd hfirst (h.ne_of_announces (announced_eq_some.mp hann))

theorem Pinned.drop {arrival : Arrival} {arrivals : List Arrival}
    (h : Pinned p task s (arrival :: arrivals)) (hignorable : Ignorable p s' arrival) :
    Pinned p task s arrivals where
  session := h.session
  expected := h.expected
  first hnone hexpected := hignorable.firstAnnounced (h.first hnone hexpected)

/-- Two receivers on the way through their inputs: alike, and pinned to one id. -/
structure Paired (p : Option UInt64) (task task' : RecvTask) (s s' : RecvState eng)
    (arrivals : List Arrival) : Prop where
  alike : Alike s s'
  inv : RecvInv task s
  inv' : RecvInv task' s'
  pinned : Pinned p task s arrivals
  pinned' : Pinned p task' s' arrivals

theorem Paired.keep (htask : SameTask task task') {arrival : Arrival} {arrivals : List Arrival}
    (h : Paired p task task' s s' (arrival :: arrivals)) :
    Agree accepted (fun t t' => Paired p task task' t t' arrivals) (step task s arrival)
      (step task' s' arrival) := by
  obtain ⟨hobs, halike⟩ := step_agree htask h.alike h.inv h.inv' h.pinned h.pinned'
  refine ⟨hobs, fun hgo => ?_⟩
  have hgo' : (step task' s' arrival).halt = none := (congrArg Prod.snd hobs).symm.trans hgo
  exact ⟨halike hgo, (step_effect task s arrival).preserves h.inv,
    (step_effect task' s' arrival).preserves h.inv', h.pinned.next h.inv hgo,
    h.pinned'.next h.inv' hgo'⟩

/-- Whether a datagram is ignorable is the same for alike receivers. -/
theorem Ignorable.of_alike (h : Alike s s') {arrival : Arrival} (hi : Ignorable p s' arrival) :
    Ignorable p s arrival := by
  cases hi with
  | malformed hnone => exact .malformed hnone
  | foreign hheard hforeign => exact .foreign hheard hforeign
  | wrongVersion hheard hversion => exact .wrongVersion hheard hversion
  | unknownCodec hheard hQ h10 => exact .unknownCodec hheard hQ h10
  | wrongBlock hheard hsbn => exact .wrongBlock hheard hsbn
  | wrongLength hheard hsession hlength => exact .wrongLength hheard (h.session ▸ hsession) hlength
  | beforeSession hheard hnone => exact .beforeSession hheard (h.session ▸ hnone)

theorem Paired.drop {arrival : Arrival} {arrivals : List Arrival}
    (h : Paired p task task' s s' (arrival :: arrivals))
    (hignorable : Ignorable p s arrival ∨ Ignorable p s' arrival) :
    observed accepted (step task s arrival) = ([], none) ∧
      Paired p task task' (step task s arrival).state s' arrivals := by
  have hi : Ignorable p s arrival := hignorable.elim id (.of_alike h.alike)
  obtain ⟨reason, hstep⟩ := hi.ignored h.inv h.pinned
  rw [hstep]
  exact ⟨emitIgnored_observed task s reason,
    ⟨h.alike.session, h.alike.decoder, h.alike.packets, h.alike.bytes⟩, h.inv.ignored reason, h.inv',
    ⟨(h.pinned.drop hi).session, h.pinned.expected, (h.pinned.drop hi).first⟩, h.pinned'.drop hi⟩

/-- `js` is `is` without some ignorable arrivals, for a receiver pinned to `p`. -/
abbrev Purged (p : Option UInt64) (task : RecvTask) :
    RecvState eng → RecvState eng → List Arrival → List Arrival → Prop :=
  Thinned (step task) (step task) (Ignorable p) (Ignorable p)

theorem Pinned.initial (task : RecvTask) (arrivals : List Arrival) :
    Pinned (pinnedId task arrivals) task (RecvState.initial eng) arrivals where
  session _ h := nomatch h
  expected expected h := by simp only [pinnedId, h]
  first _ h := by simp only [pinnedId, h]

theorem SameTask.refl (task : RecvTask) : SameTask task task := ⟨rfl, rfl, rfl⟩

/-- Ignorable arrivals can be left out, from any state on. -/
theorem run_purged {is js : List Arrival} (hinv : RecvInv task s) (hpin : Pinned p task s is)
    (h : Purged p task s s is js) :
    observed accepted (run (step task) s is) = observed accepted (run (step task) s js) := by
  have hpair : Paired p task task s s is := ⟨⟨rfl, rfl, rfl, rfl⟩, hinv, hinv, hpin, hpin⟩
  exact (run_thinned (R := Paired p task task) (fun _ _ _ _ hpair => hpair.keep (.refl task))
    (fun _ _ _ _ hpair => hpair.drop) hpair h).1

theorem firstAnnounced_purged {is js : List Arrival} (h : Purged p task s s' is js)
    (hfirst : firstAnnounced is = p) : firstAnnounced js = p := by
  induction h with
  | nil => exact hfirst
  | @keep s s' arrival is js _ ih =>
    cases hann : announced arrival with
    | some session =>
      rw [firstAnnounced_cons_of_some hann] at hfirst ⊢
      exact hfirst
    | none =>
      rw [firstAnnounced_cons_of_none hann] at hfirst ⊢
      exact ih hfirst
  | drop hignorable _ ih =>
    rcases hignorable with hi | hi <;> exact ih (hi.firstAnnounced hfirst)

theorem pinnedId_purged {is js : List Arrival} (h : Purged (pinnedId task is) task s s' is js) :
    pinnedId task js = pinnedId task is := by
  cases hexpected : task.config.expectedSessionId with
  | some expected => simp only [pinnedId, hexpected]
  | none =>
    have hfirst : firstAnnounced is = pinnedId task is := by simp only [pinnedId, hexpected]
    rw [← firstAnnounced_purged h hfirst]
    simp only [pinnedId, hexpected]

/-! ## Insertions, and a receiver that was told the id -/

theorem pinnedId_append {before : List Arrival} {id : UInt64} (h : pinnedId task before = some id)
    (more : List Arrival) : pinnedId task (before ++ more) = some id := by
  cases hexpected : task.config.expectedSessionId with
  | some expected =>
    simp only [pinnedId, hexpected] at h ⊢
    exact h
  | none =>
    simp only [pinnedId, hexpected, firstAnnounced, Option.map_eq_some_iff] at h ⊢
    obtain ⟨session, hfind, rfl⟩ := h
    exact ⟨session, by simp [List.findSome?_append, hfind], rfl⟩

/-- The invariant and the pin along a run. -/
theorem Pinned.run (hinv : RecvInv task s) {before rest : List Arrival}
    (h : Pinned p task s (before ++ rest)) (hgo : (run (step task) s before).halt = none) :
    RecvInv task (HaltingMachine.run (step task) s before).state ∧
      Pinned p task (HaltingMachine.run (step task) s before).state rest := by
  induction before generalizing s with
  | nil => exact ⟨hinv, h⟩
  | cons arrival before ih =>
    cases hstep : (step task s arrival).halt with
    | some r => rw [run_cons_halt hstep, hstep] at hgo; cases hgo
    | none =>
      rw [run_cons_continue hstep] at hgo ⊢
      exact ih ((step_effect task s arrival).preserves hinv) (h.next hinv hstep) hgo

theorem receive_inserted {before after after' : List Arrival} {id : UInt64}
    (hfixed : pinnedId task before = some id)
    (h : Purged (some id) task (receive eng task before).state (receive eng task before).state
      after' after) :
    observed accepted (receive eng task (before ++ after)) =
      observed accepted (receive eng task (before ++ after')) := by
  cases hgo : (receive eng task before).halt with
  | some r => rw [receive, receive, run_append_of_halt hgo, run_append_of_halt hgo]
  | none =>
    have hpin := @Pinned.initial eng task (before ++ after')
    rw [pinnedId_append hfixed] at hpin
    obtain ⟨hinv, hpin⟩ := hpin.run (.initial task) hgo
    rw [receive, receive, run_append hgo, run_append hgo, observed_after, observed_after]
    rw [run_purged hinv hpin h]

/-- The same task with `expected_session_id = Some(id)`. -/
def RecvTask.expecting (task : RecvTask) (id : UInt64) : RecvTask :=
  { task with config := { task.config with expectedSessionId := some id } }

theorem receive_expecting {arrivals : List Arrival} {id : UInt64}
    (h : pinnedId task arrivals = some id) :
    observed accepted (receive eng task arrivals) =
      observed accepted (receive eng (task.expecting id) arrivals) := by
  have hpin := @Pinned.initial eng task arrivals
  have hpin' := @Pinned.initial eng (task.expecting id) arrivals
  rw [h] at hpin
  have hpair : Paired (some id) task (task.expecting id) (RecvState.initial eng)
      (RecvState.initial eng) arrivals :=
    ⟨⟨rfl, rfl, rfl, rfl⟩, .initial _, .initial _, hpin, hpin'⟩
  have htask : SameTask task (task.expecting id) := ⟨rfl, rfl, rfl⟩
  exact (run_simulates (R := Paired (some id) task (task.expecting id))
    (fun _ _ _ _ hpair => hpair.keep htask) hpair).1

/-- For every configuration and every sequence of arrivals: ignorable datagrams may be
deleted anywhere, and inserted anywhere once the id is fixed, and a receiver that learns
the id does as one that was told it. -/
theorem session_pinning (eng : Engines) (task : RecvTask) :
    (∀ is js, Purged (pinnedId task is) task (RecvState.initial eng) (RecvState.initial eng) is js →
      pinnedId task js = pinnedId task is ∧
      observed accepted (receive eng task is) = observed accepted (receive eng task js)) ∧
    (∀ before after after' id, pinnedId task before = some id →
      Purged (some id) task (receive eng task before).state (receive eng task before).state
        after' after →
      observed accepted (receive eng task (before ++ after)) =
        observed accepted (receive eng task (before ++ after'))) ∧
    (∀ arrivals id, pinnedId task arrivals = some id →
      observed accepted (receive eng task arrivals) =
        observed accepted (receive eng (task.expecting id) arrivals)) :=
  ⟨fun _ _ h => ⟨pinnedId_purged h, run_purged (.initial task) (.initial task _) h⟩,
    fun _ _ _ _ hfixed h => receive_inserted hfixed h, fun _ _ h => receive_expecting h⟩

end

open Repetition in
/-- A malformed datagram before the metadata and a foreign packet after it. -/
theorem pinning_of_noise :
    observed accepted (receive engines openTask
        [.datagram [1, 2, 3] ⟨0, 1⟩, metaQ,
          .datagram (wireCode.encode (.packet 1 8 0 0 [42])) ⟨0, 2⟩]) =
      observed accepted (receive engines openTask [metaQ]) :=
  ((session_pinning engines openTask).1 _ _
    (.drop (.inl (.malformed rfl)) (.keep (.drop (.inl (@Ignorable.foreign _ _ _ _
      (.packet 1 8 0 0 [42]) ⟨0, 2⟩ rfl (by decide))) .nil)))).2

end FountainTransfer
