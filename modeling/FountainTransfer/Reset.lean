import FountainTransfer.Pinning

/-!
# A reset is complete

Metadata that the receiver takes starts it over: nothing received before it influences
what follows, but for the number of ignored datagrams. `reset_complete` compares two
receivers with any histories behind them that take the same metadata frame, and are then
sent the same arrivals.
-/

namespace FountainTransfer

open HaltingMachine

/-- The event without the cumulative number of ignored datagrams. -/
def uncounted : ProgressEvent → ProgressEvent
  | .receiverDatagramIgnored _ reason => .receiverDatagramIgnored 0 reason
  | event => event

/-- The loop takes the arrival as metadata for `session`: it says so, neither the
configuration nor the active session has another id, and the decoder can be built. -/
structure Takes {eng : Engines} (task : RecvTask) (s : RecvState eng) (arrival : Arrival)
    (session : SessionParams) (decoder : TransferDecoderImpl eng) : Prop where
  announces : Announces arrival session
  admits : Admits task s session.sessionId
  builds : TransferDecoderImpl.new eng session.spec = .ok (.ok decoder)

section

variable {eng : Engines} {task : RecvTask} {s s' : RecvState eng}

/-! ## One arrival -/

theorem report_uncounted (n n' : Nat) (reason : IgnoredDatagramReason) :
    (task.report (.receiverDatagramIgnored n reason)).map uncounted =
      (task.report (.receiverDatagramIgnored n' reason)).map uncounted := by
  unfold RecvTask.report
  split <;> rfl

theorem emitIgnored_matches (h : Alike s s') (reason : IgnoredDatagramReason) :
    Matches uncounted Alike (emitIgnored task s reason) (emitIgnored task s' reason) where
  events := report_uncounted _ _ reason
  halt := rfl
  state _ := ⟨h.session, h.decoder, h.packets, h.bytes⟩

theorem panicked_matches (h : Alike s s') (panic : Panic) :
    Matches uncounted Alike (panicked s panic) (panicked s' panic) :=
  ⟨rfl, rfl, fun _ => h⟩

theorem establish_matches (task : RecvTask) (s s' : RecvState eng) (session : SessionParams)
    (decoder : TransferDecoderImpl eng) :
    Matches uncounted Alike (establish task s session decoder)
      (establish task s' session decoder) := by
  unfold establish
  split
  · split
    · exact ⟨rfl, rfl, fun _ => ⟨rfl, rfl, rfl, rfl⟩⟩
    · exact ⟨rfl, rfl, fun _ => ⟨rfl, rfl, rfl, rfl⟩⟩
  · exact ⟨rfl, rfl, fun _ => ⟨rfl, rfl, rfl, rfl⟩⟩

theorem accept_matches (h : Alike s s') (session : SessionParams)
    (decoder : TransferDecoderImpl eng) (status : DecodeStatus) (packet : TransferPacket)
    (peer : SocketAddr) :
    Matches uncounted Alike (accept task s session decoder status packet peer)
      (accept task s' session decoder status packet peer) := by
  have hnext : ∀ bytes, Alike
      { s with decoder := some decoder, packetsReceived := s.packetsReceived + 1, bytesReceived := bytes }
      { s' with decoder := some decoder, packetsReceived := s.packetsReceived + 1, bytesReceived := bytes } :=
    fun _ => ⟨h.session, rfl, rfl, rfl⟩
  unfold accept
  rw [h.packets, h.bytes]
  split
  · exact ⟨rfl, rfl, fun _ => hnext _⟩
  · dsimp only
    split
    · split
      · exact ⟨rfl, rfl, fun _ => hnext _⟩
      · exact ⟨rfl, rfl, fun _ => hnext _⟩
      · exact ⟨rfl, rfl, fun _ => hnext _⟩
    · exact ⟨rfl, rfl, fun _ => hnext _⟩

theorem onSessionMeta_matches (h : Alike s s') (message : WireMessage) (sessionId : UInt64) :
    Matches uncounted Alike (onSessionMeta task s message sessionId)
      (onSessionMeta task s' message sessionId) := by
  unfold onSessionMeta
  rw [h.session]
  split
  · exact emitIgnored_matches h _
  · split
    · exact emitIgnored_matches h _
    · split
      · exact emitIgnored_matches h _
      · split
        · exact panicked_matches h _
        · exact emitIgnored_matches h _
        · exact establish_matches task s s' _ _

theorem onPacket_matches (h : Alike s s') (message : WireMessage) (sessionId : UInt64)
    (peer : SocketAddr) :
    Matches uncounted Alike (onPacket task s message sessionId peer)
      (onPacket task s' message sessionId peer) := by
  unfold onPacket
  rw [h.session, h.decoder]
  split
  · exact emitIgnored_matches h _
  · split
    · exact emitIgnored_matches h _
    · split
      · exact emitIgnored_matches h _
      · split
        · exact emitIgnored_matches h _
        · split
          · exact panicked_matches h _
          · split
            · exact panicked_matches h _
            · exact emitIgnored_matches h _
            · exact accept_matches h _ _ _ _ _

/-- Receivers that differ in the number of ignored datagrams do the same with an
arrival, and differ in nothing more after it. -/
theorem step_matches (h : Alike s s') (arrival : Arrival) :
    Matches uncounted Alike (step task s arrival) (step task s' arrival) := by
  unfold step
  split
  · exact ⟨rfl, rfl, fun _ => h⟩
  · split
    · exact emitIgnored_matches h _
    · next message _ =>
      cases message with
      | sessionMeta => exact onSessionMeta_matches h _ _
      | packet => exact onPacket_matches h _ _ _

/-! ## The metadata both take -/

theorem Takes.step_eq {arrival : Arrival} {session : SessionParams}
    {decoder : TransferDecoderImpl eng} (h : Takes task s arrival session decoder) :
    step task s arrival = establish task s session decoder := by
  rcases step_announced h.announces h.admits with ⟨panic, hnew, _⟩ | ⟨decoder', hnew, hstep⟩
  · cases h.builds.symm.trans hnew
  · cases h.builds.symm.trans hnew
    exact hstep

/-- The metadata alone decides which session and which decoder come of it. -/
theorem Takes.unique {arrival : Arrival} {session session' : SessionParams}
    {decoder decoder' : TransferDecoderImpl eng} (h : Takes task s arrival session decoder)
    (h' : Takes task s' arrival session' decoder') : session' = session ∧ decoder' = decoder := by
  have hsession : session' = session := by
    have hannounced := announced_eq_some.mpr h.announces
    rw [announced_eq_some.mpr h'.announces] at hannounced
    exact Option.some.inj hannounced
  subst hsession
  cases h.builds.symm.trans h'.builds
  exact ⟨rfl, rfl⟩

/-- Seen from outside, an arrival is taken as metadata exactly when the loop goes on with
no packets of its session and counts it as neither ignored nor accepted. -/
theorem takes_iff (hinv : RecvInv task s) {arrival : Arrival} :
    (∃ session decoder, Takes task s arrival session decoder) ↔
      (step task s arrival).halt = none ∧ (step task s arrival).state.packetsReceived = 0 ∧
        (step task s arrival).state.ignoredDatagrams = s.ignoredDatagrams := by
  constructor
  · rintro ⟨session, decoder, h⟩
    rw [h.step_eq, establish_eq h.announces.dimensions.2.1]
    exact ⟨rfl, rfl, rfl⟩
  · rintro ⟨hgo, hpackets, hignored⟩
    have heffect := step_effect task s arrival
    generalize step task s arrival = out at hgo hpackets hignored heffect
    cases heffect with
    | ended _ => cases hgo
    | ignored reason => exact absurd hignored (Nat.succ_ne_self _)
    | noDecoder _ _ => cases hgo
    | noScheme _ _ _ => cases hgo
    | established hannounces hadmits hnew => exact ⟨_, _, hannounces, hadmits, hnew⟩
    | notTaken _ _ _ _ => cases hgo
    | accepted hsession _ _ _ =>
      rw [accept_state (hinv.dimensions hsession).2.1] at hpackets
      exact absurd hpackets (Nat.succ_ne_zero _)

/-- Whatever the two loops did before, after the metadata they are alike. -/
theorem Takes.matches {arrival : Arrival} {session session' : SessionParams}
    {decoder decoder' : TransferDecoderImpl eng} (h : Takes task s arrival session decoder)
    (h' : Takes task s' arrival session' decoder') :
    Matches uncounted Alike (step task s arrival) (step task s' arrival) := by
  obtain ⟨rfl, rfl⟩ := h.unique h'
  rw [h.step_eq, h'.step_eq]
  exact establish_matches task s s' _ _

/-- From the metadata on, the two runs match. -/
theorem Takes.run_matches {arrival : Arrival} {session session' : SessionParams}
    {decoder decoder' : TransferDecoderImpl eng} (h : Takes task s arrival session decoder)
    (h' : Takes task s' arrival session' decoder') (after : List Arrival) :
    Matches uncounted Alike (run (step task) s (arrival :: after))
      (run (step task) s' (arrival :: after)) := by
  have hfirst := h.matches h'
  cases hgo : (step task s arrival).halt with
  | some r =>
    rw [run_cons_halt hgo, run_cons_halt (hfirst.halt.symm.trans hgo)]
    exact hfirst
  | none =>
    rw [run_cons_continue hgo, run_cons_continue (hfirst.halt.symm.trans hgo)]
    exact (HaltingMachine.run_matches (fun _ _ arrival h => step_matches h arrival) after
      (hfirst.state hgo)).after hfirst.events

end

/-- For every task, two histories that have not returned, metadata both receivers take,
and every continuation: both runs end the same way or both still wait, with the same
result; and behind the events of its history each emits the same events, but for the
number of ignored datagrams in them. -/
theorem reset_complete {eng : Engines} {task : RecvTask} {before before' : List Arrival}
    {announcement : Arrival} {session session' : SessionParams}
    {decoder decoder' : TransferDecoderImpl eng}
    (hwait : (receive eng task before).halt = none)
    (hwait' : (receive eng task before').halt = none)
    (h : Takes task (receive eng task before).state announcement session decoder)
    (h' : Takes task (receive eng task before').state announcement session' decoder')
    (after : List Arrival) :
    (receive eng task (before ++ announcement :: after)).halt =
      (receive eng task (before' ++ announcement :: after)).halt ∧
    ∃ events events',
      (receive eng task (before ++ announcement :: after)).events =
        (receive eng task before).events ++ events ∧
      (receive eng task (before' ++ announcement :: after)).events =
        (receive eng task before').events ++ events' ∧
      events.map uncounted = events'.map uncounted := by
  have hmatch := h.run_matches h' after
  unfold receive at *
  rw [run_append hwait, run_append hwait']
  exact ⟨hmatch.halt, _, _, rfl, rfl, hmatch.events⟩

/-- A Raptor10 decoder of four symbols that took source symbol 2. -/
def Repetition.decoder10Two : TransferDecoderImpl Repetition.engines :=
  .raptor10 ⟨⟨4, [(2, [42])]⟩, ⟨4, 1, 4, defaultDmax⟩⟩ Repetition.spec10

open Repetition in
/-- The metadata of `specQ` on a fresh receiver, and on one that was given metadata of
another codec and size, a packet, and a malformed datagram. -/
theorem reset_complete_after_raptor10 :
    (receive engines openTask ([] ++ metaQ :: [.nothing])).halt =
      (receive engines openTask
        ([.datagram (wireCode.encode (sessionMetaFromSpec 7 spec10)) ⟨0, 1⟩,
          .datagram (wireCode.encode (.packet 1 7 0 2 [42])) ⟨0, 1⟩, .datagram [1] ⟨0, 2⟩] ++
        metaQ :: [.nothing])).halt := by
  have hannounces : Announces metaQ ⟨7, specQ⟩ := ⟨_, _, rfl, rfl, rfl⟩
  have hnew : TransferDecoderImpl.new engines specQ = .ok (.ok decoderQ) := rfl
  have hopen : ∀ expected, openTask.config.expectedSessionId = some expected → 7 = expected := by
    rintro _ ⟨⟩
  have hidle : Admits openTask (RecvState.initial engines) 7 := ⟨hopen, by rintro _ ⟨⟩⟩
  have hactive : Admits openTask
      (⟨some ⟨7, spec10⟩, some decoder10Two, 1, 1, 1⟩ : RecvState engines) 7 :=
    ⟨hopen, by rintro _ ⟨⟩; rfl⟩
  exact (reset_complete rfl rfl ⟨hannounces, hidle, hnew⟩ ⟨hannounces, hactive, hnew⟩ [.nothing]).1

end FountainTransfer
