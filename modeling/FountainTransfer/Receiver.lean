import FountainTransfer.Machine
import FountainTransfer.Net

/-!
# The receiver

`receiver.rs`: the receive loop as a `HaltingMachine` that reads one `Arrival` at a time.
`step` has the early exits of the loop body in the order of the source. It halts when
`receive_object_with_socket_impl` returns, or panics.
-/

namespace FountainTransfer

open HaltingMachine

structure RecvConfig where
  recvTimeout : Duration
  expectedSessionId : Option UInt64
deriving DecidableEq, Repr

structure RecvOutcome where
  object : Bytes
  packetsReceived : Nat
  peer : SocketAddr
  listenAddr : SocketAddr
deriving DecidableEq, Repr

/-- What is fixed during one receive: the configuration, whether there is a callback, and
the address of the socket. -/
structure RecvTask where
  config : RecvConfig
  progress : Bool
  listenAddr : SocketAddr

/-- The locals of the loop. -/
structure RecvState (eng : Engines) where
  session : Option SessionParams
  decoder : Option (TransferDecoderImpl eng)
  packetsReceived : Nat
  bytesReceived : Nat
  ignoredDatagrams : Nat

def RecvState.initial (eng : Engines) : RecvState eng := ⟨none, none, 0, 0, 0⟩

/-- How a receive ends: with a result, or with a panic. -/
abbrev RecvEnd := Call (Result NetError RecvOutcome)

abbrev RecvOut (eng : Engines) := Out (RecvState eng) ProgressEvent RecvEnd

def expectedSourceSymbols (spec : TransferSpec) : Call Nat :=
  if spec.symbolSizeT = 0 then .error .divideByZero
  else .ok (divCeil spec.transferLengthF.toNat spec.symbolSizeT.toNat)

def reasonForProtocolError : ProtocolError → IgnoredDatagramReason
  | .unsupportedVersion _ => .unsupportedVersion
  | .unknownCodec _ => .unknownCodec
  | .symbolLengthMismatch _ _ => .invalidPacket
  | .transferCore _ => .invalidSessionMetadata
  | .encode => .malformed

/-- `if let Some(progress) = progress { progress(event) }`. -/
def RecvTask.report (task : RecvTask) (event : ProgressEvent) : List ProgressEvent :=
  if task.progress then [event] else []

section

variable {eng : Engines} (task : RecvTask) (s : RecvState eng)

/-- `emit_ignored`, and `continue`. -/
def emitIgnored (reason : IgnoredDatagramReason) : RecvOut eng :=
  let ignored := s.ignoredDatagrams + 1
  ⟨{ s with ignoredDatagrams := ignored }, task.report (.receiverDatagramIgnored ignored reason),
    none⟩

def panicked (panic : Panic) : RecvOut eng := ⟨s, [], some (.error panic)⟩

/-! ## Session metadata -/

/-- A repeated metadata frame with the active session id starts over: decoder and
counters of the old session are gone. -/
def establish (session : SessionParams) (decoder : TransferDecoderImpl eng) : RecvOut eng :=
  let s : RecvState eng := { s with
    session := some session
    decoder := some decoder
    packetsReceived := 0
    bytesReceived := 0 }
  if task.progress then
    match expectedSourceSymbols session.spec with
    | .error panic => panicked s panic
    | .ok expected =>
      ⟨s, task.report (.receiverSessionEstablished session.sessionId session.spec.transferLengthF
        session.spec.symbolSizeT expected), none⟩
  else ⟨s, [], none⟩

def onSessionMeta (message : WireMessage) (sessionId : UInt64) : RecvOut eng :=
  if task.config.expectedSessionId.any (sessionId ≠ ·) then emitIgnored task s .foreignSession
  else if s.session.any (·.sessionId ≠ sessionId) then emitIgnored task s .foreignSession
  else
    match specFromSessionMeta message with
    | .error e => emitIgnored task s (reasonForProtocolError e)
    | .ok spec =>
      -- the active session is not compared with `spec`: the same id may come with other sizes
      match TransferDecoderImpl.new eng spec with
      | .error panic => panicked s panic
      | .ok (.error _) => emitIgnored task s .invalidSessionMetadata
      | .ok (.ok decoder) => establish task s ⟨sessionId, spec⟩ decoder

/-! ## Packets -/

/-- The rest of the loop body once the decoder took `packet` and answered `status`. -/
def accept (session : SessionParams) (decoder : TransferDecoderImpl eng) (status : DecodeStatus)
    (packet : TransferPacket) (peer : SocketAddr) : RecvOut eng :=
  let packets := s.packetsReceived + 1
  let bytes := saturatingAdd s.bytesReceived packet.symbol.length
  let s : RecvState eng := { s with
    decoder := some decoder
    packetsReceived := packets
    bytesReceived := bytes }
  match expectedSourceSymbols session.spec with
  | .error panic => panicked s panic
  | .ok expected =>
    let percent := decodePercent packets expected (status = .decoded)
    let accepted := task.report (.receiverPacketAccepted packets bytes expected percent)
    if status = .decoded then
      match decoder.recoverObject with
      | .error panic => ⟨s, accepted, some (.error panic)⟩
      | .ok (.error e) => ⟨s, accepted, some (.ok (.error (.core e)))⟩
      | .ok (.ok object) =>
        ⟨s, accepted ++ task.report (.receiverDecodeComplete packets bytes 100),
          some (.ok (.ok ⟨object, packets, peer, task.listenAddr⟩))⟩
    else ⟨s, accepted, none⟩

def onPacket (message : WireMessage) (sessionId : UInt64) (peer : SocketAddr) : RecvOut eng :=
  match s.session with
  | none => emitIgnored task s .beforeSession
  | some session =>
    if session.sessionId ≠ sessionId then emitIgnored task s .foreignSession
    -- checked again, although only metadata of the expected id starts a session
    else if task.config.expectedSessionId.any (sessionId ≠ ·) then
      emitIgnored task s .foreignSession
    else
      match transferPacketFromMessage message session.sessionId
          session.spec.symbolSizeT.toNat with
      | .error e => emitIgnored task s (reasonForProtocolError e)
      | .ok packet =>
        match s.decoder with
        | none => panicked s (.expect "decoder after meta")
        | some decoder =>
          match decoder.addPacket packet with
          | .error panic => panicked s panic
          | .ok (.error _) => emitIgnored task s .invalidPacket
          | .ok (.ok (decoder, status)) => accept task s session decoder status packet peer

/-! ## The loop body -/

def onMessage (message : WireMessage) (peer : SocketAddr) : RecvOut eng :=
  match message with
  | .sessionMeta _ sessionId _ _ _ => onSessionMeta task s message sessionId
  | .packet _ sessionId _ _ _ => onPacket task s message sessionId peer

def step (arrival : Arrival) : RecvOut eng :=
  match recvDatagramTimeout task.config.recvTimeout arrival with
  -- only the socket ends a receive with an error; a bad datagram does not
  | .error e => ⟨s, [], some (.ok (.error e))⟩
  | .ok (datagram, peer) =>
    match decodeMessage datagram with
    | .error _ => emitIgnored task s .malformed
    | .ok message => onMessage task s message peer

end

/-- `receive_object_with_socket_impl` on the arrivals at its socket. -/
def receive (eng : Engines) (task : RecvTask) (arrivals : List Arrival) : RecvOut eng :=
  run (step task) (RecvState.initial eng) arrivals

end FountainTransfer
