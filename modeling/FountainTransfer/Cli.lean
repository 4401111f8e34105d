import FountainTransfer.Printer
import FountainTransfer.Recovery
import FountainTransfer.SessionIds
import FountainTransfer.Transmission

/-!
# The command line

`main.rs` after the arguments are parsed: `fountain send` and `fountain recv`, what they
leave on the host, and how they exit.

1. `send_command`: when `fountain send` succeeds, and what it puts on the wire.
2. `send_default`: without options it succeeds on the files that the engine can encode.
3. `finishRecv_success`: `fountain recv` succeeds exactly when it has received an object and
   could write it.
-/

namespace FountainTransfer

open HaltingMachine

/-! ## Hosts -/

/-- The files of a host by path. `content` is what `std::fs::read` answers. `std::fs::write`
fails for the paths `denied`, with an error, and something is left of the file. -/
structure Files where
  content : String → Result IoError Bytes
  denied : String → Option (IoError × Result IoError Bytes)

/-- `std::fs::write`. -/
def Files.write (files : Files) (path : String) (bytes : Bytes) : Files × Result IoError Unit :=
  match files.denied path with
  | some (error, left) =>
    ({ files with content := Function.update files.content path left }, .error error)
  | none => ({ files with content := Function.update files.content path (.ok bytes) }, .ok ())

/-- What `fountain send` asks of its host: files, the name service, the clock in nanoseconds
since 1970, and a new socket. -/
structure SendHost where
  files : Files
  /-- A `Vec` holds at most `isize::MAX` bytes. -/
  readable : ∀ {path object}, files.content path = .ok object → object.length ≤ isizeMax
  resolve : String → Result IoError (List SocketAddr)
  clock : Option Nat
  bindError : Option IoError
  sendTo : SendTo

/-- `bind` also asks the socket for its address. -/
structure RecvHost where
  files : Files
  bind : String → Result IoError SocketAddr

/-! ## The library on a host -/

/-- `send_object`, with a callback or without: the datagrams go out of a new socket. -/
def sendObject (eng : Engines) (host : SendHost) (object : Bytes) (session : SessionParams)
    (config : SendConfig) (progress : Bool) : SendRun :=
  match host.bindError with
  | some error => ⟨[], [], .ok (.error (.io error))⟩
  | none => sendObjectWithSocketImpl eng host.sendTo object session config progress

def sendFile (eng : Engines) (host : SendHost) (path : String) (session : SessionParams)
    (config : SendConfig) (progress : Bool) : SendRun :=
  match host.files.content path with
  | .error error => ⟨[], [], .ok (.error (.io error))⟩
  | .ok object => sendObject eng host object session config progress

/-- `receive_object`, with a callback or without, on the arrivals at its socket. -/
def receiveObject (eng : Engines) (host : RecvHost) (listen : String) (config : RecvConfig)
    (progress : Bool) (arrivals : List Arrival) : List ProgressEvent × Option RecvEnd :=
  match host.bind listen with
  | .error error => ([], some (.ok (.error (.io error))))
  | .ok listenAddr =>
    let out := receive eng ⟨config, progress, listenAddr⟩ arrivals
    (out.events, out.halt)

def receiveToFile (eng : Engines) (host : RecvHost) (listen output : String) (config : RecvConfig)
    (progress : Bool) (arrivals : List Arrival) : Files × Option RecvEnd :=
  match (receiveObject eng host listen config progress arrivals).2 with
  | some (.ok (.ok outcome)) =>
    match host.files.write output outcome.object with
    | (files, .error error) => (files, some (.ok (.error (.io error))))
    | (files, .ok ()) => (files, some (.ok (.ok outcome)))
  | halt => (host.files, halt)

/-! ## Arguments -/

/-- `Commands::Send`. `delay_ms` only paces the sends. -/
structure SendArgs where
  path : String
  addr : String
  codec : String
  symbolSize : UInt16
  repairCount : Usize
  repairRounds : Usize
  sessionId : Option UInt64
  progress : Bool
  /-- `clap::value_parser!(u16).range(1..)`. -/
  symbolSize_pos : 0 < symbolSize.toNat

/-- `fountain send PATH HOST:PORT`. -/
def SendArgs.default (path addr : String) : SendArgs where
  path := path
  addr := addr
  codec := "raptorq"
  symbolSize := 1400
  repairCount := 256
  repairRounds := 1
  sessionId := none
  progress := false
  symbolSize_pos := by decide

/-- `Commands::Recv`. -/
structure RecvArgs where
  output : String
  listen : String
  sessionId : Option UInt64
  timeoutSecs : UInt64
  progress : Bool
  /-- `clap::value_parser!(u64).range(1..)`. -/
  timeoutSecs_pos : 0 < timeoutSecs.toNat

/-- `fountain recv PATH`. -/
def RecvArgs.default (output : String) : RecvArgs where
  output := output
  listen := "0.0.0.0:7878"
  sessionId := none
  timeoutSecs := 60
  progress := false
  timeoutSecs_pos := by decide

/-! ## Errors and output -/

/-- `resolveAddress` without an error of the system is "address resolved to no endpoints". -/
inductive CliError
  | readInput (path : String) (source : IoError)
  | invalidCodec (name : String)
  | transferSettings (error : TransferError)
  | resolveAddress (addr : String) (source : Option IoError)
  | send (dest : SocketAddr) (source : NetError)
  | receiveTimeout (wait : Duration)
  | receive (listen : String) (source : NetError)
  | writeOutput (path : String) (source : IoError)
deriving DecidableEq, Repr

/-- A line on stderr, by the values it shows. -/
inductive StderrLine
  | sending (bytes : Nat) (path : String) (dest : SocketAddr) (sessionId : UInt64) (codec : String)
      (symbolSize : UInt16)
  | finishedSending (bytes : Nat) (dest : SocketAddr)
  | waiting (listen : String) (timeoutSecs : UInt64) (output : String)
  | received (bytes : Nat) (listenAddr peer : SocketAddr) (packetsReceived : Nat)
  | progress (line : String)
deriving DecidableEq, Repr

/-- How the process ends, with codes 0, 1 and 101. -/
inductive ExitCode
  | success
  | failure
  | panicked
deriving DecidableEq, Repr

/-- `main` on what `run` returned. -/
def exitCode : Call (Result CliError Unit) → ExitCode
  | .ok (.ok ()) => .success
  | .ok (.error _) => .failure
  | .error _ => .panicked

def progressLines (events : List ProgressEvent) : List StderrLine :=
  (ProgressPrinter.default.emitAll events).2.map .progress

/-! ## Sending -/

/-- The error names the codec in lower case. -/
def codecKindFromCli (name : String) : Result String CodecKind :=
  let other := String.ofList (name.toList.map Char.toLower)
  if other = "raptorq" ∨ other = "raptor-q" ∨ other = "rfc6330" then .ok .raptorQ
  else if other = "raptor10" ∨ other = "raptor-10" ∨ other = "rfc5053" then .ok .raptor10
  else .error other

def resolveAddr (host : SendHost) (addr : String) : Result CliError SocketAddr :=
  match host.resolve addr with
  | .error source => .error (.resolveAddress addr (some source))
  | .ok [] => .error (.resolveAddress addr none)
  | .ok (dest :: _) => .ok dest

/-- What is settled before anything is sent. -/
structure Prepared where
  dest : SocketAddr
  object : Bytes
  session : SessionParams

def prepareSend (host : SendHost) (args : SendArgs) : Result CliError Prepared := do
  let codecKind ← (codecKindFromCli args.codec).mapError .invalidCodec
  let dest ← resolveAddr host args.addr
  let object ← (host.files.content args.path).mapError (.readInput args.path)
  let sessionId := args.sessionId.getD (randomSessionId host.clock)
  let session ← (SessionParams.fromFileAndCli sessionId (UInt64.ofNat object.length)
    args.symbolSize.toUInt64 codecKind).mapError .transferSettings
  return ⟨dest, object, session⟩

def SendArgs.config (args : SendArgs) : SendConfig := ⟨args.repairCount, args.repairRounds⟩

/-- What a command leaves behind: the datagrams it sent, its lines, and what it returned. -/
structure SendCommand where
  wire : List Bytes
  stderr : List StderrLine
  result : Call (Result CliError Unit)

/-- `run` for `Commands::Send`. -/
def runSend (eng : Engines) (host : SendHost) (args : SendArgs) : SendCommand :=
  match prepareSend host args with
  | .error e => ⟨[], [], .ok (.error e)⟩
  | .ok ⟨dest, object, session⟩ =>
    let sending := if args.progress then []
      else [.sending object.length args.path dest session.sessionId args.codec args.symbolSize]
    let send := sendObject eng host object session args.config args.progress
    let result := send.result.map (·.mapError (.send dest))
    let finished := if args.progress = false ∧ exitCode result = .success then
      [.finishedSending object.length dest] else []
    ⟨send.wire, sending ++ progressLines send.events ++ finished, result⟩

/-! ## Receiving -/

def mapReceiveError (error : NetError) (listen : String) : CliError :=
  match error with
  | .timeout wait => .receiveTimeout wait
  | source => .receive listen source

def writeOutput (files : Files) (path : String) (object : Bytes) : Files × Result CliError Unit :=
  let written := files.write path object
  (written.1, written.2.mapError (.writeOutput path))

/-- `Duration::from_secs`. -/
def RecvArgs.config (args : RecvArgs) : RecvConfig :=
  ⟨args.timeoutSecs.toNat * 1000000000, args.sessionId⟩

/-- What a command leaves behind; `result = none` while it waits. -/
structure RecvCommand where
  files : Files
  stderr : List StderrLine
  result : Option (Call (Result CliError Unit))

/-- The rest of `run` for `Commands::Recv`, after `receive_object`. -/
def finishRecv (files : Files) (args : RecvArgs) (out : List ProgressEvent × Option RecvEnd) :
    RecvCommand :=
  let lines := .waiting args.listen args.timeoutSecs args.output :: progressLines out.1
  match out.2 with
  | none => ⟨files, lines, none⟩
  | some (.error panic) => ⟨files, lines, some (.error panic)⟩
  | some (.ok (.error e)) => ⟨files, lines, some (.ok (.error (mapReceiveError e args.listen)))⟩
  | some (.ok (.ok outcome)) =>
    match writeOutput files args.output outcome.object with
    | (files, .error e) => ⟨files, lines, some (.ok (.error e))⟩
    | (files, .ok ()) =>
      ⟨files, lines ++ [.received outcome.object.length outcome.listenAddr outcome.peer
        outcome.packetsReceived], some (.ok (.ok ()))⟩

/-- `run` for `Commands::Recv`. -/
def runRecv (eng : Engines) (host : RecvHost) (args : RecvArgs) (arrivals : List Arrival) :
    RecvCommand :=
  finishRecv host.files args
    (receiveObject eng host args.listen args.config args.progress arrivals)

/-! ## How a send ends -/

/-- What the arguments name: a codec, an address, and a file that is not empty. -/
structure Configured (host : SendHost) (args : SendArgs) (codecKind : CodecKind) (dest : SocketAddr)
    (object : Bytes) : Prop where
  codec : codecKindFromCli args.codec = .ok codecKind
  resolves : ∃ more, host.resolve args.addr = .ok (dest :: more)
  reads : host.files.content args.path = .ok object
  nonempty : 0 < object.length

/-- The session of a file. -/
def SendArgs.session (args : SendArgs) (clock : Option Nat) (codecKind : CodecKind)
    (object : Bytes) : SessionParams :=
  ⟨args.sessionId.getD (randomSessionId clock), UInt64.ofNat object.length,
    args.symbolSize.toUInt64, codecKind.defaultConfig⟩

section

variable {eng : Engines} {encode : EncodingMap} {limits : BuildLimits} {host : SendHost}
  {args : SendArgs} {codecKind : CodecKind} {dest : SocketAddr} {object : Bytes} {p : Prepared}

theorem resolveAddr_eq_ok {addr : String} :
    resolveAddr host addr = .ok dest ↔ ∃ more, host.resolve addr = .ok (dest :: more) := by
  unfold resolveAddr
  split
  · next h => simp [h]
  · next h => simp [h]
  · next first more h => simp [h]

theorem length_toNat (h : host.files.content args.path = .ok object) :
    (UInt64.ofNat object.length).toNat = object.length :=
  toNat_ofNat_usize (Nat.le_trans (host.readable h) isizeMax_le_usizeMax)

theorem prepareSend_eq_ok : prepareSend host args = .ok p ↔
    ∃ codecKind, Configured host args codecKind p.dest p.object ∧
      p.session = args.session host.clock codecKind p.object := by
  simp only [prepareSend, bind_eq_ok, mapError_eq_ok, pure_eq_ok, Except.ok.injEq,
    resolveAddr_eq_ok, fromFileAndCli_eq_ok]
  constructor
  · rintro ⟨codecKind, hcodec, dest, hdest, object, hread, session, ⟨hf, _, rfl⟩, rfl⟩
    rw [length_toNat hread] at hf
    exact ⟨codecKind, ⟨hcodec, hdest, hread, hf⟩, rfl⟩
  · rintro ⟨codecKind, ⟨hcodec, hdest, hread, hf⟩, hsession⟩
    refine ⟨codecKind, hcodec, p.dest, hdest, p.object, hread, p.session, ⟨?_, ?_, hsession⟩, rfl⟩
    · rw [length_toNat hread]
      exact hf
    · rw [UInt16.toNat_toUInt64]
      exact args.symbolSize_pos

/-- The session of a file, in the terms of its arguments. -/
theorem Configured.spec (h : Configured host args codecKind dest object) :
    let spec := (args.session host.clock codecKind object).spec
    spec.transferLengthF.toNat = object.length ∧ spec.symbolSizeT.toNat = args.symbolSize.toNat ∧
      spec.codecKind = codecKind ∧ spec.sourceK = divCeil object.length args.symbolSize.toNat := by
  have hf := length_toNat h.reads
  have ht : args.symbolSize.toUInt64.toNat = args.symbolSize.toNat := UInt16.toNat_toUInt64 _
  refine ⟨hf, ht, defaultConfig_kind codecKind, ?_⟩
  show divCeil (UInt64.ofNat object.length).toNat args.symbolSize.toUInt64.toNat = _
  rw [hf, ht]

/-- Every end of a send over a socket that never fails, by the datagrams and the result. -/
inductive SendOutcome (eng : Engines) (limits : BuildLimits) (host : SendHost) (args : SendArgs) :
    List Bytes → Call (Result CliError Unit) → Prop
  | refused {e : CliError} : prepareSend host args = .error e →
      SendOutcome eng limits host args [] (.ok (.error e))
  | unplanned {p : Prepared} {panic : Panic} : prepareSend host args = .ok p →
      ¬ p.session.Plannable limits args.config → SendOutcome eng limits host args [] (.error panic)
  | sent {p : Prepared} {plan : SendPlan} : prepareSend host args = .ok p →
      p.session.Plannable limits args.config →
      sendPlan eng p.object p.session args.config = .ok (.ok plan) →
      args.symbolSize.toNat ≤ 65478 →
      SendOutcome eng limits host args (plan.datagrams p.session) (.ok (.ok ()))
  | tooLarge {p : Prepared} {e : NetError} : prepareSend host args = .ok p →
      p.session.Plannable limits args.config → 65478 < args.symbolSize.toNat →
      SendOutcome eng limits host args [metaFrame p.session] (.ok (.error (.send p.dest e)))

theorem runSend_outcome (faithful : eng.Faithful encode) (encodes : eng.Encodes)
    (builds : eng.Builds limits) (totals : eng.TotalsFit) (args : SendArgs)
    (hbind : host.bindError = none) (hsocket : host.sendTo = sendAlways) :
    SendOutcome eng limits host args (runSend eng host args).wire (runSend eng host args).result := by
  unfold runSend
  split
  · next e hprepare => exact .refused hprepare
  · next dest object session hprepare =>
    rw [sendObject, hbind, hsocket]
    obtain ⟨codecKind, hconfigured, hsession⟩ := prepareSend_eq_ok.mp hprepare
    dsimp only at hconfigured hsession
    subst hsession
    obtain ⟨hlength, ht, _, _⟩ := hconfigured.spec
    have hf := hconfigured.nonempty
    have hpos := args.symbolSize_pos
    have hvalid : validateSpec (args.session host.clock codecKind object).spec = .ok () :=
      validateSpec_eq_ok.mpr ⟨by rw [hlength]; exact hf, by rw [ht]; exact hpos⟩
    have hplannable := @sendPlan_iff _ _ _ _ args.config _ faithful encodes builds totals
      hvalid hlength.symm
    match hplan : sendPlan eng object (args.session host.clock codecKind object) args.config with
    | .error panic =>
      have hnot : ¬ (args.session host.clock codecKind object).Plannable limits args.config := by
        rw [← hplannable, hplan]
        rintro ⟨_, h⟩
        cases h
      simp only [sendObjectWithSocketImpl, hplan]
      exact .unplanned hprepare hnot
    | .ok (.error e) => exact absurd hplan (sendPlan_not_refused hvalid hlength.symm e)
    | .ok (.ok plan) =>
      have hfits := hplannable.mp ⟨plan, hplan⟩
      by_cases hsmall : args.symbolSize.toNat ≤ 65478
      · obtain ⟨hresult, hwire⟩ := sendObject_fits faithful args.progress hplan (by rw [ht]; exact hsmall)
        simp only [hresult, hwire]
        exact @SendOutcome.sent eng limits host args ⟨dest, object, _⟩ plan hprepare hfits hplan hsmall
      · obtain ⟨hwire, hresult⟩ :=
          sendObject_too_large faithful args.progress hplan (by rw [ht]; exact Nat.not_le.mp hsmall)
        simp only [hresult, hwire]
        exact @SendOutcome.tooLarge eng limits host args ⟨dest, object, _⟩ _ hprepare hfits
          (Nat.not_le.mp hsmall)

theorem Configured.unique {codecKind' : CodecKind} {dest' : SocketAddr} {object' : Bytes}
    (h : Configured host args codecKind dest object)
    (h' : Configured host args codecKind' dest' object') :
    codecKind = codecKind' ∧ dest = dest' ∧ object = object' := by
  obtain ⟨_, hdest⟩ := h.resolves
  obtain ⟨_, hdest'⟩ := h'.resolves
  cases h.codec.symm.trans h'.codec
  cases hdest.symm.trans hdest'
  cases h.reads.symm.trans h'.reads
  exact ⟨rfl, rfl, rfl⟩

/-- A command that was prepared is configured, in one way. -/
theorem prepared_configured (h : prepareSend host args = .ok p) :
    ∃ codecKind, p.session = args.session host.clock codecKind p.object ∧
      ∀ {codecKind' dest object}, Configured host args codecKind' dest object ↔
        codecKind' = codecKind ∧ dest = p.dest ∧ object = p.object := by
  obtain ⟨codecKind, hconfigured, hsession⟩ := prepareSend_eq_ok.mp h
  refine ⟨codecKind, hsession, fun {_ _ _} => ⟨fun h' => h'.unique hconfigured, ?_⟩⟩
  rintro ⟨rfl, rfl, rfl⟩
  exact hconfigured

theorem not_configured {e : CliError} (h : prepareSend host args = .error e) :
    ¬ Configured host args codecKind dest object := by
  intro hconfigured
  have hok : prepareSend host args = .ok ⟨dest, object, args.session host.clock codecKind object⟩ :=
    prepareSend_eq_ok.mpr ⟨codecKind, hconfigured, rfl⟩
  cases h.symm.trans hok

/-- Once it is prepared, the command does what `send_file` does. -/
theorem runSend_sendFile (h : prepareSend host args = .ok p) :
    let send := sendFile eng host args.path p.session args.config args.progress
    (runSend eng host args).wire = send.wire ∧
      (runSend eng host args).result = send.result.map (·.mapError (.send p.dest)) := by
  obtain ⟨_, hconfigured, _⟩ := prepareSend_eq_ok.mp h
  rw [runSend, h, sendFile, hconfigured.reads]
  exact ⟨rfl, rfl⟩

/-- A planned transfer has one packet for each source symbol and each repair symbol. -/
theorem planned_length (faithful : eng.Faithful encode) (encodes : eng.Encodes)
    (totals : eng.TotalsFit) (hconfigured : Configured host args codecKind dest object)
    (hplannable : (args.session host.clock codecKind object).Plannable limits args.config)
    {plan : SendPlan}
    (hplan : sendPlan eng object (args.session host.clock codecKind object) args.config =
      .ok (.ok plan)) :
    (plan.datagrams (args.session host.clock codecKind object)).length =
      1 + (divCeil object.length args.symbolSize.toNat +
        args.repairRounds.toNat * args.repairCount.toNat) := by
  obtain ⟨_, _, _, hk⟩ := hconfigured.spec
  obtain ⟨hcarries, _⟩ := plan_packets_sent faithful hplan
  have hbuilds := buildsEncoder_of_plan hplan
  obtain ⟨numTotal, htotal⟩ := hbuilds.exists_numTotal
  have hexplicit := sendPlan_eq faithful encodes totals hcarries hbuilds htotal hplannable.room
  cases hplan.symm.trans hexplicit
  rw [SendPlan.datagrams, SendPlan.packets, List.length_cons, List.length_map, List.length_append,
    List.length_map, List.length_map, List.length_range, List.length_range, hk, Nat.add_comm]
  rfl

/-- For every host whose socket never fails, all files and all arguments that the command
line accepts: `fountain send` succeeds exactly when the codec is known, the address resolves,
the file can be read and is not empty, the transfer can be planned and a symbol fits in a
datagram. It panics exactly when only the plan is at fault: the engine has no encoder for
the number of symbols, or the repair packets are too many for a vector. A send that succeeds
has sent the metadata and every packet, and any other has sent at most the metadata. -/
theorem send_command (faithful : eng.Faithful encode) (encodes : eng.Encodes)
    (builds : eng.Builds limits) (totals : eng.TotalsFit) (args : SendArgs)
    (hbind : host.bindError = none) (hsocket : host.sendTo = sendAlways) :
    let command := runSend eng host args
    (exitCode command.result = .success ↔ ∃ codecKind dest object,
      Configured host args codecKind dest object ∧
        (args.session host.clock codecKind object).Plannable limits args.config ∧
        args.symbolSize.toNat ≤ 65478) ∧
    (exitCode command.result = .panicked ↔ ∃ codecKind dest object,
      Configured host args codecKind dest object ∧
        ¬ (args.session host.clock codecKind object).Plannable limits args.config) ∧
    (∀ codecKind dest object, exitCode command.result = .success →
      Configured host args codecKind dest object →
      command.wire.length = 1 + (divCeil object.length args.symbolSize.toNat +
        args.repairRounds.toNat * args.repairCount.toNat)) ∧
    (exitCode command.result ≠ .success → command.wire.length ≤ 1) := by
  intro command
  have houtcome : SendOutcome eng limits host args command.wire command.result :=
    runSend_outcome faithful encodes builds totals args hbind hsocket
  generalize command.wire = wire, command.result = result at houtcome
  cases houtcome with
  | refused hprepare =>
    have hnone : ∀ codecKind dest object, ¬ Configured host args codecKind dest object :=
      fun _ _ _ => not_configured hprepare
    refine ⟨iff_of_false (fun h => nomatch h) ?_, iff_of_false (fun h => nomatch h) ?_,
      fun _ _ _ h => (nomatch h), fun _ => Nat.zero_le 1⟩
    · rintro ⟨_, _, _, h, _⟩
      exact hnone _ _ _ h
    · rintro ⟨_, _, _, h, _⟩
      exact hnone _ _ _ h
  | @unplanned p panic hprepare hnot =>
    obtain ⟨codecKind, hsession, hconfigured⟩ := prepared_configured hprepare
    rw [hsession] at hnot
    refine ⟨iff_of_false (fun h => nomatch h) ?_, iff_of_true rfl ?_, fun _ _ _ h => (nomatch h),
      fun _ => Nat.zero_le 1⟩
    · rintro ⟨_, _, _, h, hplannable, _⟩
      obtain ⟨rfl, rfl, rfl⟩ := hconfigured.mp h
      exact hnot hplannable
    · exact ⟨codecKind, p.dest, p.object, hconfigured.mpr ⟨rfl, rfl, rfl⟩, hnot⟩
  | @sent p plan hprepare hplannable hplan hsize =>
    obtain ⟨codecKind, hsession, hconfigured⟩ := prepared_configured hprepare
    rw [hsession] at hplannable hplan ⊢
    refine ⟨iff_of_true rfl ?_, iff_of_false (fun h => nomatch h) ?_, ?_, fun h => absurd rfl h⟩
    · exact ⟨codecKind, p.dest, p.object, hconfigured.mpr ⟨rfl, rfl, rfl⟩, hplannable, hsize⟩
    · rintro ⟨_, _, _, h, hnot⟩
      obtain ⟨rfl, rfl, rfl⟩ := hconfigured.mp h
      exact hnot hplannable
    · rintro _ _ _ _ h
      obtain ⟨rfl, rfl, rfl⟩ := hconfigured.mp h
      exact planned_length faithful encodes totals h hplannable hplan
  | @tooLarge p e hprepare hplannable hlarge =>
    obtain ⟨codecKind, hsession, hconfigured⟩ := prepared_configured hprepare
    rw [hsession] at hplannable
    refine ⟨iff_of_false (fun h => nomatch h) ?_, iff_of_false (fun h => nomatch h) ?_,
      fun _ _ _ h => (nomatch h), fun _ => Nat.le_refl 1⟩
    · rintro ⟨_, _, _, _, _, hsmall⟩
      exact absurd hsmall (Nat.not_le.mpr hlarge)
    · rintro ⟨_, _, _, h, hnot⟩
      obtain ⟨rfl, rfl, rfl⟩ := hconfigured.mp h
      exact hnot hplannable

end

/-! ## How a receive ends -/

section

variable {files : Files} {args : RecvArgs} {events : List ProgressEvent} {halt : Option RecvEnd}

theorem write_other {path other : String} {bytes : Bytes} (h : other ≠ path) :
    (files.write path bytes).1.content other = files.content other := by
  unfold Files.write
  split <;> exact Function.update_of_ne h ..

theorem write_allowed {path : String} {bytes : Bytes} (h : files.denied path = none) :
    files.write path bytes =
      ({ files with content := Function.update files.content path (.ok bytes) }, .ok ()) := by
  rw [Files.write, h]

theorem write_denied {path : String} {bytes : Bytes} {error : IoError} {left : Result IoError Bytes}
    (h : files.denied path = some (error, left)) : files.write path bytes =
      ({ files with content := Function.update files.content path left }, .error error) := by
  rw [Files.write, h]

def RecvCommand.exit (command : RecvCommand) : Option ExitCode := command.result.map exitCode

theorem finishRecv_outcome (outcome : RecvOutcome) :
    let command := finishRecv files args (events, some (.ok (.ok outcome)))
    command.files = (files.write args.output outcome.object).1 ∧
      command.result =
        some (.ok ((files.write args.output outcome.object).2.mapError (.writeOutput args.output))) := by
  intro command
  dsimp only [command, finishRecv, writeOutput]
  generalize files.write args.output outcome.object = written
  match written with
  | (_, .error e) => exact ⟨rfl, rfl⟩
  | (_, .ok ()) => exact ⟨rfl, rfl⟩

/-- Nothing is written before an object is received. -/
theorem finishRecv_unreceived (h : ∀ outcome, halt ≠ some (.ok (.ok outcome))) :
    (finishRecv files args (events, halt)).files = files ∧
      (finishRecv files args (events, halt)).exit ≠ some .success := by
  match halt with
  | none => exact ⟨rfl, fun h => nomatch h⟩
  | some (.error panic) => exact ⟨rfl, fun h => nomatch h⟩
  | some (.ok (.error e)) => exact ⟨rfl, fun h => nomatch h⟩
  | some (.ok (.ok outcome)) => exact absurd rfl (h outcome)

theorem finishRecv_success : (finishRecv files args (events, halt)).exit = some .success ↔
    (∃ outcome, halt = some (.ok (.ok outcome))) ∧ files.denied args.output = none := by
  by_cases hreceived : ∃ outcome, halt = some (.ok (.ok outcome))
  · obtain ⟨outcome, rfl⟩ := hreceived
    rw [RecvCommand.exit, (finishRecv_outcome outcome).2]
    match hdenied : files.denied args.output with
    | none =>
      rw [write_allowed hdenied]
      exact iff_of_true rfl ⟨⟨outcome, rfl⟩, rfl⟩
    | some (error, left) =>
      rw [write_denied hdenied]
      exact iff_of_false (fun h => nomatch h) fun h => nomatch h.2
  · refine iff_of_false ?_ fun h => hreceived h.1
    exact (finishRecv_unreceived fun outcome h => hreceived ⟨outcome, h⟩).2

/-- Files other than the output stay as they are, and a failed receive that is not a failed
write leaves the output as well. -/
theorem finishRecv_files (h : (finishRecv files args (events, halt)).exit ≠ some .success) :
    (finishRecv files args (events, halt)).files = files ∨
      ∃ source, (finishRecv files args (events, halt)).result =
        some (.ok (.error (.writeOutput args.output source))) := by
  by_cases hreceived : ∃ outcome, halt = some (.ok (.ok outcome))
  · obtain ⟨outcome, rfl⟩ := hreceived
    match hdenied : files.denied args.output with
    | none => exact absurd (finishRecv_success.mpr ⟨⟨outcome, rfl⟩, hdenied⟩) h
    | some (error, left) =>
      refine .inr ⟨error, ?_⟩
      rw [(finishRecv_outcome outcome).2, write_denied hdenied]
      rfl
  · exact .inl (finishRecv_unreceived fun outcome h => hreceived ⟨outcome, h⟩).1

theorem finishRecv_other {path : String} (h : path ≠ args.output) :
    (finishRecv files args (events, halt)).files.content path = files.content path := by
  by_cases hreceived : ∃ outcome, halt = some (.ok (.ok outcome))
  · obtain ⟨outcome, rfl⟩ := hreceived
    rw [(finishRecv_outcome outcome).1]
    exact write_other h
  · rw [(finishRecv_unreceived fun outcome h => hreceived ⟨outcome, h⟩).1]

/-- The command leaves the files that `receive_to_file` leaves, and succeeds when it does. -/
theorem runRecv_receiveToFile {eng : Engines} {host : RecvHost} {arrivals : List Arrival} :
    let receive := receiveToFile eng host args.listen args.output args.config args.progress arrivals
    (runRecv eng host args arrivals).files = receive.1 ∧
      ((runRecv eng host args arrivals).exit = some .success ↔
        ∃ outcome, receive.2 = some (.ok (.ok outcome))) := by
  intro received
  simp only [runRecv, received, receiveToFile]
  generalize receiveObject eng host args.listen args.config args.progress arrivals = ended
  obtain ⟨events, halt⟩ := ended
  rw [finishRecv_success]
  match halt with
  | none => exact ⟨rfl, iff_of_false (fun ⟨⟨_, h⟩, _⟩ => nomatch h) fun ⟨_, h⟩ => nomatch h⟩
  | some (.error _) => exact ⟨rfl, iff_of_false (fun ⟨⟨_, h⟩, _⟩ => nomatch h) fun ⟨_, h⟩ => nomatch h⟩
  | some (.ok (.error _)) =>
    exact ⟨rfl, iff_of_false (fun ⟨⟨_, h⟩, _⟩ => nomatch h) fun ⟨_, h⟩ => nomatch h⟩
  | some (.ok (.ok outcome)) =>
    rw [(finishRecv_outcome outcome).1]
    match hdenied : host.files.denied args.output with
    | none =>
      simp only [write_allowed hdenied]
      exact ⟨trivial, iff_of_true ⟨⟨outcome, rfl⟩, trivial⟩ ⟨outcome, rfl⟩⟩
    | some (error, left) =>
      simp only [write_denied hdenied]
      exact ⟨trivial, iff_of_false (fun h => nomatch h.2) fun ⟨_, h⟩ => nomatch h⟩

end

/-! ## Without options -/

theorem divCeil_le_iff {f t k : Nat} (ht : 0 < t) : divCeil f t ≤ k ↔ f ≤ k * t := by
  constructor
  · exact fun h => Nat.le_trans (le_divCeil_mul ht) (Nat.mul_le_mul_right t h)
  · intro h
    rcases Nat.eq_zero_or_pos f with rfl | hf
    · exact Nat.le_trans (divCeil_le 0 t) (Nat.zero_le k)
    · have hlast := Nat.lt_of_lt_of_le (divCeil_pred_mul_lt hf ht) h
      have hpred := Nat.lt_of_mul_lt_mul_right hlast
      omega

section

variable {eng : Engines} {encode : EncodingMap} {limits : BuildLimits} {host : SendHost}
  {path addr : String} {dest : SocketAddr} {object : Bytes}

theorem default_codec : codecKindFromCli (SendArgs.default path addr).codec = .ok .raptorQ :=
  if_pos (.inl (show String.ofList ("raptorq".toList.map Char.toLower) = "raptorq" by decide))

/-- What the engine can encode is within the documented range. -/
theorem default_builds (ranges : eng.DocumentedRanges) (builds : eng.Builds limits)
    (h : Configured host (SendArgs.default path addr) .raptorQ dest object)
    (hencodable :
      limits.encoder CodecKind.raptorQ.defaultConfig (divCeil object.length 1400) 1400) :
    eng.BuildsEncoder ((SendArgs.default path addr).session host.clock .raptorQ object).spec object ∧
      object.length ≤ 78964200 := by
  obtain ⟨hlength, ht, hkind, hk⟩ := h.spec
  have hf : 0 <
      ((SendArgs.default path addr).session host.clock .raptorQ object).spec.transferLengthF.toNat :=
    hlength ▸ h.nonempty
  have hpos : 0 <
      ((SendArgs.default path addr).session host.clock .raptorQ object).spec.symbolSizeT.toNat :=
    ht ▸ (SendArgs.default path addr).symbolSize_pos
  have hbuilds : eng.BuildsEncoder
      ((SendArgs.default path addr).session host.clock .raptorQ object).spec object := by
    refine (builds.encoder_iff hpos hlength.symm).mpr ?_
    rw [hk, ht]
    exact hencodable
  have hsupports := (ranges.numTotal_iff (sourceK_pos hf hpos)).mp hbuilds.exists_numTotal
  rw [hkind, hk] at hsupports
  have hle : object.length ≤ 56403 * 1400 := (divCeil_le_iff (by decide)).mp hsupports
  exact ⟨hbuilds, hle⟩

/-- 256 repair packets have room. -/
theorem default_plannable (ranges : eng.DocumentedRanges) (builds : eng.Builds limits)
    (totals : eng.TotalsFit)
    (h : Configured host (SendArgs.default path addr) .raptorQ dest object) :
    ((SendArgs.default path addr).session host.clock .raptorQ object).Plannable limits
      (SendArgs.default path addr).config ↔
        limits.encoder CodecKind.raptorQ.defaultConfig (divCeil object.length 1400) 1400 := by
  obtain ⟨_, ht, _, hk⟩ := h.spec
  constructor
  · rintro ⟨hencodable, _, _⟩
    rw [hk, ht] at hencodable
    exact hencodable
  · intro hencodable
    obtain ⟨numTotal, htotal⟩ := (default_builds ranges builds h hencodable).1.exists_numTotal
    refine ⟨?_, totals.padded htotal ?_, show 1 * 256 * packetBytes ≤ isizeMax by decide⟩
    · rw [hk, ht]
      exact hencodable
    · rw [ht]
      exact show (1400 : UInt16).toNat ≤ 65535 by decide

/-- `fountain send PATH HOST:PORT` copes with the files that the engine can encode, which have
1 to 78964200 bytes. -/
theorem send_default (faithful : eng.Faithful encode) (encodes : eng.Encodes)
    (ranges : eng.DocumentedRanges) (builds : eng.Builds limits) (totals : eng.TotalsFit)
    (hbind : host.bindError = none) (hsocket : host.sendTo = sendAlways)
    (hdest : resolveAddr host addr = .ok dest) (hread : host.files.content path = .ok object) :
    let encodable :=
      limits.encoder CodecKind.raptorQ.defaultConfig (divCeil object.length 1400) 1400
    let exit := exitCode (runSend eng host (SendArgs.default path addr)).result
    (object.length = 0 → exit = .failure) ∧
      (0 < object.length → encodable → object.length ≤ 78964200 ∧ exit = .success) ∧
      (0 < object.length → ¬ encodable → exit = .panicked) := by
  intro encodable exit
  have houtcome := runSend_outcome faithful encodes builds totals (SendArgs.default path addr) hbind
    hsocket
  have hexit : exit = exitCode (runSend eng host (SendArgs.default path addr)).result := rfl
  clear_value exit
  generalize (runSend eng host (SendArgs.default path addr)).wire = wire,
    (runSend eng host (SendArgs.default path addr)).result = result at houtcome hexit
  subst hexit
  have hconfigured : 0 < object.length →
      Configured host (SendArgs.default path addr) .raptorQ dest object :=
    fun hf => ⟨default_codec, resolveAddr_eq_ok.mp hdest, hread, hf⟩
  -- a command that was prepared read this file
  have hobject : ∀ {p}, prepareSend host (SendArgs.default path addr) = .ok p →
      object.length ≠ 0 ∧
        (p.session.Plannable limits (SendArgs.default path addr).config ↔ encodable) := by
    intro p hprepare
    obtain ⟨codecKind, h, hsession⟩ := prepareSend_eq_ok.mp hprepare
    cases hread.symm.trans h.reads
    obtain ⟨rfl, _, _⟩ := h.unique (hconfigured h.nonempty)
    rw [hsession]
    exact ⟨Nat.ne_of_gt h.nonempty, default_plannable ranges builds totals h⟩
  cases houtcome with
  | refused hprepare =>
    have hempty : ¬ 0 < object.length := fun hf => not_configured hprepare (hconfigured hf)
    exact ⟨fun _ => rfl, fun hf => absurd hf hempty, fun hf => absurd hf hempty⟩
  | unplanned hprepare hnot =>
    obtain ⟨hne, hplannable⟩ := hobject hprepare
    exact ⟨fun h => absurd h hne, fun _ h => absurd (hplannable.mpr h) hnot, fun _ _ => rfl⟩
  | sent hprepare hfits _ _ =>
    obtain ⟨hne, hplannable⟩ := hobject hprepare
    have hencodable : encodable := hplannable.mp hfits
    exact ⟨fun h => absurd h hne,
      fun hf _ => ⟨(default_builds ranges builds (hconfigured hf) hencodable).2, rfl⟩,
      fun _ hnot => absurd hencodable hnot⟩
  | tooLarge _ _ hlarge => exact absurd hlarge (show ¬ 65478 < (1400 : UInt16).toNat by decide)

end

namespace Repetition

/-- A host with one file, of four bytes. -/
def fourFiles : Files where
  content path := if path = "in.bin" then .ok [1, 2, 3, 4] else .error 2
  denied _ := none

theorem fourFiles_reads {path : String} {object : Bytes} (h : fourFiles.content path = .ok object) :
    path = "in.bin" ∧ object = [1, 2, 3, 4] := by
  simp only [fourFiles] at h
  split at h
  · next hpath =>
    cases h
    exact ⟨hpath, rfl⟩
  · cases h

def fourHost : SendHost where
  files := fourFiles
  readable h := by
    obtain ⟨_, rfl⟩ := fourFiles_reads h
    decide
  resolve _ := .ok [sender]
  clock := some 7
  bindError := none
  sendTo := sendAlways

theorem four_configured :
    Configured fourHost (.default "in.bin" "peer:7878") .raptorQ sender [1, 2, 3, 4] :=
  ⟨default_codec, ⟨[], rfl⟩, rfl, by decide⟩

theorem four_plannable :
    ((SendArgs.default "in.bin" "peer:7878").session fourHost.clock .raptorQ [1, 2, 3, 4]).Plannable
      Repetition.limits (SendArgs.default "in.bin" "peer:7878").config :=
  (default_plannable engines_ranges engines_builds engines_totals four_configured).mpr
    ⟨rfl, rfl, by decide⟩

theorem four_sends :
    exitCode (runSend engines fourHost (.default "in.bin" "peer:7878")).result = .success :=
  (@send_default engines encode _ fourHost "in.bin" "peer:7878" sender [1, 2, 3, 4] engines_faithful
    engines_encodes engines_ranges engines_builds engines_totals rfl rfl rfl rfl).2.1 (by decide)
    ⟨rfl, rfl, by decide⟩ |>.2

end Repetition

open Repetition in
theorem send_command_four :
    exitCode (runSend engines fourHost (.default "in.bin" "peer:7878")).result = .success ∧
      (runSend engines fourHost (.default "in.bin" "peer:7878")).wire.length = 258 := by
  obtain ⟨hsuccess, _, hlength, _⟩ := @send_command engines encode _ fourHost engines_faithful
    engines_encodes engines_builds engines_totals (.default "in.bin" "peer:7878") rfl rfl
  have hok := hsuccess.mpr ⟨_, _, _, four_configured, four_plannable, by decide⟩
  exact ⟨hok, (hlength _ _ _ hok four_configured).trans (by decide)⟩

end FountainTransfer
