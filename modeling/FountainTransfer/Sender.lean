import FountainTransfer.Net

/-!
# The sender

`sender.rs`: all packets are computed first, then the metadata, the source packets and
the repair packets are sent in this order. The first send that fails ends the transfer.
-/

namespace FountainTransfer

/-- `inter_packet_delay` only paces the sends and is left out. -/
structure SendConfig where
  repairCount : Usize
  repairRounds : Usize
deriving DecidableEq, Repr

/-- What one call of `send_object_with_socket_impl` leaves behind: the datagrams put on
the wire, the progress reported, and how the call ended. -/
structure SendRun where
  wire : List Bytes
  events : List ProgressEvent
  result : Call (Result NetError Unit)

/-! ## Planning -/

/-- The packets of one transfer. -/
structure SendPlan where
  source : List TransferPacket
  repair : List TransferPacket

/-- `for round in 0..repair_rounds { repair_packets.extend(..) }`, after the packets
`repair`. A vector that grows may take more room than `extend` needs; how much is left open,
and taken to be nothing. -/
def repairRounds {eng : Engines} (repairCount : Nat) :
    TransferEncoderImpl eng → List TransferPacket → List Nat →
      Call (TransferEncoderImpl eng × List TransferPacket)
  | encoder, repair, [] => .ok (encoder, repair)
  | encoder, repair, round :: rest => do
    -- the rounds' ranges of repair indices are adjacent
    let start ← mulUsize round repairCount
    let out ← encoder.repairPackets start repairCount
    withCapacity ((repair.length + out.2.length) * packetBytes)
    repairRounds repairCount out.1 (repair ++ out.2) rest

/-- The part of `send_object_with_socket_impl` before the first message is encoded. -/
def sendPlan (eng : Engines) (object : Bytes) (session : SessionParams) (config : SendConfig) :
    Call (Result TransferError SendPlan) := do
  match ← TransferEncoderImpl.new eng session.spec object with
  | .error e => return .error e
  | .ok encoder =>
    let source := encoder.sourcePackets
    let repair ← repairRounds config.repairCount.toNat encoder []
      (List.range config.repairRounds.toNat)
    return .ok ⟨source, repair.2⟩

def SendPlan.packets (plan : SendPlan) : List TransferPacket := plan.source ++ plan.repair

def messagesBytes : List WireMessage → Result ProtocolError Nat
  | [] => .ok 0
  | message :: rest => do
    let bytes ← encodeMessage message
    let more ← messagesBytes rest
    return bytes.length + more

/-- Counted only when somebody listens. -/
def plannedBytes (session : SessionParams) (plan : SendPlan) (progress : Bool) :
    Result ProtocolError Nat :=
  if progress then
    messagesBytes (sessionMetaFromSpec session.sessionId session.spec ::
      plan.packets.map (packetMessage session.sessionId))
  else .ok 0

/-! ## Sending -/

/-- The locals of the send loops and what was sent and reported so far. -/
structure SendState where
  wire : List Bytes
  events : List ProgressEvent
  bytesSent : Nat

/-- One message: `send_message_counted` with a callback, `send_message` without. -/
def SendState.send (sendTo : SendTo) (progress : Bool) (st : SendState)
    (message : WireMessage) : Result NetError SendState := do
  let bytes ← sendMessageCounted sendTo st.wire.length message
  return { st with
    wire := st.wire ++ [bytes]
    bytesSent := st.bytesSent + if progress then bytes.length else 0 }

/-- The loop over the source packets and the loop over the repair packets; `report`
builds the event of either. `index` packets of this loop were sent before. -/
def sendPackets (sendTo : SendTo) (progress : Bool) (sessionId : UInt64)
    (report : Nat → Nat → ProgressEvent) :
    SendState → Nat → List TransferPacket → SendState × Result NetError Unit
  | st, _, [] => (st, .ok ())
  | st, index, packet :: rest =>
    match st.send sendTo progress (packetMessage sessionId packet) with
    | .error e => (st, .error e)
    | .ok st =>
      let event := report (index + 1) st.bytesSent
      let st := if progress then { st with events := st.events ++ [event] } else st
      sendPackets sendTo progress sessionId report st (index + 1) rest

/-- The metadata and both loops, over a computed plan. -/
def sendPlanned (sendTo : SendTo) (progress : Bool) (session : SessionParams) (plan : SendPlan)
    (planned : Nat) : SendRun :=
  let report (event : ProgressEvent) : List ProgressEvent := if progress then [event] else []
  let started := report (.senderStarted session.sessionId session.spec.transferLengthF
    session.spec.symbolSizeT plan.source.length plan.repair.length planned)
  let sessionMeta := sessionMetaFromSpec session.sessionId session.spec
  match SendState.send sendTo progress ⟨[], started, 0⟩ sessionMeta with
  | .error e => ⟨[], started, .ok (.error e)⟩
  | .ok st =>
    match sendPackets sendTo progress session.sessionId
        (fun sent bytesSent => .senderSourcePacketSent sent plan.source.length bytesSent planned)
        st 0 plan.source with
    | (st, .error e) => ⟨st.wire, st.events, .ok (.error e)⟩
    | (st, .ok ()) =>
      match sendPackets sendTo progress session.sessionId
          (fun sent bytesSent => .senderRepairPacketSent sent plan.repair.length bytesSent planned)
          st 0 plan.repair with
      | (st, .error e) => ⟨st.wire, st.events, .ok (.error e)⟩
      | (st, .ok ()) =>
        ⟨st.wire, st.events ++ report (.senderFinished plan.source.length plan.repair.length
          st.bytesSent planned), .ok (.ok ())⟩

/-- `send_object_with_socket_impl`; `progress` says whether there is a callback. -/
def sendObjectWithSocketImpl (eng : Engines) (sendTo : SendTo) (object : Bytes)
    (session : SessionParams) (config : SendConfig) (progress : Bool) : SendRun :=
  match sendPlan eng object session config with
  | .error panic => ⟨[], [], .error panic⟩
  | .ok (.error e) => ⟨[], [], .ok (.error (.core e))⟩
  | .ok (.ok plan) =>
    match plannedBytes session plan progress with
    | .error e => ⟨[], [], .ok (.error (.protocol e))⟩
    | .ok planned => sendPlanned sendTo progress session plan planned

end FountainTransfer
