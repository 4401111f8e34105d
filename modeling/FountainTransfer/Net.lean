import FountainTransfer.Protocol

/-!
# Sockets and progress events

`net.rs` and `progress.rs`. A socket is what it does when asked: `send_to` succeeds or
fails, and waiting for a datagram ends in an `Arrival`.
-/

namespace FountainTransfer

/-- `std::io::Error`, by its OS code; nothing reads it. -/
abbrev IoError := Nat

/-- A `std::time::Duration` in nanoseconds. -/
abbrev Duration := Nat

structure SocketAddr where
  ip : Nat
  port : UInt16
deriving DecidableEq, Repr

/-- `MAX_DATAGRAM`. -/
def maxDatagram : Nat := 65507

inductive NetError
  | io (error : IoError)
  | protocol (error : ProtocolError)
  | core (error : TransferError)
  | timeout (wait : Duration)
  | datagramTooLarge (size : Nat)
deriving DecidableEq, Repr

/-- What `send_to` answers to the attempt made after `n` datagrams were sent: `none`
when it puts the datagram on the wire. -/
abbrev SendTo := Nat → Option IoError

/-- The bytes put on the wire, whose length is the count that is returned. -/
def sendMessageCounted (sendTo : SendTo) (alreadySent : Nat) (message : WireMessage) :
    Result NetError Bytes := do
  let bytes ← (encodeMessage message).mapError .protocol
  if bytes.length > maxDatagram then .error (.datagramTooLarge bytes.length)
  else
    match sendTo alreadySent with
    | some error => .error (.io error)
    | none => .ok bytes

/-- What happens while a receiver waits: a datagram, nothing within the timeout, or a
failure of the socket. -/
inductive Arrival
  | datagram (bytes : Bytes) (peer : SocketAddr)
  | nothing
  | failure (error : IoError)
deriving DecidableEq, Repr

/-- The receive buffer holds `MAX_DATAGRAM` bytes; a longer datagram loses its tail. -/
def recvDatagramTimeout (wait : Duration) : Arrival → Result NetError (Bytes × SocketAddr)
  | .datagram bytes peer => .ok (bytes.take maxDatagram, peer)
  | .nothing => .error (.timeout wait)
  | .failure error => .error (.io error)

/-- Bytes that are no message end the call, where the receiver only ignores them. -/
def recvMessageTimeout (wait : Duration) (arrival : Arrival) :
    Result NetError (WireMessage × SocketAddr) := do
  let (bytes, peer) ← recvDatagramTimeout wait arrival
  let message ← (decodeMessage bytes).mapError .protocol
  return (message, peer)

/-- `DEFAULT_RECV_TIMEOUT` is 30 seconds. -/
def recvMessage (arrival : Arrival) : Result NetError (WireMessage × SocketAddr) :=
  recvMessageTimeout (30 * 1000000000) arrival

/-! ## Progress -/

inductive IgnoredDatagramReason
  | malformed
  | unsupportedVersion
  | unknownCodec
  | invalidSessionMetadata
  | beforeSession
  | foreignSession
  | invalidPacket
deriving DecidableEq, Repr

inductive ProgressEvent
  | senderStarted (sessionId : UInt64) (transferLengthF symbolSizeT : Usize)
      (sourcePackets repairPackets plannedBytes : Nat)
  | senderSourcePacketSent (sent total bytesSent plannedBytes : Nat)
  | senderRepairPacketSent (sent total bytesSent plannedBytes : Nat)
  | senderFinished (sourcePackets repairPackets bytesSent plannedBytes : Nat)
  | receiverSessionEstablished (sessionId : UInt64) (transferLengthF symbolSizeT : Usize)
      (expectedSourceSymbols : Nat)
  | receiverPacketAccepted (packetsAccepted bytesAccepted expectedSourceSymbols : Nat)
      (decodePercent : UInt8)
  | receiverDecodeComplete (packetsAccepted bytesAccepted : Nat) (decodePercent : UInt8)
  | receiverDatagramIgnored (ignoredDatagrams : Nat) (reason : IgnoredDatagramReason)
deriving DecidableEq, Repr

/-- `checked_div` answers `None` for a zero divisor, and `unwrap_or(0)` makes it 0. -/
def decodePercent (packetsAccepted expectedSourceSymbols : Nat) (decoded : Bool) : UInt8 :=
  if decoded then 100
  else
    let percent :=
      if expectedSourceSymbols = 0 then 0
      else saturatingMul packetsAccepted 100 / expectedSourceSymbols
    UInt8.ofNat (min percent 99)

/-! ## What a send or a receive did -/

theorem sendMessageCounted_eq_ok {sendTo : SendTo} {n : Nat} {message : WireMessage}
    {bytes : Bytes} :
    sendMessageCounted sendTo n message = .ok bytes ↔
      bytes = wireCode.encode message ∧ bytes.length ≤ maxDatagram ∧ sendTo n = none := by
  simp only [sendMessageCounted, encodeMessage, ok_mapError, ok_bind]
  split
  · next h =>
    constructor
    · intro hbad; cases hbad
    · rintro ⟨rfl, hle, _⟩; omega
  · next h =>
    split
    · next hio => simp [hio]
    · next hio =>
      simp only [Except.ok.injEq, hio, and_true]
      exact ⟨fun heq => heq ▸ ⟨rfl, Nat.not_lt.mp h⟩, fun heq => heq.1.symm⟩

/-- With a socket that never fails, only the size of a message can stop it. -/
theorem sendMessageCounted_eq {sendTo : SendTo} {n : Nat} {message : WireMessage}
    (h : sendTo n = none) :
    sendMessageCounted sendTo n message =
      if (wireCode.encode message).length ≤ maxDatagram then .ok (wireCode.encode message)
      else .error (.datagramTooLarge (wireCode.encode message).length) := by
  simp only [sendMessageCounted, encodeMessage, ok_mapError, ok_bind, h]
  split
  · next hgt => rw [if_neg (Nat.not_le.mpr hgt)]
  · next hle => rw [if_pos (Nat.not_lt.mp hle)]

/-- What was sent is what the other end reads, if nothing happens to the datagram. -/
theorem recvMessageTimeout_of_sent {sendTo : SendTo} {n : Nat} {message : WireMessage}
    {bytes : Bytes} (hfits : wireCode.Fits message)
    (hsend : sendMessageCounted sendTo n message = .ok bytes) (wait : Duration) (peer : SocketAddr) :
    recvMessageTimeout wait (.datagram bytes peer) = .ok (message, peer) := by
  obtain ⟨rfl, hsize, _⟩ := sendMessageCounted_eq_ok.mp hsend
  have hdecode := decodeMessage_encode hfits []
  rw [List.append_nil] at hdecode
  simp only [recvMessageTimeout, recvDatagramTimeout, List.take_of_length_le hsize, ok_bind, hdecode,
    ok_mapError, pure_eq_ok]

end FountainTransfer
