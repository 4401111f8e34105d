import FountainTransfer.Net

/-!
# The wire format is exact

`wireCode` is lawful by construction, and the laws say everything there is to say about
`encode_message` and `decode_message`: an encoding decodes to its message whatever
follows it, and nothing decodes that does not begin with an encoding. So encodings are
prefix-free, and a datagram cut by the receive buffer is not misread
(`wire_format_exact`).
-/

namespace FountainTransfer

/-- A message that can exist in memory: a vector holds at most `isize::MAX` bytes. -/
def WireMessage.InMemory : WireMessage → Prop
  | .sessionMeta _ _ _ _ _ => True
  | .packet _ _ _ _ symbol => symbol.length ≤ isizeMax

section

variable {message message' : WireMessage} {bytes bytes' : Bytes}

/-- The length of its symbol fits the `u64` length field. -/
theorem WireMessage.InMemory.fits (h : message.InMemory) : wireCode.Fits message := by
  refine wireCode_fits message fun version sessionId sbn esi symbol hpacket => ?_
  subst hpacket
  have hsymbol : symbol.length ≤ isizeMax := h
  unfold isizeMax at hsymbol
  omega

theorem encodeMessage_eq_ok : encodeMessage message = .ok bytes ↔ bytes = wireCode.encode message := by
  unfold encodeMessage
  rw [Except.ok.injEq, eq_comm]

theorem decodeMessage_eq_ok :
    decodeMessage bytes = .ok message ↔
      wireCode.Fits message ∧ wireCode.encode message <+: bytes := by
  constructor
  · intro h
    unfold decodeMessage at h
    split at h
    · cases h
    · next read rest hdecode =>
      cases h
      obtain ⟨hfits, hbytes⟩ := wireCode.encode_of_decode bytes message rest hdecode
      exact ⟨hfits, rest, hbytes.symm⟩
  · rintro ⟨hfits, rest, rfl⟩
    exact decodeMessage_encode hfits rest

/-- What does not decode is an error, and nothing else. -/
theorem decodeMessage_error (h : ∀ message, decodeMessage bytes ≠ .ok message) :
    decodeMessage bytes = .error .encode := by
  unfold decodeMessage at h ⊢
  split
  · rfl
  · next message rest hdecode =>
    rw [hdecode] at h
    exact absurd rfl (h message)

/-- A strict prefix of an encoding is an error. -/
theorem decodeMessage_strict_prefix (h : message.InMemory)
    (hbegins : bytes <+: wireCode.encode message) (hne : bytes ≠ wireCode.encode message) :
    decodeMessage bytes = .error .encode := by
  obtain ⟨more, hmore⟩ := hbegins
  have hrest : more ≠ [] := by
    rintro rfl
    rw [List.append_nil] at hmore
    exact hne hmore
  have hnone := wireCode.decode_prefix_none h.fits hmore.symm hrest
  simp only [decodeMessage, hnone]

/-- The receive buffer cuts a longer datagram, and a cut encoding is an error. -/
theorem recvDatagramTimeout_cut (h : message.InMemory)
    (hlong : maxDatagram < (wireCode.encode message).length) (wait : Duration) (peer : SocketAddr) :
    ∃ datagram, recvDatagramTimeout wait (.datagram (wireCode.encode message) peer) =
        .ok (datagram, peer) ∧
      decodeMessage datagram = .error .encode := by
  refine ⟨(wireCode.encode message).take maxDatagram, rfl, ?_⟩
  refine decodeMessage_strict_prefix h (List.take_prefix _ _) fun hwhole => ?_
  have hlength : ((wireCode.encode message).take maxDatagram).length = maxDatagram :=
    List.length_take_of_le (Nat.le_of_lt hlong)
  rw [hwhole] at hlength
  omega

end

/-- For all messages and all byte strings: an encoding followed by anything decodes to its
message; what decodes begins with the encoding of the message read, and the rest is an
error; no strict prefix of an encoding decodes; an encoding that begins another one is
equal to it; and behind the receive buffer a message too long for it is an error, while
whatever is read there is what the uncut datagram says. -/
theorem wire_format_exact :
    (∀ message, message.InMemory → ∃ bytes, encodeMessage message = .ok bytes ∧
      ∀ more, decodeMessage (bytes ++ more) = .ok message) ∧
    (∀ bytes, (∃ message encoded, decodeMessage bytes = .ok message ∧
        encodeMessage message = .ok encoded ∧ encoded <+: bytes) ∨
      ∃ e, decodeMessage bytes = .error e) ∧
    (∀ message encoded bytes, message.InMemory → encodeMessage message = .ok encoded →
      bytes <+: encoded → bytes ≠ encoded → ∃ e, decodeMessage bytes = .error e) ∧
    (∀ message message' encoded encoded', message.InMemory → message'.InMemory →
      encodeMessage message = .ok encoded → encodeMessage message' = .ok encoded' →
      encoded <+: encoded' → message = message') ∧
    (∀ wait peer,
      (∀ message encoded, message.InMemory → encodeMessage message = .ok encoded →
        maxDatagram < encoded.length →
        ∃ datagram e, recvDatagramTimeout wait (.datagram encoded peer) = .ok (datagram, peer) ∧
          decodeMessage datagram = .error e) ∧
      (∀ bytes datagram message, recvDatagramTimeout wait (.datagram bytes peer) =
        .ok (datagram, peer) → decodeMessage datagram = .ok message →
        decodeMessage bytes = .ok message)) := by
  refine ⟨fun message h => ?_, fun bytes => ?_, ?_, ?_, fun wait peer => ⟨?_, ?_⟩⟩
  · exact ⟨_, rfl, decodeMessage_encode h.fits⟩
  · by_cases h : ∃ message, decodeMessage bytes = .ok message
    · obtain ⟨message, hdecode⟩ := h
      exact .inl ⟨message, _, hdecode, rfl, (decodeMessage_eq_ok.mp hdecode).2⟩
    · exact .inr ⟨_, decodeMessage_error fun message hdecode => h ⟨message, hdecode⟩⟩
  · intro message encoded bytes h hencode hbegins hne
    rw [encodeMessage_eq_ok.mp hencode] at hbegins hne
    exact ⟨_, decodeMessage_strict_prefix h hbegins hne⟩
  · intro message message' encoded encoded' h h' hencode hencode' hbegins
    rw [encodeMessage_eq_ok.mp hencode, encodeMessage_eq_ok.mp hencode'] at hbegins
    exact wireCode.encode_prefix_free h.fits h'.fits hbegins
  · intro message encoded h hencode hlong
    rw [encodeMessage_eq_ok.mp hencode] at hlong ⊢
    obtain ⟨datagram, hrecv, hdecode⟩ := recvDatagramTimeout_cut h hlong wait peer
    exact ⟨datagram, _, hrecv, hdecode⟩
  · rintro bytes datagram message ⟨⟩ hdecode
    exact decodeMessage_of_take hdecode

/-- Session metadata with a byte behind it. -/
theorem wire_format_exact_meta :
    decodeMessage (wireCode.encode (.sessionMeta 1 7 0 5 2) ++ [255]) =
      .ok (.sessionMeta 1 7 0 5 2) := by
  obtain ⟨bytes, hencode, hdecode⟩ := wire_format_exact.1 (.sessionMeta 1 7 0 5 2) trivial
  cases hencode
  exact hdecode [255]

end FountainTransfer
