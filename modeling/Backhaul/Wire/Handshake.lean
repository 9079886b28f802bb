import Backhaul.Wire.Codec

/-!
# The handshake and the target-address frame

Each peer's side of the two framed exchanges, as the code calls the codec. The client's
`channelDialer` writes its token with `SendBinaryString` and reads the reply with
`ReceiveBinaryString`; the servers' `channelHandshake` reads with
`ReceiveBinaryTransportString` and replies with `SendBinaryTransportString`. The pairing
loop sends the target address tagged with `SG_TCP`, and the client's `tunnelDialer` reads
it untagged. The tag byte is therefore read as the high byte of a length, and the
results below show that the peers recover each other's strings only at two degenerate
lengths, and the server never.
-/

namespace Backhaul

/-- What the client's `channelDialer` writes on a fresh connection (tcp.go, line 120). -/
def channelDialerFrame (token : List Byte) : List Byte := sendBinaryString token

/-- How one attempt of `channelDialer` ends once the reply has been read. -/
inductive DialerResult
  | receiveFailed
  | invalidToken (message : List Byte)
  | established
  deriving DecidableEq, Repr

/-- `channelDialer` reading the reply to its token (tcp.go, lines 135–164). -/
def channelDialerReply (token reply : List Byte) : DialerResult :=
  match receiveBinaryString reply with
  | none => .receiveFailed
  | some (message, _) => if message = token then .established else .invalidToken message

/-- How `channelHandshake` ends with one connection. -/
inductive HandshakeResult
  | receiveFailed
  | invalidSignal
  | invalidToken (message : List Byte)
  | established (reply : List Byte)
  deriving DecidableEq, Repr

/-- The servers' `channelHandshake` on one connection whose peer wrote `input`
(part_000, lines 146–180; tcpmux.go, lines 163–194, the same body). A read that fails is
`receiveFailed`; the source logs it under the transport check when the codec returns a
tag other than `SG_Chan` with its error, and closes the connection either way. -/
def channelHandshake (token input : List Byte) : HandshakeResult :=
  match receiveBinaryTransportString input with
  | none => .receiveFailed
  | some (message, transport, _) =>
    if transport ≠ sgChan then .invalidSignal
    else if message ≠ token then .invalidToken message
    else .established (sendBinaryTransportString token sgChan)

/-- What `handleLoop` writes on a paired tunnel connection (part_000, line 422). -/
def handleLoopFrame (remoteAddr : List Byte) : List Byte :=
  sendBinaryTransportString remoteAddr sgTCP

/-- The address `tunnelDialer` passes to `ResolveRemoteAddr` (tcp.go, line 294). -/
def tunnelDialerAddress (input : List Byte) : Option (List Byte) :=
  (receiveBinaryString input).map Prod.fst

/-- A string that reappears after one byte of itself is that byte repeated. -/
theorem eq_replicate_of_cons_append {x : Byte} {message rest tail : List Byte}
    (h : x :: (message ++ rest) = message ++ tail) :
    message = List.replicate message.length x := by
  induction message generalizing x with
  | nil => rfl
  | cons y message ih =>
    simp only [List.cons_append, List.cons.injEq] at h
    obtain ⟨rfl, h⟩ := h
    rw [List.length_cons, List.replicate_succ, ← ih h]

/-- The length an untagged reader takes from a tagged frame, `tag * 256 + len / 256 % 256`,
is the framed length `len` only at `len = 257 * tag`. -/
theorem tagged_length_eq {tag len : Nat} (htag : tag < 256)
    (h : tag * 256 + len / 256 % 256 = len) :
    len = 257 * tag := by
  have hrem : len / 256 % 256 < 256 := Nat.mod_lt _ (by decide)
  have hquot : len / 256 = tag := by omega
  rw [hquot, Nat.mod_eq_of_lt htag] at h
  omega

/-- An untagged reader of a tagged frame recovers the framed string only if the string
is 257 times as long as the tag, read as the high length byte, and repeats its low
length byte. -/
theorem receiveBinaryString_tagged_self {message rest tail : List Byte} {transport : Byte}
    (h : receiveBinaryString (sendBinaryTransportString message transport ++ rest) =
      some (message, tail)) :
    message.length = 257 * transport.toNat ∧
      message = List.replicate message.length message.length.toUInt8 := by
  obtain ⟨hi, lo, hstream, hlen⟩ := receiveBinaryString_some h
  simp only [sendBinaryTransportString, sendBinaryString, lengthPrefix, List.cons_append,
    List.nil_append, List.append_assoc, List.cons.injEq] at hstream
  obtain ⟨rfl, rfl, hshift⟩ := hstream
  rw [toNat_toUInt8] at hlen
  exact ⟨tagged_length_eq (UInt8.toNat_lt_size _) hlen, eq_replicate_of_cons_append hshift⟩

/-- A tagged reader of an untagged frame reads a string strictly shorter than the one
framed: the low length byte and the first byte of the string make up the length it
reads, and the string's first byte is already gone. -/
theorem receiveBinaryTransportString_untagged_lt {message read rest : List Byte}
    {transport : Byte}
    (h : receiveBinaryTransportString (sendBinaryString message) = some (read, transport, rest)) :
    read.length < message.length := by
  obtain ⟨hi, lo, hstream, -⟩ := receiveBinaryTransportString_some h
  simp only [sendBinaryString, lengthPrefix, List.cons_append, List.nil_append,
    List.cons.injEq] at hstream
  obtain ⟨-, -, hmessage⟩ := hstream
  have hlength := congrArg List.length hmessage
  simp only [List.length_cons, List.length_append] at hlength
  omega

/-- The server never accepts the client's handshake: for every token, the string
`channelHandshake` reads from `channelDialer`'s frame is shorter than the token. -/
theorem channelHandshake_channelDialerFrame (token reply : List Byte) :
    channelHandshake token (channelDialerFrame token) ≠ .established reply := by
  unfold channelHandshake channelDialerFrame
  split
  · simp
  · rename_i message transport rest hread
    have hshort := receiveBinaryTransportString_untagged_lt hread
    have hne : message ≠ token := fun heq => by rw [heq] at hshort; omega
    by_cases htransport : transport = sgChan <;> simp [htransport, hne]

/-- The client reads the server's reply as its own token only for the token made of 257
copies of `SG_Chan`, whatever the server writes after the reply. -/
theorem channelDialerReply_established {token input reply rest : List Byte}
    (hserver : channelHandshake token input = .established reply)
    (hclient : channelDialerReply token (reply ++ rest) = .established) :
    token = List.replicate 257 sgChan := by
  have hreply : reply = sendBinaryTransportString token sgChan := by
    unfold channelHandshake at hserver
    split at hserver
    · cases hserver
    · split at hserver
      · cases hserver
      · split at hserver
        · cases hserver
        · exact (HandshakeResult.established.inj hserver).symm
  subst hreply
  unfold channelDialerReply at hclient
  split at hclient
  · cases hclient
  · rename_i message tail hread
    split at hclient
    · subst message
      obtain ⟨hlen, hrep⟩ := receiveBinaryString_tagged_self hread
      rw [hrep, hlen]
      rfl
    · cases hclient

/-- `tunnelDialer` resolves the address `handleLoop` framed only for the address made
of 1028 copies of `SG_TCP`, whatever user bytes follow the frame. -/
theorem tunnelDialerAddress_handleLoopFrame {remoteAddr rest : List Byte}
    (h : tunnelDialerAddress (handleLoopFrame remoteAddr ++ rest) = some remoteAddr) :
    remoteAddr = List.replicate 1028 sgTCP := by
  simp only [tunnelDialerAddress, Option.map_eq_some'] at h
  obtain ⟨⟨message, tail⟩, hread, hmessage⟩ := h
  dsimp only at hmessage
  subst hmessage
  obtain ⟨hlen, hrep⟩ := receiveBinaryString_tagged_self hread
  rw [hrep, hlen]
  rfl

/-- The three framed exchanges between the peers. `channelHandshake` never establishes
the control channel from the token `channelDialer` writes; `channelDialer` accepts the
server's reply only for the token of 257 `SG_Chan` bytes; and `tunnelDialer` resolves the
address `handleLoop` sends only when that address is 1028 `SG_TCP` bytes. -/
theorem peer_framings_disagree :
    (∀ token reply, channelHandshake token (channelDialerFrame token) ≠ .established reply) ∧
    (∀ token input reply rest, channelHandshake token input = .established reply →
      channelDialerReply token (reply ++ rest) = .established →
      token = List.replicate 257 sgChan) ∧
    (∀ remoteAddr rest, tunnelDialerAddress (handleLoopFrame remoteAddr ++ rest) = some remoteAddr →
      remoteAddr = List.replicate 1028 sgTCP) :=
  ⟨channelHandshake_channelDialerFrame, fun _ _ _ _ => channelDialerReply_established,
    fun _ _ => tunnelDialerAddress_handleLoopFrame⟩

end Backhaul
