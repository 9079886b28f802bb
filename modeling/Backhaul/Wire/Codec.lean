import Mathlib.Data.List.Basic

/-!
# Signals and the wire codec

The control channel carries single signal bytes (`internal/utils/signals.go`); the
handshake token and the target address travel as length-prefixed strings. The codec
of `internal/utils` is not part of the snapshot, so its operations are modelled from
the specification (§4.1 and §6): a big-endian `u16` length and then the bytes, with one
signal byte in front for the tagged variant. A reader works on the bytes its peer has
written; `none` is an end of stream, or a deadline, before the frame is complete.
-/

namespace Backhaul

/-- A byte on the wire; Go's `byte` is `uint8`. -/
abbrev Byte := UInt8

/-- `utils.SG_HB`, the heartbeat. -/
def sgHB : Byte := 0

/-- `utils.SG_Chan`, a request for a new tunnel connection. -/
def sgChan : Byte := 1

/-- `utils.SG_Closed`, the peer shutting the channel down. -/
def sgClosed : Byte := 3

/-- `utils.SG_TCP`, the tag of a target address carrying TCP. -/
def sgTCP : Byte := 4

/-- `utils.SG_UDP`. -/
def sgUDP : Byte := 5

/-- The two bytes of a big-endian `uint16(n)`. -/
def lengthPrefix (n : Nat) : List Byte := [(n / 256).toUInt8, n.toUInt8]

/-- Modelled from the spec: `utils.SendBinaryString` is not under src/. Specification
§4.1: a big-endian `u16` length followed by the bytes. -/
def sendBinaryString (message : List Byte) : List Byte :=
  lengthPrefix message.length ++ message

/-- Modelled from the spec: `utils.ReceiveBinaryString` is not under src/. It reads the
two length bytes and then exactly that many bytes, and returns them with the rest of
the stream. -/
def receiveBinaryString : List Byte → Option (List Byte × List Byte)
  | hi :: lo :: rest =>
    if hi.toNat * 256 + lo.toNat ≤ rest.length then
      some (rest.take (hi.toNat * 256 + lo.toNat), rest.drop (hi.toNat * 256 + lo.toNat))
    else none
  | _ => none

/-- Modelled from the spec: `utils.SendBinaryTransportString` is not under src/. The
tagged variant of §4.1 and §6: one signal byte, then `sendBinaryString`. -/
def sendBinaryTransportString (message : List Byte) (transport : Byte) : List Byte :=
  transport :: sendBinaryString message

/-- Modelled from the spec: `utils.ReceiveBinaryTransportString` is not under src/. It
reads the signal byte and then a length-prefixed string. -/
def receiveBinaryTransportString : List Byte → Option (List Byte × Byte × List Byte)
  | transport :: rest =>
    (receiveBinaryString rest).map fun (message, rest) => (message, transport, rest)
  | [] => none

/-- Modelled from the spec: `utils.SendBinaryByte` writes exactly one byte. -/
def sendBinaryByte (signal : Byte) : List Byte := [signal]

/-- Modelled from the spec: `utils.ReceiveBinaryByte` reads exactly one byte. -/
def receiveBinaryByte : List Byte → Option (Byte × List Byte)
  | signal :: rest => some (signal, rest)
  | [] => none

@[simp] theorem toNat_toUInt8 (n : Nat) : n.toUInt8.toNat = n % 256 := rfl

/-- Everything a successful `receiveBinaryString` can have read: two length bytes that
encode the length of the message, the message, and the untouched rest. -/
theorem receiveBinaryString_some {stream message rest : List Byte}
    (h : receiveBinaryString stream = some (message, rest)) :
    ∃ hi lo : Byte, stream = hi :: lo :: (message ++ rest) ∧
      hi.toNat * 256 + lo.toNat = message.length := by
  match stream, h with
  | hi :: lo :: tail, h =>
    simp only [receiveBinaryString] at h
    split at h
    · rename_i hle
      simp only [Option.some.injEq, Prod.mk.injEq] at h
      obtain ⟨rfl, rfl⟩ := h
      refine ⟨hi, lo, by simp, ?_⟩
      simp only [List.length_take]
      omega
    · cases h

/-- Everything a successful `receiveBinaryTransportString` can have read. -/
theorem receiveBinaryTransportString_some {stream message rest : List Byte} {transport : Byte}
    (h : receiveBinaryTransportString stream = some (message, transport, rest)) :
    ∃ hi lo : Byte, stream = transport :: hi :: lo :: (message ++ rest) ∧
      hi.toNat * 256 + lo.toNat = message.length := by
  match stream, h with
  | tag :: tail, h =>
    simp only [receiveBinaryTransportString, Option.map_eq_some'] at h
    obtain ⟨⟨m, r⟩, hread, hpair⟩ := h
    simp only [Prod.mk.injEq] at hpair
    obtain ⟨rfl, rfl, rfl⟩ := hpair
    obtain ⟨hi, lo, rfl, hlen⟩ := receiveBinaryString_some hread
    exact ⟨hi, lo, rfl, hlen⟩

end Backhaul
