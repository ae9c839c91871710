import Traceability.Text.Basic

/-!
# UTF-8

Reading stops at the first byte sequence that encodes no character and says where and why. The
faulty sequence is the longest beginning of an encoded character, so a reader that prefers to go on
may put one replacement character in its place.
-/
namespace Traceability.Text

inductive Utf8Fault where
  | invalidStart
  | invalidContinuation
  | unexpectedEnd
deriving DecidableEq, Repr

structure Utf8Error where
  fault : Utf8Fault
  position : Nat
  length : Nat
  byte : UInt8
deriving DecidableEq, Repr

namespace Utf8

def isTail (b : UInt8) : Bool := 0x80 ≤ b && b ≤ 0xBF

/-- The number of further bytes that a first byte announces, its own bits, and the least and the
greatest byte that may follow it. -/
def lead? (b : UInt8) : Option (Nat × Nat × UInt8 × UInt8) :=
  if b < 0xC2 then none
  else if b < 0xE0 then some (1, b.toNat - 0xC0, 0x80, 0xBF)
  else if b < 0xF0 then
    some (2, b.toNat - 0xE0, if b = 0xE0 then 0xA0 else 0x80, if b = 0xED then 0x9F else 0xBF)
  else if b < 0xF5 then
    some (3, b.toNat - 0xF0, if b = 0xF0 then 0x90 else 0x80, if b = 0xF4 then 0x8F else 0xBF)
  else none

/-- Reads `owed` further bytes into a code point; `seen` bytes are read already. The next byte has to
lie between `low` and `high`. Answers the code point, or the fault and the length of the faulty
sequence. -/
def tails : Nat → Nat → Nat → UInt8 → UInt8 → List UInt8 → Except (Utf8Fault × Nat) Nat
  | 0, _, code, _, _, _ => .ok code
  | _ + 1, seen, _, _, _, [] => .error (.unexpectedEnd, seen)
  | owed + 1, seen, code, low, high, b :: rest =>
    if low ≤ b && b ≤ high then tails owed (seen + 1) (code * 64 + (b.toNat - 0x80)) 0x80 0xBF rest
    else .error (.invalidContinuation, seen)

/-- The character that a non-empty byte sequence starts with and the number of its bytes, or the
fault and the length of the faulty sequence. -/
def first (b : UInt8) (rest : List UInt8) : Except (Utf8Fault × Nat) (Char × Nat) :=
  if b < 0x80 then .ok (Char.ofNat b.toNat, 1)
  else match lead? b with
    | none => .error (.invalidStart, 1)
    | some (owed, bits, low, high) =>
      (tails owed 1 bits low high rest).map fun code => (Char.ofNat code, owed + 1)

def decodeFrom : Nat → Nat → List UInt8 → Except Utf8Error Text
  | _, _, [] => .ok []
  | skip + 1, position, _ :: rest => decodeFrom skip (position + 1) rest
  | 0, position, b :: rest =>
    match first b rest with
    | .ok (c, n) => (decodeFrom (n - 1) (position + 1) rest).map (c :: ·)
    | .error (fault, n) => .error ⟨fault, position, n, b⟩

def decodeLossyFrom : Nat → List UInt8 → Text
  | _, [] => []
  | skip + 1, _ :: rest => decodeLossyFrom skip rest
  | 0, b :: rest =>
    match first b rest with
    | .ok (c, n) => c :: decodeLossyFrom (n - 1) rest
    | .error (_, n) => '\ufffd' :: decodeLossyFrom (n - 1) rest

def decode (bytes : List UInt8) : Except Utf8Error Text := decodeFrom 0 0 bytes

def decodeLossy (bytes : List UInt8) : Text := decodeLossyFrom 0 bytes

def encode (t : Text) : List UInt8 := t.flatMap String.utf8EncodeChar

end Utf8

def hexByte (b : Nat) : Text := [Nat.digitChar (b / 16 % 16), Nat.digitChar (b % 16)]

namespace Utf8Error

def message (e : Utf8Error) : Text :=
  let place : Text :=
    if e.length = 1 then
      "byte 0x" ++ hexByte e.byte.toNat ++ " in position " ++ ofNat e.position
    else
      "bytes in position " ++ ofNat e.position ++ "-" ++ ofNat (e.position + e.length - 1)
  let reason : Text := match e.fault with
    | .invalidStart => "invalid start byte"
    | .invalidContinuation => "invalid continuation byte"
    | .unexpectedEnd => "unexpected end of data"
  "'utf-8' codec can't decode " ++ place ++ ": " ++ reason

end Utf8Error

end Traceability.Text
