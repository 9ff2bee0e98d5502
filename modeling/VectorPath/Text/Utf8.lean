import VectorPath.Text.Quoted

/-!
# Strict UTF-8

Decoding of bytes, with the fault that stops it: where it begins, how many bytes it covers and
what is wrong. Overlong forms, surrogates and code points past the last one are refused through
the range of the second byte, so the fault is found at the first byte that cannot follow.
-/

namespace VectorPath.Text

inductive Utf8Reason
  | invalidStart
  | invalidContinuation
  | unexpectedEnd
  deriving DecidableEq, Repr

/-- Bytes that are not UTF-8: the bytes at fault and the position of the first. -/
structure Utf8Fault where
  position : Nat
  bytes : List UInt8
  reason : Utf8Reason
  deriving DecidableEq, Repr

/-- Least and greatest second byte after a leading byte. -/
def secondRange (lead : UInt8) : UInt8 × UInt8 :=
  if lead = 0xe0 then (0xa0, 0xbf)
  else if lead = 0xed then (0x80, 0x9f)
  else if lead = 0xf0 then (0x90, 0xbf)
  else if lead = 0xf4 then (0x80, 0x8f)
  else (0x80, 0xbf)

/-- How many bytes follow a leading byte; none for a byte that cannot lead. -/
def followCount (lead : UInt8) : Option Nat :=
  if lead < 0x80 then some 0
  else if lead < 0xc2 then none
  else if lead < 0xe0 then some 1
  else if lead < 0xf0 then some 2
  else if lead < 0xf5 then some 3
  else none

/-- The bits that a leading byte contributes. -/
def leadBits (lead : UInt8) (follow : Nat) : Nat :=
  match follow with
  | 0 => lead.toNat
  | 1 => lead.toNat % 0x20
  | 2 => lead.toNat % 0x10
  | _ => lead.toNat % 0x08

/-- Takes the bytes that follow, each in its range; fails with the bytes taken so far. -/
def takeFollow : Nat → UInt8 × UInt8 → List UInt8 → List UInt8 → Nat →
    Except (List UInt8 × Utf8Reason) Nat
  | 0, _, _, _, code => .ok code
  | _ + 1, _, [], taken, _ => .error (taken, .unexpectedEnd)
  | follow + 1, (low, high), b :: rest, taken, code =>
      if low ≤ b ∧ b ≤ high then
        takeFollow follow (0x80, 0xbf) rest (taken ++ [b]) (code * 0x40 + b.toNat % 0x40)
      else .error (taken, .invalidContinuation)

/-- Decodes the bytes after the first `skip`, which belong to the previous character. -/
def decodeFrom : Nat → Nat → List UInt8 → Except Utf8Fault (List Char)
  | _, _, [] => .ok []
  | position, skip + 1, _ :: rest => decodeFrom (position + 1) skip rest
  | position, 0, b :: rest =>
      match followCount b with
      | none => .error ⟨position, [b], .invalidStart⟩
      | some follow =>
        match takeFollow follow (secondRange b) rest [b] (leadBits b follow) with
        | .error (bytes, reason) => .error ⟨position, bytes, reason⟩
        | .ok code => return Char.ofNat code :: (← decodeFrom (position + 1) follow rest)

def decodeUtf8 (bytes : List UInt8) : Except Utf8Fault String :=
  (decodeFrom 0 0 bytes).map String.ofList

def encodeUtf8 (s : String) : List UInt8 := s.toUTF8.toList

def Utf8Reason.message : Utf8Reason → String
  | .invalidStart => "invalid start byte"
  | .invalidContinuation => "invalid continuation byte"
  | .unexpectedEnd => "unexpected end of data"

/-- Names the byte at fault, or the positions when there are several. -/
def Utf8Fault.message (f : Utf8Fault) : String :=
  let place := match f.bytes with
    | [b] =>
        "byte 0x" ++ String.ofList (hexDigits 2 b.toNat) ++ " in position " ++ toString f.position
    | bytes => "bytes in position " ++ toString f.position ++ "-" ++
        toString (f.position + bytes.length - 1)
  "'utf-8' codec can't decode " ++ place ++ ": " ++ f.reason.message

end VectorPath.Text
