import VectorPath.Depth
import VectorPath.Json.Error
import VectorPath.Number.Layout
import VectorPath.Number.Reading
import VectorPath.Value.Basic

/-!
# Reading JSON

A reader of JSON texts as values. It goes through the characters once and stops at the first
one that cannot follow, so the position of a fault is exact. Beyond the standard it reads `NaN`
and the two infinities as numbers. A number with a point or an exponent is a binary64 number and
any other an integer; of repeated names the last value counts, in the place of the first.

The recursion is bounded by fuel. A value, an item and a member cost one unit each, and so does a
character of a text; every unit but the first few is paid for by a character, so twice the length
of the text suffices. Nesting is bounded separately.
-/

namespace VectorPath.Json

/-- The rest of a text and the position where it begins. -/
structure Cursor where
  position : Nat
  rest : List Char
  deriving Repr

def Cursor.advance (c : Cursor) (n : Nat) (rest : List Char) : Cursor := ⟨c.position + n, rest⟩

def Cursor.fail {α : Type} (c : Cursor) (problem : Problem) : Except Error α :=
  .error (.malformed problem c.position)

/-- Space, tab, line feed and carriage return. -/
def isBlank (c : Char) : Bool := c == ' ' || c == '\t' || c == '\n' || c == '\r'

def Cursor.skipBlanks (c : Cursor) : Cursor :=
  c.advance (c.rest.takeWhile isBlank).length (c.rest.dropWhile isBlank)

/-- The character of an escape of one character. -/
def escapeValue? : Char → Option Char
  | '"' => some '"'
  | '\\' => some '\\'
  | '/' => some '/'
  | 'b' => some '\x08'
  | 'f' => some '\x0c'
  | 'n' => some '\n'
  | 'r' => some '\r'
  | 't' => some '\t'
  | _ => none

def hexValue? (c : Char) : Option Nat :=
  if '0' ≤ c ∧ c ≤ '9' then some (c.toNat - '0'.toNat)
  else if 'a' ≤ c ∧ c ≤ 'f' then some (c.toNat - 'a'.toNat + 10)
  else if 'A' ≤ c ∧ c ≤ 'F' then some (c.toNat - 'A'.toNat + 10)
  else none

/-- Four hexadecimal digits that do not end the text, as a UTF-16 unit. -/
def hexUnit? : List Char → Option (Nat × List Char)
  | a :: b :: c :: d :: e :: rest => do
      let n := (← hexValue? a) * 0x1000 + (← hexValue? b) * 0x100 + (← hexValue? c) * 0x10
      return (n + (← hexValue? d), e :: rest)
  | _ => none

def isHighUnit (n : Nat) : Bool := 0xd800 ≤ n && n < 0xdc00

def isLowUnit (n : Nat) : Bool := 0xdc00 ≤ n && n < 0xe000

/-- The character of a unit; a unit of a pair that stands alone has no character of its own. -/
def unitChar (n : Nat) : Char :=
  if isHighUnit n || isLowUnit n then '\ufffd' else Char.ofNat n

def pairChar (high low : Nat) : Char :=
  Char.ofNat (0x10000 + (high - 0xd800) * 0x400 + (low - 0xdc00))

/-- The character after a backslash and `u`, with the cursor after it; the cursor is at the
backslash. A pair is read when its second half can be complete. -/
def scanUnicode (c : Cursor) (digits : List Char) : Except Error (Char × Cursor) :=
  match hexUnit? digits with
  | none => .error (.malformed .invalidUnicodeEscape (c.position + 1))
  | some (unit, more) =>
      let alone : Except Error (Char × Cursor) := .ok (unitChar unit, c.advance 6 more)
      if isHighUnit unit then
        match more with
        | '\\' :: 'u' :: tail =>
            if tail.length < 5 then alone
            else
              match hexUnit? tail with
              | none => .error (.malformed .invalidUnicodeEscape (c.position + 7))
              | some (second, rest) =>
                  if isLowUnit second then .ok (pairChar unit second, c.advance 12 rest) else alone
        | _ => alone
      else alone

/-- The character of an escape, with the cursor after it; the cursor is at the backslash. -/
def scanEscape (start : Nat) (c : Cursor) : List Char → Except Error (Char × Cursor)
  | [] => .error (.malformed .unterminatedText start)
  | 'u' :: digits => scanUnicode c digits
  | e :: rest =>
      match escapeValue? e with
      | some x => .ok (x, c.advance 2 rest)
      | none => c.fail .invalidEscape

/-- The rest of a text whose opening quote is at `start`. -/
def scanText (start : Nat) : Nat → Cursor → List Char → Except Error (String × Cursor)
  | 0, _, _ => .error (.malformed .unterminatedText start)
  | fuel + 1, c, done =>
      match c.rest with
      | [] => .error (.malformed .unterminatedText start)
      | '"' :: rest => .ok (String.ofList done.reverse, c.advance 1 rest)
      | '\\' :: rest => do
          let (x, next) ← scanEscape start c rest
          scanText start fuel next (x :: done)
      | x :: rest =>
          if x.toNat < 0x20 then c.fail .controlCharacter
          else scanText start fuel (c.advance 1 rest) (x :: done)

/-- A text whose opening quote the cursor has just passed. -/
def textAfterQuote (fuel : Nat) (c : Cursor) : Except Error (String × Cursor) :=
  scanText (c.position - 1) fuel c []

/-- The digits of a whole part: a zero alone, or digits that do not begin with one. -/
def wholeDigits (cs : List Char) : List Char :=
  match cs with
  | '0' :: _ => ['0']
  | cs => cs.takeWhile isDecimalDigit

/-- The digits after a point, none if the point is not followed by one. -/
def fractionDigits : List Char → List Char
  | '.' :: rest => rest.takeWhile isDecimalDigit
  | _ => []

def numberOf (negative : Bool) (whole fraction : List Char) (exponent : Int)
    (isInteger : Bool) : Except Error Number :=
  if isInteger then
    if Layout.digitLimit < whole.length then .error (.tooManyDigits whole.length)
    else .ok (.int (if negative then -(digitsValue whole : Int) else digitsValue whole))
  else .ok (.float ((Numeral.mk whole fraction exponent).toBinary64 negative))

/-- A number at the cursor. What cannot continue a number is left for what follows. -/
def scanNumber (c : Cursor) : Except Error (Number × Cursor) :=
  let negative := c.rest.head? == some '-'
  let signed := if negative then 1 else 0
  let whole := wholeDigits (c.rest.drop signed)
  if whole.isEmpty then c.fail .expectingValue
  else
    let fraction := fractionDigits (c.rest.drop (signed + whole.length))
    let pointed := if fraction.isEmpty then 0 else fraction.length + 1
    let size := signed + whole.length + pointed
    match Numeral.scanExponent (c.rest.drop size) with
    | some (exponent, taken) => do
        let n ← numberOf negative whole fraction exponent false
        return (n, c.advance (size + taken) (c.rest.drop (size + taken)))
    | none => do
        let n ← numberOf negative whole fraction 0 fraction.isEmpty
        return (n, c.advance size (c.rest.drop size))

mutual

def scanValue : Nat → Nat → Cursor → Except Error (Value × Cursor)
  | 0, _, c => c.fail .expectingValue
  | fuel + 1, depth, c =>
      match c.rest with
      | '"' :: rest => do
          let (s, next) ← textAfterQuote fuel (c.advance 1 rest)
          return (.text s, next)
      | '\x7b' :: rest =>
          match depth with
          | 0 => .error (.nestedTooDeep "object")
          | depth + 1 =>
              let next := (c.advance 1 rest).skipBlanks
              match next.rest with
              | '\x7d' :: rest => .ok (.record [], next.advance 1 rest)
              | _ => scanMembers fuel depth next []
      | '[' :: rest =>
          match depth with
          | 0 => .error (.nestedTooDeep "array")
          | depth + 1 =>
              let next := (c.advance 1 rest).skipBlanks
              match next.rest with
              | ']' :: rest => .ok (.list [], next.advance 1 rest)
              | _ => scanItems fuel depth next []
      | 'n' :: 'u' :: 'l' :: 'l' :: rest => .ok (.null, c.advance 4 rest)
      | 't' :: 'r' :: 'u' :: 'e' :: rest => .ok (.bool true, c.advance 4 rest)
      | 'f' :: 'a' :: 'l' :: 's' :: 'e' :: rest => .ok (.bool false, c.advance 5 rest)
      | 'N' :: 'a' :: 'N' :: rest => .ok (.float .nan, c.advance 3 rest)
      | 'I' :: 'n' :: 'f' :: 'i' :: 'n' :: 'i' :: 't' :: 'y' :: rest =>
          .ok (.float (.infinity false), c.advance 8 rest)
      | '-' :: 'I' :: 'n' :: 'f' :: 'i' :: 'n' :: 'i' :: 't' :: 'y' :: rest =>
          .ok (.float (.infinity true), c.advance 9 rest)
      | _ => do
          let (n, next) ← scanNumber c
          return (.number n, next)

/-- The items of an array from the cursor on, after those already read. -/
def scanItems : Nat → Nat → Cursor → List Value → Except Error (Value × Cursor)
  | 0, _, c, _ => c.fail .expectingValue
  | fuel + 1, depth, c, done => do
      let (v, after) ← scanValue fuel depth c
      let next := after.skipBlanks
      match next.rest with
      | ']' :: rest => return (.list (v :: done).reverse, next.advance 1 rest)
      | ',' :: rest => scanItems fuel depth (next.advance 1 rest).skipBlanks (v :: done)
      | _ => next.fail .expectingComma

/-- The members of an object from the cursor on, after those already read. -/
def scanMembers : Nat → Nat → Cursor → List (String × Value) → Except Error (Value × Cursor)
  | 0, _, c, _ => c.fail .expectingName
  | fuel + 1, depth, c, done =>
      match c.rest with
      | '"' :: rest => do
          let (name, afterName) ← textAfterQuote fuel (c.advance 1 rest)
          let colon := afterName.skipBlanks
          match colon.rest with
          | ':' :: rest =>
              let (v, after) ← scanValue fuel depth (colon.advance 1 rest).skipBlanks
              let entries := Value.insert name v done
              let next := after.skipBlanks
              match next.rest with
              | '\x7d' :: rest => return (.record entries, next.advance 1 rest)
              | ',' :: rest => scanMembers fuel depth (next.advance 1 rest).skipBlanks entries
              | _ => next.fail .expectingComma
          | _ => colon.fail .expectingColon
      | _ => c.fail .expectingName

end

/-- The value of a whole text. Nesting beyond the limit is refused. -/
def parse [Depth] (text : List Char) : Except Error Value :=
  match text with
  | '\ufeff' :: _ => .error (.malformed .byteOrderMark 0)
  | _ => do
      let start := (Cursor.mk 0 text).skipBlanks
      let (v, after) ← scanValue (2 * text.length + 2) Depth.brackets start
      let last := after.skipBlanks
      if last.rest.isEmpty then return v else last.fail .extraData

end VectorPath.Json
