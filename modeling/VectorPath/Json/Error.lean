import VectorPath.Number.Layout

/-!
# Faults of a JSON text

What stops the reader and where. Positions count code points from zero; a message adds the line
and the column, which count from one, and lines end at line feeds.
-/

namespace VectorPath.Json

inductive Problem
  | expectingValue
  | expectingName
  | expectingColon
  | expectingComma
  | unterminatedText
  | controlCharacter
  | invalidEscape
  | invalidUnicodeEscape
  | extraData
  | byteOrderMark
  deriving DecidableEq, Repr

inductive Error
  | malformed (problem : Problem) (position : Nat)
  | tooManyDigits (count : Nat)
  | nestedTooDeep (container : String)
  deriving DecidableEq, Repr

def Problem.message : Problem → String
  | .expectingValue => "Expecting value"
  | .expectingName => "Expecting property name enclosed in double quotes"
  | .expectingColon => "Expecting ':' delimiter"
  | .expectingComma => "Expecting ',' delimiter"
  | .unterminatedText => "Unterminated string starting at"
  | .controlCharacter => "Invalid control character at"
  | .invalidEscape => "Invalid \\escape"
  | .invalidUnicodeEscape => "Invalid \\uXXXX escape"
  | .extraData => "Extra data"
  | .byteOrderMark => "Unexpected UTF-8 BOM (decode using utf-8-sig)"

/-- The line of a position: one more than the line feeds before it. -/
def lineOf (text : List Char) (position : Nat) : Nat :=
  ((text.take position).filter (· == '\n')).length + 1

/-- The column of a position: its distance from the last line feed before it. -/
def columnOf (text : List Char) (position : Nat) : Nat :=
  ((text.take position).reverse.takeWhile (· != '\n')).length + 1

def placeText (text : List Char) (position : Nat) : String :=
  "line " ++ toString (lineOf text position) ++ " column " ++ toString (columnOf text position) ++
    " (char " ++ toString position ++ ")"

def Error.message (text : List Char) : Error → String
  | .malformed problem position => problem.message ++ ": " ++ placeText text position
  | .tooManyDigits count => Layout.numeralLimitText count
  | .nestedTooDeep container => "too many nested levels of " ++ container

end VectorPath.Json
