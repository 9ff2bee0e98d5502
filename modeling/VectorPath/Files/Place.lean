import VectorPath.Value.Display

/-!
# Places

A place is the name of a file as a root and its parts. Empty parts and parts that are a single
dot are dropped when a place is read, so two texts with the same parts name the same place; parts
that are two dots stay. The place without parts is written as a dot.
-/

namespace VectorPath

structure Place where
  /-- Nothing for a place in the working directory, one slash or exactly two otherwise. -/
  root : String
  parts : List String
  deriving DecidableEq, Inhabited, Repr

namespace Place

/-- The leading slashes: more than two count as one. -/
def rootOf : List Char → String
  | '/' :: '/' :: '/' :: _ => "/"
  | '/' :: '/' :: _ => "//"
  | '/' :: _ => "/"
  | _ => ""

def segments : List Char → List Char → List String
  | [], current => [String.ofList current.reverse]
  | c :: rest, current =>
      if c = '/' then String.ofList current.reverse :: segments rest []
      else segments rest (c :: current)

def ofText (s : String) : Place :=
  ⟨rootOf s.toList, (segments s.toList []).filter fun part => part != "" && part != "."⟩

def toText (p : Place) : String :=
  let joined := p.root ++ joinWith "/" p.parts
  if joined = "" then "." else joined

/-- Whether the text of a place holds the null character, which no name of a file has. -/
def hasNul (p : Place) : Bool := p.toText.toList.contains '\x00'

def standardInput : Place := ⟨"", ["-"]⟩

end Place

end VectorPath
