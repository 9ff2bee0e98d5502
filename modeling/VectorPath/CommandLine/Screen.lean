import VectorPath.Text.Width

/-!
# Text on a screen

Text shown to a person has no control characters that would ring, move back or feed a page. A tab
is shown as a space, and as many more as reach the next multiple of eight cells of the line.
-/

namespace VectorPath.CommandLine

/-- Bell, backspace, vertical tab, form feed and carriage return. -/
def isDropped (c : Char) : Bool := [7, 8, 11, 12, 13].contains c.toNat

def tabWidth : Nat := 8

/-- How many cells lie between a column and the next multiple of the tab width. -/
def cellsToTab (column : Nat) : Nat := (tabWidth - column % tabWidth) % tabWidth

/-- Fills tabs with spaces. The characters since the last tab are given in reverse order, with the
column where they begin. -/
def fillTabs : Nat → List Char → List Char → List Char
  | _, since, [] => since.reverse
  | start, since, c :: rest =>
      if c = '\t' then
        let part := (' ' :: since).reverse
        let column := start + Text.cells part
        part ++ List.replicate (cellsToTab column) ' ' ++
          fillTabs (column + cellsToTab column) [] rest
      else if c = '\n' then since.reverse ++ '\n' :: fillTabs 0 [] rest
      else fillTabs start (c :: since) rest

def shown (s : String) : String :=
  String.ofList (fillTabs 0 [] (s.toList.filter fun c => !isDropped c))

end VectorPath.CommandLine
