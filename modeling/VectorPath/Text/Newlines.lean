/-!
# Line ends

Text read from a file ends its lines with a line feed: a carriage return followed by one is
dropped, and a carriage return alone becomes one.
-/

namespace VectorPath.Text

/-- Every line end as a line feed. -/
def unifyNewlines : List Char → List Char
  | [] => []
  | '\r' :: '\n' :: rest => '\n' :: unifyNewlines rest
  | '\r' :: rest => '\n' :: unifyNewlines rest
  | c :: rest => c :: unifyNewlines rest

/-- A text with every line end as a line feed. -/
def withUnifiedNewlines (s : String) : String :=
  String.ofList (unifyNewlines s.toList)

end VectorPath.Text
