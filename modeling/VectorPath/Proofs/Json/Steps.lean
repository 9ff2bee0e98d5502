import Mathlib.Data.Nat.Notation
import Mathlib.Tactic.SplitIfs
import VectorPath.Json.Reader

/-!
# The steps of the reader

What one call of each part of the reader comes to. A text goes on character by character, and an
array and an object go on in the same way after the opening bracket and after each of their parts.
-/

namespace VectorPath.Json

section Texts

variable {start fuel position unit : ℕ} {c : Cursor} {done rest : List Char} {a e : Char}

theorem scanUnicode_alone {digits more : List Char} (hdigits : hexUnit? digits = some (unit, more))
    (hpair : isHighUnit unit = true → ∀ tail, more ≠ '\\' :: 'u' :: tail) :
    scanUnicode c digits = .ok (unitChar unit, c.advance 6 more) := by
  unfold scanUnicode
  rw [hdigits]
  dsimp only
  split_ifs with hhigh
  · split
    next tail => exact absurd rfl (hpair hhigh tail)
    next => rfl
  · rfl

theorem scanUnicode_pair {digits tail : List Char}
    (hdigits : hexUnit? digits = some (unit, '\\' :: 'u' :: tail))
    (hhigh : isHighUnit unit = true) :
    scanUnicode c digits =
      if tail.length < 5 then .ok (unitChar unit, c.advance 6 ('\\' :: 'u' :: tail))
      else
        match hexUnit? tail with
        | none => .error (.malformed .invalidUnicodeEscape (c.position + 7))
        | some (second, rest) =>
            if isLowUnit second then .ok (pairChar unit second, c.advance 12 rest)
            else .ok (unitChar unit, c.advance 6 ('\\' :: 'u' :: tail)) := by
  unfold scanUnicode
  rw [hdigits]
  exact if_pos hhigh

theorem scanEscape_letter (h : escapeValue? e = some a) (c : Cursor) :
    scanEscape start c (e :: rest) = .ok (a, c.advance 2 rest) := by
  unfold scanEscape
  split
  next heq => cases heq
  next heq =>
    obtain ⟨rfl, -⟩ := List.cons.inj heq
    cases h
  next heq =>
    obtain ⟨rfl, rfl⟩ := List.cons.inj heq
    rw [h]

theorem scanEscape_invalid (hunit : e ≠ 'u') (he : escapeValue? e = none) (rest : List Char) :
    scanEscape start c (e :: rest) = c.fail .invalidEscape := by
  unfold scanEscape
  split
  next heq => cases heq
  next heq => exact absurd (List.cons.inj heq).1 hunit
  next heq =>
    obtain ⟨rfl, -⟩ := List.cons.inj heq
    rw [he]

theorem scanText_nil (h : c.rest = []) :
    scanText start fuel c done = .error (.malformed .unterminatedText start) := by
  cases fuel <;> simp [scanText, h]

theorem scanText_escape (start fuel position : ℕ) (rest done : List Char) :
    scanText start (fuel + 1) ⟨position, '\\' :: rest⟩ done =
      scanEscape start ⟨position, '\\' :: rest⟩ rest >>= fun (a, next) =>
        scanText start fuel next (a :: done) := by
  rw [scanText]
  rfl

theorem scanText_control (he : e.toNat < 0x20) :
    ∃ problem, scanText start (fuel + 1) ⟨position, e :: rest⟩ done =
      .error (.malformed problem position) := by
  have hquote : e ≠ '"' := by
    rintro rfl
    simp at he
  have hslash : e ≠ '\\' := by
    rintro rfl
    simp at he
  refine ⟨.controlCharacter, ?_⟩
  rw [scanText]
  simp [he, Cursor.fail]

theorem scanText_plain (hcontrol : ¬ e.toNat < 0x20) (hquote : e ≠ '"') (hslash : e ≠ '\\') :
    scanText start (fuel + 1) ⟨position, e :: rest⟩ done =
      scanText start fuel ⟨position + 1, rest⟩ (e :: done) := by
  rw [scanText]
  simp [hcontrol, Cursor.advance]

end Texts

/-- What a value begins with that is no number. -/
def openers : List (List Char) :=
  [['"'], ['\x7b'], ['['], ['n', 'u', 'l', 'l'], ['t', 'r', 'u', 'e'], ['f', 'a', 'l', 's', 'e'],
    ['N', 'a', 'N'], ['I', 'n', 'f', 'i', 'n', 'i', 't', 'y'],
    ['-', 'I', 'n', 'f', 'i', 'n', 'i', 't', 'y']]

/-- How a container goes on after its opening bracket: it ends at once or goes on with a part. -/
def afterBracket (close : Char) (empty : Value) (go : Cursor → Except Error (Value × Cursor))
    (next : Cursor) : Except Error (Value × Cursor) :=
  if next.rest.head? = some close then .ok (empty, next.advance 1 next.rest.tail) else go next

/-- How a container goes on after a part: it ends or goes on with another part. -/
def afterPart (close : Char) (whole : Value) (go : Cursor → Except Error (Value × Cursor))
    (next : Cursor) : Except Error (Value × Cursor) :=
  if next.rest.head? = some close then .ok (whole, next.advance 1 next.rest.tail)
  else if next.rest.head? = some ',' then go (next.advance 1 next.rest.tail).skipBlanks
  else next.fail .expectingComma

/-- How an object goes on after the name of a member. -/
def afterName (fuel depth : ℕ) (name : String) (done : List (String × Value)) (next : Cursor) :
    Except Error (Value × Cursor) :=
  if next.rest.head? = some ':' then
    scanValue fuel depth (next.advance 1 next.rest.tail).skipBlanks >>= fun (v, after) =>
      let entries := Value.insert name v done
      afterPart '\x7d' (.record entries) (fun c => scanMembers fuel depth c entries)
        after.skipBlanks
  else next.fail .expectingColon

section Values

variable {fuel depth position : ℕ} {c : Cursor}

theorem scanValue_nil (h : c.rest = []) :
    scanValue fuel depth c = .error (.malformed .expectingValue c.position) := by
  obtain ⟨position, cs⟩ := c
  obtain rfl : cs = [] := h
  cases fuel <;> rfl

theorem scanValue_number (h : ∀ word ∈ openers, ¬ word <+: c.rest) :
    scanValue (fuel + 1) depth c = do
      let (n, next) ← scanNumber c
      return (.number n, next) := by
  unfold scanValue
  split
  case h_10 => rfl
  all_goals
    next heq =>
      rw [heq] at h
      simp [openers] at h

theorem head?_ne {mark : Char} {cs : List Char} (h : ∀ rest, cs ≠ mark :: rest) :
    cs.head? ≠ some mark := by
  intro hhead
  obtain ⟨rest, hrest⟩ := List.head?_eq_some_iff.mp hhead
  exact h rest hrest

section Go

variable {close : Char} {v : Value} {go : Cursor → Except Error (Value × Cursor)}

theorem afterBracket_close (rest : List Char) :
    afterBracket close v go ⟨position, close :: rest⟩ = .ok (v, ⟨position + 1, rest⟩) :=
  if_pos rfl

theorem afterPart_close (rest : List Char) :
    afterPart close v go ⟨position, close :: rest⟩ = .ok (v, ⟨position + 1, rest⟩) :=
  if_pos rfl

theorem afterPart_comma (h : close ≠ ',') (rest : List Char) :
    afterPart close v go ⟨position, ',' :: rest⟩ = go (Cursor.skipBlanks ⟨position + 1, rest⟩) := by
  unfold afterPart
  rw [if_neg, if_pos]
  · rfl
  · rfl
  · simpa using Ne.symm h

theorem afterBracket_go (h : ∀ rest, c.rest ≠ close :: rest) : afterBracket close v go c = go c :=
  if_neg (head?_ne h)

theorem afterPart_fail (hclose : ∀ rest, c.rest ≠ close :: rest)
    (hcomma : ∀ rest, c.rest ≠ ',' :: rest) :
    afterPart close v go c = c.fail .expectingComma := by
  unfold afterPart
  rw [if_neg (head?_ne hclose), if_neg (head?_ne hcomma)]

end Go

theorem scanValue_list (fuel depth position : ℕ) (rest : List Char) :
    scanValue (fuel + 1) (depth + 1) ⟨position, '[' :: rest⟩ =
      afterBracket ']' (.list []) (fun c => scanItems fuel depth c [])
        (Cursor.skipBlanks ⟨position + 1, rest⟩) := by
  simp only [scanValue, afterBracket, Cursor.advance]
  split
  next heq => simp [heq]
  next h => rw [if_neg (head?_ne h)]

theorem scanValue_record (fuel depth position : ℕ) (rest : List Char) :
    scanValue (fuel + 1) (depth + 1) ⟨position, '\x7b' :: rest⟩ =
      afterBracket '\x7d' (.record []) (fun c => scanMembers fuel depth c [])
        (Cursor.skipBlanks ⟨position + 1, rest⟩) := by
  simp only [scanValue, afterBracket, Cursor.advance]
  split
  next heq => simp [heq]
  next h => rw [if_neg (head?_ne h)]

theorem scanItems_succ (fuel depth : ℕ) (c : Cursor) (done : List Value) :
    scanItems (fuel + 1) depth c done =
      scanValue fuel depth c >>= fun (v, after) =>
        afterPart ']' (.list (v :: done).reverse) (fun c => scanItems fuel depth c (v :: done))
          after.skipBlanks := by
  rw [scanItems]
  refine bind_congr fun (v, after) => ?_
  simp only [afterPart]
  split
  next heq =>
    simp [heq]
    rfl
  next heq => simp [heq]
  next hclose hcomma => rw [if_neg (head?_ne hclose), if_neg (head?_ne hcomma)]

theorem scanMembers_name (fuel depth position : ℕ) (rest : List Char)
    (done : List (String × Value)) :
    scanMembers (fuel + 1) depth ⟨position, '"' :: rest⟩ done =
      textAfterQuote fuel ⟨position + 1, rest⟩ >>= fun (name, after) =>
        afterName fuel depth name done after.skipBlanks := by
  rw [scanMembers]
  refine bind_congr fun (name, after) => ?_
  simp only [afterName]
  split
  next heq =>
    rw [heq, List.head?_cons, if_pos rfl]
    refine bind_congr fun (v, after) => ?_
    simp only [afterPart]
    split
    next heq =>
      simp [heq]
      rfl
    next heq => simp [heq]
    next hclose hcomma => rw [if_neg (head?_ne hclose), if_neg (head?_ne hcomma)]
  next h => rw [if_neg (head?_ne h)]

theorem afterName_colon (fuel depth position : ℕ) (name : String) (done : List (String × Value))
    (rest : List Char) :
    afterName fuel depth name done ⟨position, ':' :: rest⟩ =
      scanValue fuel depth (Cursor.skipBlanks ⟨position + 1, rest⟩) >>= fun (v, after) =>
        afterPart '\x7d' (.record (Value.insert name v done))
          (fun c => scanMembers fuel depth c (Value.insert name v done)) after.skipBlanks := rfl

theorem afterName_fail (hcolon : ∀ rest, c.rest ≠ ':' :: rest) (name : String)
    (done : List (String × Value)) :
    afterName fuel depth name done c = c.fail .expectingColon :=
  if_neg (head?_ne hcolon)

theorem scanMembers_fail (hquote : ∀ rest, c.rest ≠ '"' :: rest)
    (done : List (String × Value)) :
    scanMembers (fuel + 1) depth c done = c.fail .expectingName := by
  unfold scanMembers
  split
  next rest heq => exact absurd heq (hquote rest)
  next => rfl

end Values

end VectorPath.Json
