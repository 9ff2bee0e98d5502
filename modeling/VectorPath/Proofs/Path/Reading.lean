import VectorPath.Proofs.Number.Written
import VectorPath.Proofs.Path.Tokens

/-!
# Reading path text

A reader for the text that is written with the default settings. It goes by the letters alone: a
letter fixes the fields that follow and what separates them, and a number ends at the next blank
or comma. Reading what has been written gives back the letter and the flags of every command, in
order, and numbers of the same values. So no text is written for two paths that differ in more
than the form of their numbers.
-/

namespace VectorPath

def Number.ofUnsigned? (negative : Bool) (cs : List Char) : Option Number :=
  if cs = ['I', 'n', 'f', 'i', 'n', 'i', 't', 'y'] then some (.float (.infinity negative))
  else (Numeral.ofText? cs).map (ofNumeral negative)

/-- The number of a text without blanks and commas. -/
def Number.ofPathText? : List Char → Option Number
  | '-' :: cs => ofUnsigned? true cs
  | cs => if cs = ['N', 'a', 'N'] then some (.float .nan) else ofUnsigned? false cs

namespace PathReader

/-- Whether a character goes on with a number; the others separate. -/
def goesOn (c : Char) : Bool := c != ' ' && c != ','

def number (cs : List Char) : Option (Number × List Char) :=
  (Number.ofPathText? (cs.takeWhile goesOn)).map fun n => (n, cs.dropWhile goesOn)

def after : List Char → List Char → Option (List Char)
  | [], cs => some cs
  | c :: expected, d :: cs => if c = d then after expected cs else none
  | _ :: _, [] => none

def point (cs : List Char) : Option (Point × List Char) := do
  let (x, cs) ← number cs
  let cs ← after [' '] cs
  let (y, cs) ← number cs
  return (⟨.number x, .number y⟩, cs)

def flag : List Char → Option (Bool × List Char)
  | '0' :: cs => some (false, cs)
  | '1' :: cs => some (true, cs)
  | _ => none

def parameter (sort : FieldSort) (cs : List Char) : Option (Parameter × List Char) :=
  match sort with
  | .point => (point cs).map fun r => (.point r.1, r.2)
  | .number => (number cs).map fun r => (.number (.number r.1), r.2)
  | .flag => (flag cs).map fun r => (.flag (.bool r.1), r.2)

/-- Fields with a separator between them. -/
def parameters (separator : List Char) :
    List FieldSort → List Char → Option (List Parameter × List Char)
  | [], cs => some ([], cs)
  | [sort], cs => (parameter sort cs).map fun r => ([r.1], r.2)
  | sort :: sorts, cs => do
      let (p, cs) ← parameter sort cs
      let cs ← after separator cs
      let (ps, cs) ← parameters separator sorts cs
      return (p :: ps, cs)

def command : List Char → Option (Command × List Char)
  | [] => none
  | c :: cs => do
      let form ← Form.ofLetter? (String.singleton c)
      let (ps, cs) ← parameters (WritingSettings.separator form.kind).toList
        (form.fields.map Prod.snd) cs
      let d ← Command.ofParameters? form ps
      return (d, cs)

/-- At most so many commands with a space between them. -/
def commands : ℕ → List Char → Option (List Command)
  | 0, _ => none
  | fuel + 1, cs => do
      let (c, rest) ← command cs
      match rest with
      | [] => return [c]
      | ' ' :: rest => return c :: (← commands fuel rest)
      | _ => none

/-- The commands of a path text, of which there are no more than it has characters. -/
def read (text : String) : Option (List Command) :=
  if text.toList = [] then some [] else commands text.toList.length text.toList

end PathReader

/-- Both count as numbers, and these are equal in value. -/
def Value.SameNumber (v w : Value) : Prop :=
  ∃ a b, v.number? = some a ∧ w.number? = some b ∧ a.Agrees b

/-- Fields of one sort: numbers equal in value, flags of the same truth. -/
inductive Parameter.Agrees : Parameter → Parameter → Prop
  | point {p q : Point} : p.x.SameNumber q.x → p.y.SameNumber q.y → Agrees (.point p) (.point q)
  | number {v w : Value} : v.SameNumber w → Agrees (.number v) (.number w)
  | flag {v w : Value} : v.truth = w.truth → Agrees (.flag v) (.flag w)

/-- Commands of one letter whose fields agree. -/
def Command.Agrees (c d : Command) : Prop :=
  c.letter = d.letter ∧ List.Forall₂ Parameter.Agrees c.parameters d.parameters

theorem Value.SameNumber.symm {v w : Value} (h : v.SameNumber w) : w.SameNumber v := by
  obtain ⟨a, b, ha, hb, hab⟩ := h
  rw [Number.agrees_iff] at hab
  exact ⟨b, a, hb, ha, (Number.agrees_iff b a).mpr hab.symm⟩

theorem Value.SameNumber.trans {u v w : Value} (h : u.SameNumber v) (h' : v.SameNumber w) :
    u.SameNumber w := by
  obtain ⟨a, b, ha, hb, hab⟩ := h
  obtain ⟨b', c, hb', hc, hbc⟩ := h'
  obtain rfl : b = b' := Option.some.inj (hb.symm.trans hb')
  rw [Number.agrees_iff] at hab hbc
  exact ⟨a, c, ha, hc, (Number.agrees_iff a c).mpr (hab.trans hbc)⟩

theorem Parameter.Agrees.symm {p q : Parameter} (h : p.Agrees q) : q.Agrees p := by
  cases h with
  | point hx hy => exact .point hx.symm hy.symm
  | number hv => exact .number hv.symm
  | flag ht => exact .flag ht.symm

theorem Parameter.Agrees.trans {p q r : Parameter} (h : p.Agrees q) (h' : q.Agrees r) :
    p.Agrees r := by
  cases h with
  | point hx hy =>
      cases h' with
      | point hx' hy' => exact .point (hx.trans hx') (hy.trans hy')
  | number hv =>
      cases h' with
      | number hv' => exact .number (hv.trans hv')
  | flag ht =>
      cases h' with
      | flag ht' => exact .flag (ht.trans ht')

theorem Command.Agrees.symm {c d : Command} (h : c.Agrees d) : d.Agrees c :=
  ⟨h.1.symm, (h.2.imp fun _ _ hp => Parameter.Agrees.symm hp).flip⟩

theorem forall₂_trans {α : Type} {R : α → α → Prop} (hR : ∀ a b c, R a b → R b c → R a c)
    {xs ys zs : List α} (h : List.Forall₂ R xs ys) (h' : List.Forall₂ R ys zs) :
    List.Forall₂ R xs zs := by
  induction h generalizing zs with
  | nil => exact h'
  | cons hab _ ih =>
      cases h' with
      | cons hbc htail => exact .cons (hR _ _ _ hab hbc) (ih htail)

theorem Command.Agrees.trans {c d f : Command} (h : c.Agrees d) (h' : d.Agrees f) :
    c.Agrees f :=
  ⟨h.1.trans h'.1,
    forall₂_trans (R := Parameter.Agrees) (fun _ _ _ => Parameter.Agrees.trans) h.2 h'.2⟩

namespace PathReader

/-- A text without separators that is read as a number of the value. -/
def Reads (v : Value) (t : List Char) : Prop :=
  (∀ c ∈ t, goesOn c = true) ∧
    ∃ a b, v.number? = some a ∧ Number.ofPathText? t = some b ∧ a.Agrees b

theorem goesOn_of_digit {c : Char} (h : isDecimalDigit c = true) : goesOn c = true := by
  unfold goesOn
  simp only [Bool.and_eq_true, bne_iff_ne, ne_eq]
  constructor
  · rintro rfl
    simp [isDecimalDigit] at h
  · rintro rfl
    simp [isDecimalDigit] at h

theorem goesOn_minus (s : Bool) : ∀ c ∈ Layout.minus s, goesOn c = true :=
  List.all_eq_true.mp (by cases s <;> decide)

theorem goesOn_exponentPart (e : ℤ) : ∀ c ∈ Numeral.exponentPart e, goesOn c = true := by
  unfold Numeral.exponentPart
  split_ifs with he
  · simp
  · intro c hc
    rcases List.mem_cons.mp hc with rfl | hc
    · decide
    · rcases List.mem_cons.mp hc with rfl | hc
      · split_ifs <;> decide
      · exact goesOn_of_digit (Numeral.isDecimalDigit_exponentDigits _ c hc)

theorem goesOn_fractionText {cs : List Char} (h : ∀ c ∈ cs, isDecimalDigit c = true) :
    ∀ c ∈ Numeral.fractionText cs, goesOn c = true := by
  rcases cs with _ | ⟨d, cs⟩
  · simp [Numeral.fractionText]
  · intro c hc
    rcases List.mem_cons.mp hc with rfl | hc
    · decide
    · exact goesOn_of_digit (h c hc)

theorem goesOn_text {x : Numeral} (hx : x.IsPlain) : ∀ c ∈ x.text, goesOn c = true := by
  intro c hc
  unfold Numeral.text at hc
  rcases List.mem_append.mp hc with hc | hc
  · exact goesOn_of_digit (hx.whole_digits c hc)
  · rcases List.mem_append.mp hc with hc | hc
    · exact goesOn_fractionText hx.fraction_digits c hc
    · exact goesOn_exponentPart x.exponent c hc

/-- The text of a numeral is none of the words, because it begins with a digit. -/
theorem ofUnsigned?_text {x : Numeral} (hx : x.IsPlain) (s : Bool) :
    Number.ofUnsigned? s x.text = some (Number.ofNumeral s x) ∧
      ∃ c cs, x.text = c :: cs ∧ isDecimalDigit c = true := by
  obtain ⟨c, cs, hc⟩ : ∃ c cs, x.whole = c :: cs := List.exists_cons_of_ne_nil hx.whole_ne
  have hdigit : isDecimalDigit c = true :=
    hx.whole_digits c (by rw [hc]; exact List.mem_cons_self ..)
  have htext : x.text = c :: (cs ++ (Numeral.fractionText x.fraction ++
      Numeral.exponentPart x.exponent)) := by
    unfold Numeral.text
    rw [hc]
    rfl
  refine ⟨?_, c, _, htext, hdigit⟩
  unfold Number.ofUnsigned?
  rw [if_neg, Numeral.ofText?_text hx]
  · rfl
  · rw [htext]
    intro h
    obtain rfl : c = 'I' := (List.cons.inj h).1
    simp [isDecimalDigit] at hdigit

theorem ofPathText?_text {x : Numeral} (hx : x.IsPlain) (s : Bool) :
    Number.ofPathText? (Layout.minus s ++ x.text) = some (Number.ofNumeral s x) := by
  obtain ⟨hread, c, cs, htext, hdigit⟩ := ofUnsigned?_text hx s
  rcases s with _ | _
  · have hminus : c ≠ '-' := by
      rintro rfl
      simp [isDecimalDigit] at hdigit
    have hword : c :: cs ≠ ['N', 'a', 'N'] := by
      intro h
      obtain rfl : c = 'N' := (List.cons.inj h).1
      simp [isDecimalDigit] at hdigit
    change Number.ofPathText? x.text = _
    rw [htext] at hread ⊢
    unfold Number.ofPathText?
    split
    · rename_i heq
      exact absurd (List.cons.inj heq).1 hminus
    · rw [if_neg hword, hread]
  · exact hread

/-- Whatever stands for a number is read as a number of that value. -/
theorem reads_pathText {v : Value} {n : Number} (hv : v.number? = some n) :
    Reads v n.pathText.toList := by
  by_cases hn : n.isFinite = true
  · obtain ⟨s, x, h⟩ := exists_writtenAs hn
    rw [h.text, String.toList_ofList]
    refine ⟨?_, n, _, hv, ofPathText?_text h.plain s, h.agrees⟩
    intro c hc
    rcases List.mem_append.mp hc with hc | hc
    · exact goesOn_minus s c hc
    · exact goesOn_text h.plain c hc
  · rcases n with i | x
    · exact absurd rfl hn
    · rcases x with _ | s | ⟨s, m, e, h⟩
      · refine ⟨List.all_eq_true.mp (by decide), .float .nan, .float .nan, hv, by rfl, ?_⟩
        rw [Number.agrees_iff]
      · refine ⟨List.all_eq_true.mp ?_, .float (.infinity s), .float (.infinity s), hv, ?_, ?_⟩
        · cases s <;> decide
        · cases s <;> rfl
        · rw [Number.agrees_iff]
      · exact absurd rfl hn

theorem default_number (v : Value) : ({} : WritingSettings).number v = numberText v := by
  have hpass : ({} : WritingSettings).allow v = .ok () := by
    rcases v with _ | _ | (_ | _) | _ | _ | _ | _ | _ | _ <;> rfl
  unfold WritingSettings.number
  rw [hpass]
  rfl

theorem default_writes {v : Value} (h : v.HasText) : ({} : WritingSettings).Writes Reads v := by
  obtain ⟨n, hv, hn⟩ := h
  exact ⟨n.pathText, by rw [default_number, numberText_eq hv hn], reads_pathText hv⟩

/-- What follows does not go on with a number. -/
def Ends (rest : List Char) : Prop := ∀ c, rest.head? = some c → goesOn c = false

theorem ends_nil : Ends [] := by
  intro c h
  simp at h

theorem ends_space (cs : List Char) : Ends (' ' :: cs) := by
  intro c h
  obtain rfl : ' ' = c := by simpa using h
  decide

theorem ends_comma (cs : List Char) : Ends (',' :: cs) := by
  intro c h
  obtain rfl : ',' = c := by simpa using h
  decide

section Fields

variable {rest : List Char}

theorem number_append {v : Value} {t : List Char} (h : Reads v t) (hrest : Ends rest) :
    ∃ n, number (t ++ rest) = some (n, rest) ∧ v.SameNumber (.number n) := by
  obtain ⟨hgo, a, b, hv, hread, hab⟩ := h
  refine ⟨b, ?_, a, b, hv, rfl, hab⟩
  unfold number
  rw [List.takeWhile_append_of_pos hgo, List.dropWhile_append_of_pos hgo]
  rcases rest with _ | ⟨c, cs⟩
  · simp [hread]
  · have hc : ¬ goesOn c = true := by simp [hrest c rfl]
    simp [hc, hread]

theorem after_append (expected : List Char) : after expected (expected ++ rest) = some rest := by
  induction expected with
  | nil => rfl
  | cons c expected ih =>
      rw [List.cons_append, after, if_pos rfl]
      exact ih

theorem point_append {p : Point} {t : List Char} (h : PointText Reads p t) (hrest : Ends rest) :
    ∃ q, point (t ++ rest) = some (q, rest) ∧ p.x.SameNumber q.x ∧ p.y.SameNumber q.y := by
  cases h with
  | @mk t u hx hy =>
      obtain ⟨x, hreadx, hsamex⟩ := number_append hx (ends_space (u ++ rest))
      obtain ⟨y, hready, hsamey⟩ := number_append hy hrest
      refine ⟨⟨.number x, .number y⟩, ?_, hsamex, hsamey⟩
      rw [List.append_assoc, List.cons_append]
      unfold point
      simp [hreadx, hready, after]

theorem flag_cons (v : Value) : flag (flagDigit v :: rest) = some (v.truth, rest) := by
  unfold flagDigit
  cases v.truth <;> rfl

theorem parameter_point {p : Point} {t : List Char} (h : PointText Reads p t)
    (hrest : Ends rest) :
    ∃ q, parameter .point (t ++ rest) = some (.point q, rest) ∧
      Parameter.Agrees (.point p) (.point q) := by
  obtain ⟨q, hread, hx, hy⟩ := point_append h hrest
  exact ⟨q, by simp [parameter, hread], .point hx hy⟩

theorem parameter_number {v : Value} {t : List Char} (h : Reads v t) (hrest : Ends rest) :
    ∃ w, parameter .number (t ++ rest) = some (.number w, rest) ∧
      Parameter.Agrees (.number v) (.number w) := by
  obtain ⟨n, hread, hv⟩ := number_append h hrest
  exact ⟨.number n, by simp [parameter, hread], .number hv⟩

theorem parameter_flag (v : Value) (rest : List Char) :
    parameter .flag (flagDigit v :: rest) = some (.flag (.bool v.truth), rest) ∧
      Parameter.Agrees (.flag v) (.flag (.bool v.truth)) :=
  ⟨by simp [parameter, flag_cons], .flag rfl⟩

theorem parameters_single {separator cs : List Char} {sort : FieldSort} {p : Parameter}
    (h : parameter sort cs = some (p, rest)) :
    parameters separator [sort] cs = some ([p], rest) := by
  simp [parameters, h]

theorem parameters_cons {separator cs more : List Char} {sort next : FieldSort}
    {sorts : List FieldSort} {p : Parameter} {ps : List Parameter}
    (h : parameter sort cs = some (p, separator ++ more))
    (hs : parameters separator (next :: sorts) more = some (ps, rest)) :
    parameters separator (sort :: next :: sorts) cs = some (p :: ps, rest) := by
  simp [parameters, h, hs, after_append]

theorem comma_toList : ", ".toList = [',', ' '] := by simp

theorem space_toList : " ".toList = [' '] := by simp

/-- The fields of a shape are read up to what follows them, and are fields of its kind. -/
theorem shape_append {shape : Shape} {t : List Char} (h : ShapeText Reads shape t)
    (hrest : Ends rest) :
    ∃ found : Shape, parameters (WritingSettings.separator shape.kind).toList
        (shape.kind.fields.map Prod.snd) (t ++ rest) = some (found.parameters, rest) ∧
      found.kind = shape.kind ∧
      List.Forall₂ Parameter.Agrees shape.parameters found.parameters := by
  cases h with
  | moveTo ht =>
      obtain ⟨p, hp, hagrees⟩ := parameter_point ht hrest
      exact ⟨.moveTo p, parameters_single hp, rfl, .cons hagrees .nil⟩
  | lineTo ht =>
      obtain ⟨p, hp, hagrees⟩ := parameter_point ht hrest
      exact ⟨.lineTo p, parameters_single hp, rfl, .cons hagrees .nil⟩
  | horizontalLineTo ht =>
      obtain ⟨x, hx, hagrees⟩ := parameter_number ht hrest
      exact ⟨.horizontalLineTo x, parameters_single hx, rfl, .cons hagrees .nil⟩
  | verticalLineTo ht =>
      obtain ⟨y, hy, hagrees⟩ := parameter_number ht hrest
      exact ⟨.verticalLineTo y, parameters_single hy, rfl, .cons hagrees .nil⟩
  | closePath => exact ⟨.closePath, rfl, rfl, .nil⟩
  | curveTo ht hu hv =>
      obtain ⟨c, hc, hagreesc⟩ := parameter_point ht (ends_comma _)
      obtain ⟨d, hd, hagreesd⟩ := parameter_point hu (ends_comma _)
      obtain ⟨p, hp, hagreesp⟩ := parameter_point hv hrest
      refine ⟨.curveTo c d p, ?_, rfl, .cons hagreesc (.cons hagreesd (.cons hagreesp .nil))⟩
      change parameters ", ".toList [.point, .point, .point] _ = _
      rw [comma_toList]
      simp only [List.append_assoc, List.cons_append]
      exact parameters_cons hc (parameters_cons hd (parameters_single hp))
  | smoothCurveTo ht hu =>
      obtain ⟨d, hd, hagreesd⟩ := parameter_point ht (ends_comma _)
      obtain ⟨p, hp, hagreesp⟩ := parameter_point hu hrest
      refine ⟨.smoothCurveTo d p, ?_, rfl, .cons hagreesd (.cons hagreesp .nil)⟩
      change parameters ", ".toList [.point, .point] _ = _
      rw [comma_toList]
      simp only [List.append_assoc, List.cons_append]
      exact parameters_cons hd (parameters_single hp)
  | quadraticCurveTo ht hu =>
      obtain ⟨c, hc, hagreesc⟩ := parameter_point ht (ends_comma _)
      obtain ⟨p, hp, hagreesp⟩ := parameter_point hu hrest
      refine ⟨.quadraticCurveTo c p, ?_, rfl, .cons hagreesc (.cons hagreesp .nil)⟩
      change parameters ", ".toList [.point, .point] _ = _
      rw [comma_toList]
      simp only [List.append_assoc, List.cons_append]
      exact parameters_cons hc (parameters_single hp)
  | smoothQuadraticCurveTo ht =>
      obtain ⟨p, hp, hagrees⟩ := parameter_point ht hrest
      exact ⟨.smoothQuadraticCurveTo p, parameters_single hp, rfl, .cons hagrees .nil⟩
  | @arcTo r p a l k t u v ht hu hv =>
      obtain ⟨r, hr, hagreesr⟩ := parameter_point ht (ends_space _)
      obtain ⟨a, ha, hagreesa⟩ := parameter_number hu (ends_space _)
      obtain ⟨p, hp, hagreesp⟩ := parameter_point hv hrest
      obtain ⟨hl, hagreesl⟩ := parameter_flag l (' ' :: flagDigit k :: ' ' :: (v ++ rest))
      obtain ⟨hk, hagreesk⟩ := parameter_flag k (' ' :: (v ++ rest))
      refine ⟨.arcTo r a (.bool l.truth) (.bool k.truth) p, ?_, rfl,
        .cons hagreesr (.cons hagreesa (.cons hagreesl (.cons hagreesk (.cons hagreesp .nil))))⟩
      change parameters " ".toList [.point, .number, .flag, .flag, .point] _ = _
      rw [space_toList]
      simp only [List.append_assoc, List.cons_append]
      exact parameters_cons hr (parameters_cons ha (parameters_cons hl (parameters_cons hk
        (parameters_single hp))))

theorem command_append {c : Command} {t : List Char} (h : CommandText Reads c t)
    (hrest : Ends rest) : ∃ d, command (t ++ rest) = some (d, rest) ∧ c.Agrees d := by
  obtain ⟨hshape⟩ := h
  obtain ⟨found, hread, hkind, hagrees⟩ := shape_append hshape hrest
  have hletter : Form.ofLetter? (String.singleton c.letter) = some c.form := Form.ofLetter?_letter _
  have hfound : Command.ofParameters? c.form found.parameters = some ⟨c.relative, found⟩ := by
    unfold Command.ofParameters? Command.form
    rw [← hkind, Shape.ofParameters?_parameters]
    rfl
  refine ⟨⟨c.relative, found⟩, ?_, ?_, hagrees⟩
  · have hfields : parameters (WritingSettings.separator c.form.kind).toList
        (c.form.fields.map Prod.snd) _ = some (found.parameters, rest) := hread
    rw [List.cons_append]
    unfold command
    simp [hletter, hfields, hfound]
  · unfold Command.letter Command.form
    rw [hkind]

end Fields

theorem commands_pathText {c : Command} {cs : List Command} {t : List Char}
    (h : PathText Reads (c :: cs) t) {fuel : ℕ} (hfuel : t.length ≤ fuel) :
    ∃ ds, commands fuel t = some ds ∧ List.Forall₂ Command.Agrees (c :: cs) ds := by
  -- The induction is on the layout; every command takes at least its letter from the fuel.
  generalize hlist : c :: cs = list at h
  induction h generalizing c cs fuel with
  | empty => simp at hlist
  | single hc =>
      obtain ⟨rfl, rfl⟩ := List.cons.inj hlist
      obtain ⟨d, hd, hagrees⟩ := command_append hc ends_nil
      rw [List.append_nil] at hd
      obtain ⟨hshape⟩ := hc
      obtain ⟨k, rfl⟩ : ∃ k, fuel = k + 1 := ⟨fuel - 1, by simp at hfuel; omega⟩
      exact ⟨[d], by simp [commands, hd], .cons hagrees .nil⟩
  | @cons c₁ c₂ cs₂ t u hc hcs ih =>
      obtain ⟨rfl, rfl⟩ := List.cons.inj hlist
      obtain ⟨d, hd, hagrees⟩ := command_append hc (ends_space u)
      have hlength : u.length + 1 ≤ fuel := by
        rw [List.length_append, List.length_cons] at hfuel
        omega
      obtain ⟨k, rfl⟩ : ∃ k, fuel = k + 1 := ⟨fuel - 1, by omega⟩
      obtain ⟨ds, hds, hagrees'⟩ := ih (by omega : u.length ≤ k) rfl
      exact ⟨d :: ds, by simp [commands, hd, hds], .cons hagrees hagrees'⟩

theorem pathText_ne_nil {N : Value → List Char → Prop} {c : Command} {cs : List Command}
    {t : List Char} (h : PathText N (c :: cs) t) : t ≠ [] := by
  cases h with
  | single hc =>
      obtain ⟨hshape⟩ := hc
      exact List.cons_ne_nil _ _
  | cons hc hcs => simp

theorem read_pathText {cs : List Command} {text : String} (h : PathText Reads cs text.toList) :
    ∃ ds, read text = some ds ∧ List.Forall₂ Command.Agrees cs ds := by
  unfold read
  generalize text.toList = t at h
  rcases cs with _ | ⟨c, cs⟩
  · cases h with
    | empty => exact ⟨[], rfl, .nil⟩
  · rw [if_neg (pathText_ne_nil h)]
    exact commands_pathText h le_rfl

end PathReader

/-- Every number field and coordinate is a number that has a text. -/
def Command.HasNumberTexts (c : Command) : Prop := ∀ v ∈ c.numbers, v.HasText

theorem read_pathOf {cs : List Command} (h : ∀ c ∈ cs, c.HasNumberTexts) :
    ∃ text ds, ({} : WritingSettings).pathOf (.list (cs.map Command.toValue)) = .ok text ∧
      PathReader.read text = some ds ∧ List.Forall₂ Command.Agrees cs ds := by
  obtain ⟨text, hwritten, hlayout⟩ :=
    WritingSettings.commands_written fun c hc v hv => PathReader.default_writes (h c hc v hv)
  obtain ⟨ds, hread, hagrees⟩ := PathReader.read_pathText hlayout
  exact ⟨text, ds, by rw [WritingSettings.pathOf_toValue, hwritten], hread, hagrees⟩

/-- The text of a path is read back as commands that agree with those written, and every path
with that text agrees with them too. -/
theorem path_text_determines_path {cs : List Command} (h : ∀ c ∈ cs, c.HasNumberTexts) :
    (∃ text ds, ({} : WritingSettings).pathOf (.list (cs.map Command.toValue)) = .ok text ∧
      PathReader.read text = some ds ∧ List.Forall₂ Command.Agrees cs ds) ∧
    ∀ cs' : List Command, (∀ c ∈ cs', c.HasNumberTexts) →
      ({} : WritingSettings).pathOf (.list (cs'.map Command.toValue)) =
        ({} : WritingSettings).pathOf (.list (cs.map Command.toValue)) →
      List.Forall₂ Command.Agrees cs cs' := by
  refine ⟨read_pathOf h, fun cs' h' hsame => ?_⟩
  obtain ⟨text, ds, hwritten, hread, hagrees⟩ := read_pathOf h
  obtain ⟨text', ds', hwritten', hread', hagrees'⟩ := read_pathOf h'
  obtain rfl : text' = text := by
    rw [hwritten, hwritten'] at hsame
    exact Except.ok.inj hsame
  obtain rfl : ds' = ds := Option.some.inj (hread'.symm.trans hread)
  exact forall₂_trans (R := Command.Agrees) (fun _ _ _ => Command.Agrees.trans) hagrees
    (hagrees'.imp fun _ _ hcd => Command.Agrees.symm hcd).flip

/-- A point with not-a-number and an arc; the zeros and one flag are left open. -/
def zeroPath (zero flag : Value) : List Command :=
  [⟨false, .moveTo ⟨.float .nan, zero⟩⟩,
    ⟨true, .arcTo ⟨.float (.infinity true), zero⟩ zero flag .null ⟨zero, zero⟩⟩]

theorem zeroPath_hasNumberTexts {zero : Value} (h : zero.HasText) (flag : Value) :
    ∀ c ∈ zeroPath zero flag, c.HasNumberTexts := by
  intro c hc v hv
  have hnumber : v = .float .nan ∨ v = .float (.infinity true) ∨ v = zero := by
    rcases List.mem_pair.mp hc with rfl | rfl
    · simp [Command.numbers, Command.parameters, Shape.parameters, Parameter.numbers] at hv
      exact hv.imp_right Or.inr
    · simp [Command.numbers, Command.parameters, Shape.parameters, Parameter.numbers] at hv
      grind
  rcases hnumber with rfl | rfl | rfl
  · exact Value.hasText_float _
  · exact Value.hasText_float _
  · exact h

theorem pathOf_zeroPath {zero flag : Value} (h : numberText zero = .ok "0")
    (hflag : flag.truth = true) :
    ({} : WritingSettings).pathOf (.list ((zeroPath zero flag).map Command.toValue)) =
      .ok "MNaN 0 a-Infinity 0 0 1 0 0 0" := by
  rw [WritingSettings.pathOf_toValue]
  simp [zeroPath, WritingSettings.commands, WritingSettings.command, WritingSettings.parameter,
    WritingSettings.point, PathReader.default_number, h, hflag, flagText, Command.parameters,
    Shape.parameters]
  rfl

/-- Negative zero is written as the integer zero is, and a text as the truth that it has. -/
theorem zero_path_text_determines_path :
    List.Forall₂ Command.Agrees (zeroPath (.float (.zero true)) (.text "no"))
      (zeroPath (.int 0) (.bool true)) := by
  obtain ⟨n, hn, htext⟩ := Value.hasText_zero
  have hnegative : numberText (.float (.zero true)) = .ok "0" := rfl
  have hzero : numberText (.int 0) = .ok "0" := by
    rw [numberText_eq hn htext, ← Option.some.inj hn]
    rfl
  refine (path_text_determines_path (zeroPath_hasNumberTexts (Value.hasText_float _) _)).2 _
    (zeroPath_hasNumberTexts Value.hasText_zero _) ?_
  rw [pathOf_zeroPath hzero rfl, pathOf_zeroPath hnegative rfl]

end VectorPath
