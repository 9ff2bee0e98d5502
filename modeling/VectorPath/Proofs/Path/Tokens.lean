import VectorPath.Encoder
import VectorPath.Proofs.Outcome

/-!
# The layout of path text

A path text is laid out over the texts of its numbers: what stands for a number is a parameter, so
that one layout serves for the grammar of the numbers and for reading them. Writing commands whose
numbers can be written gives a text of this layout, and items that can be written at all are
commands.
-/

namespace VectorPath

/-- The numbers of a field, a point as its two coordinates. -/
def Parameter.numbers : Parameter → List Value
  | .point p => [p.x, p.y]
  | .number v => [v]
  | .flag _ => []

/-- The numbers of a command in drawing order; flags do not count. -/
def Command.numbers (c : Command) : List Value := c.parameters.flatMap Parameter.numbers

section MapNumbers

variable (f : Value → Value)

def Point.mapNumbers (p : Point) : Point := ⟨f p.x, f p.y⟩

def Parameter.mapNumbers : Parameter → Parameter
  | .point p => .point (p.mapNumbers f)
  | .number v => .number (f v)
  | .flag v => .flag v

def Shape.mapNumbers : Shape → Shape
  | .moveTo p => .moveTo (p.mapNumbers f)
  | .lineTo p => .lineTo (p.mapNumbers f)
  | .horizontalLineTo x => .horizontalLineTo (f x)
  | .verticalLineTo y => .verticalLineTo (f y)
  | .closePath => .closePath
  | .curveTo c d p => .curveTo (c.mapNumbers f) (d.mapNumbers f) (p.mapNumbers f)
  | .smoothCurveTo d p => .smoothCurveTo (d.mapNumbers f) (p.mapNumbers f)
  | .quadraticCurveTo c p => .quadraticCurveTo (c.mapNumbers f) (p.mapNumbers f)
  | .smoothQuadraticCurveTo p => .smoothQuadraticCurveTo (p.mapNumbers f)
  | .arcTo r a l s p => .arcTo (r.mapNumbers f) (f a) l s (p.mapNumbers f)

/-- The same command with other numbers; flags stay. -/
def Command.mapNumbers (c : Command) : Command := { c with shape := c.shape.mapNumbers f }

theorem Command.parameters_mapNumbers (c : Command) :
    (c.mapNumbers f).parameters = c.parameters.map (Parameter.mapNumbers f) := by
  obtain ⟨relative, shape⟩ := c
  cases shape <;> rfl

theorem Command.form_mapNumbers (c : Command) : (c.mapNumbers f).form = c.form := by
  obtain ⟨relative, shape⟩ := c
  cases shape <;> rfl

theorem Command.mapNumbers_id : Command.mapNumbers id = id := by
  funext c
  obtain ⟨relative, shape⟩ := c
  cases shape <;> rfl

end MapNumbers

section Layout

variable (N : Value → List Char → Prop)

inductive PointText : Point → List Char → Prop
  | mk {p : Point} {t u : List Char} :
      N p.x t → N p.y u → PointText p (t ++ ' ' :: u)

def flagDigit (v : Value) : Char := if v.truth then '1' else '0'

inductive ShapeText : Shape → List Char → Prop
  | moveTo {p : Point} {t : List Char} : PointText N p t → ShapeText (.moveTo p) t
  | lineTo {p : Point} {t : List Char} : PointText N p t → ShapeText (.lineTo p) t
  | horizontalLineTo {x : Value} {t : List Char} : N x t → ShapeText (.horizontalLineTo x) t
  | verticalLineTo {y : Value} {t : List Char} : N y t → ShapeText (.verticalLineTo y) t
  | closePath : ShapeText .closePath []
  | curveTo {c d p : Point} {t u v : List Char} :
      PointText N c t → PointText N d u → PointText N p v →
        ShapeText (.curveTo c d p) (t ++ ',' :: ' ' :: (u ++ ',' :: ' ' :: v))
  | smoothCurveTo {d p : Point} {t u : List Char} :
      PointText N d t → PointText N p u → ShapeText (.smoothCurveTo d p) (t ++ ',' :: ' ' :: u)
  | quadraticCurveTo {c p : Point} {t u : List Char} :
      PointText N c t → PointText N p u → ShapeText (.quadraticCurveTo c p) (t ++ ',' :: ' ' :: u)
  | smoothQuadraticCurveTo {p : Point} {t : List Char} :
      PointText N p t → ShapeText (.smoothQuadraticCurveTo p) t
  | arcTo {r p : Point} {a l s : Value} {t u v : List Char} :
      PointText N r t → N a u → PointText N p v →
        ShapeText (.arcTo r a l s p)
          (t ++ ' ' :: (u ++ ' ' :: flagDigit l :: ' ' :: flagDigit s :: ' ' :: v))

/-- The letter with the fields right behind it. -/
inductive CommandText : Command → List Char → Prop
  | mk {c : Command} {t : List Char} : ShapeText N c.shape t → CommandText c (c.letter :: t)

/-- Nothing for no command, and single spaces between commands. -/
inductive PathText : List Command → List Char → Prop
  | empty : PathText [] []
  | single {c : Command} {t : List Char} : CommandText N c t → PathText [c] t
  | cons {c d : Command} {cs : List Command} {t u : List Char} :
      CommandText N c t → PathText (d :: cs) u → PathText (c :: d :: cs) (t ++ ' ' :: u)

end Layout

namespace WritingSettings

section Writing

variable {N : Value → List Char → Prop} {s : WritingSettings}

/-- A value that is written as a text of the class. -/
def Writes (s : WritingSettings) (N : Value → List Char → Prop) (v : Value) : Prop :=
  ∃ t, s.number v = .ok t ∧ N v t.toList

theorem point_written {p : Point} (hx : s.Writes N p.x) (hy : s.Writes N p.y) :
    ∃ t, s.point p = .ok t ∧ PointText N p t.toList := by
  obtain ⟨t, ht, hN⟩ := hx
  obtain ⟨u, hu, hM⟩ := hy
  refine ⟨t ++ " " ++ u, ?_, ?_⟩
  · unfold point
    rw [ht, hu]
    rfl
  · simp only [String.toList_append, List.append_assoc]
    exact .mk hN hM

theorem flagText_toList (v : Value) : (flagText v).toList = [flagDigit v] := by
  unfold flagText flagDigit
  split <;> rfl

theorem mapM_parameter_cons {p : Parameter} {ps : List Parameter} {t : String} {ts : List String}
    (h : s.parameter p = .ok t) (hs : ps.mapM s.parameter = .ok ts) :
    (p :: ps).mapM s.parameter = .ok (t :: ts) := by
  rw [List.mapM_cons, h, hs]
  rfl

theorem command_of_parameters {c : Command} {ts : List String} {t : List Char}
    (h : c.parameters.mapM s.parameter = .ok ts)
    (ht : (joinWith (separator c.form.kind) ts).toList = t) (hN : ShapeText N c.shape t) :
    ∃ t, s.command c = .ok t ∧ CommandText N c t.toList := by
  refine ⟨String.singleton c.letter ++ joinWith (separator c.form.kind) ts, ?_, ?_⟩
  · unfold command
    rw [h]
    rfl
  · rw [String.toList_append, String.toList_singleton, ht]
    exact .mk hN

theorem command_written {c : Command} (h : ∀ v ∈ c.numbers, s.Writes N v) :
    ∃ t, s.command c = .ok t ∧ CommandText N c t.toList := by
  obtain ⟨relative, shape⟩ := c
  cases shape
  all_goals simp only [Command.numbers, Command.parameters, Shape.parameters, Parameter.numbers,
    List.flatMap_cons, List.flatMap_nil, List.append_nil, List.cons_append, List.nil_append,
    List.mem_cons, List.not_mem_nil, or_false, forall_eq_or_imp, forall_eq] at h
  case moveTo p =>
    obtain ⟨t, ht, hT⟩ := point_written h.1 h.2
    exact command_of_parameters (mapM_parameter_cons ht rfl) rfl (.moveTo hT)
  case lineTo p =>
    obtain ⟨t, ht, hT⟩ := point_written h.1 h.2
    exact command_of_parameters (mapM_parameter_cons ht rfl) rfl (.lineTo hT)
  case horizontalLineTo x =>
    obtain ⟨t, ht, hT⟩ := h
    exact command_of_parameters (mapM_parameter_cons ht rfl) rfl (.horizontalLineTo hT)
  case verticalLineTo y =>
    obtain ⟨t, ht, hT⟩ := h
    exact command_of_parameters (mapM_parameter_cons ht rfl) rfl (.verticalLineTo hT)
  case closePath =>
    exact command_of_parameters (rfl : [].mapM s.parameter = .ok []) rfl .closePath
  case curveTo c d p =>
    obtain ⟨t, ht, hT⟩ := point_written h.1 h.2.1
    obtain ⟨u, hu, hU⟩ := point_written h.2.2.1 h.2.2.2.1
    obtain ⟨v, hv, hV⟩ := point_written h.2.2.2.2.1 h.2.2.2.2.2
    refine command_of_parameters
      (mapM_parameter_cons ht (mapM_parameter_cons hu (mapM_parameter_cons hv rfl))) ?_
      (.curveTo hT hU hV)
    simp [joinWith, separator, Command.form, Shape.kind]
  case smoothCurveTo d p =>
    obtain ⟨t, ht, hT⟩ := point_written h.1 h.2.1
    obtain ⟨u, hu, hU⟩ := point_written h.2.2.1 h.2.2.2
    refine command_of_parameters (mapM_parameter_cons ht (mapM_parameter_cons hu rfl)) ?_
      (.smoothCurveTo hT hU)
    simp [joinWith, separator, Command.form, Shape.kind]
  case quadraticCurveTo c p =>
    obtain ⟨t, ht, hT⟩ := point_written h.1 h.2.1
    obtain ⟨u, hu, hU⟩ := point_written h.2.2.1 h.2.2.2
    refine command_of_parameters (mapM_parameter_cons ht (mapM_parameter_cons hu rfl)) ?_
      (.quadraticCurveTo hT hU)
    simp [joinWith, separator, Command.form, Shape.kind]
  case smoothQuadraticCurveTo p =>
    obtain ⟨t, ht, hT⟩ := point_written h.1 h.2
    exact command_of_parameters (mapM_parameter_cons ht rfl) rfl (.smoothQuadraticCurveTo hT)
  case arcTo r a l k p =>
    obtain ⟨t, ht, hT⟩ := point_written h.1 h.2.1
    obtain ⟨u, hu, hU⟩ := h.2.2.1
    obtain ⟨v, hv, hV⟩ := point_written h.2.2.2.1 h.2.2.2.2
    refine command_of_parameters (mapM_parameter_cons ht (mapM_parameter_cons hu
      (mapM_parameter_cons (t := flagText l) rfl
        (mapM_parameter_cons (t := flagText k) rfl (mapM_parameter_cons hv rfl))))) ?_
      (.arcTo hT hU hV)
    simp [joinWith, separator, Command.form, Shape.kind, flagText_toList]

/-- Commands whose numbers can be written have a path text, which is laid out as it should be. -/
theorem commands_written {cs : List Command} (h : ∀ c ∈ cs, ∀ v ∈ c.numbers, s.Writes N v) :
    ∃ t, s.commands cs = .ok t ∧ PathText N cs t.toList := by
  suffices hs : ∃ ts, cs.mapM s.command = .ok ts ∧ ts.length = cs.length ∧
      PathText N cs (joinWith " " ts).toList by
    obtain ⟨ts, hts, -, hN⟩ := hs
    refine ⟨joinWith " " ts, ?_, hN⟩
    unfold commands
    rw [hts]
    rfl
  induction cs with
  | nil => exact ⟨[], rfl, rfl, .empty⟩
  | cons c cs ih =>
      obtain ⟨t, ht, hT⟩ := command_written (h c (List.mem_cons_self ..))
      obtain ⟨ts, hts, hlength, hTs⟩ := ih fun d hd => h d (List.mem_cons_of_mem c hd)
      refine ⟨t :: ts, ?_, by rw [List.length_cons, List.length_cons, hlength], ?_⟩
      · rw [List.mapM_cons, ht, hts]
        rfl
      · rcases cs with _ | ⟨d, ds⟩ <;> rcases ts with _ | ⟨u, us⟩
        · exact .single hT
        · simp at hlength
        · simp at hlength
        · simp only [joinWith, String.toList_append, List.append_assoc]
          exact .cons hT hTs

end Writing

end WritingSettings

theorem Command.ofValue?_toValue (c : Command) : Command.ofValue? c.toValue = some c := by
  obtain ⟨relative, shape⟩ := c
  cases shape <;> rfl

theorem WritingSettings.pathOf_toValue (s : WritingSettings) (cs : List Command) :
    s.pathOf (.list (cs.map Command.toValue)) = s.commands cs := by
  have hitem : s.item ∘ Command.toValue = s.command := by
    funext c
    simp only [Function.comp, item, Command.ofValue?_toValue]
  change s.path (cs.map Command.toValue) = s.commands cs
  unfold path commands
  rw [List.mapM_map, hitem]

theorem Command.toValue_of_heldIn {sort : FieldSort} {v : Value} {p : Parameter}
    (h : Command.heldIn sort v = some p) : p.toValue = v := by
  unfold Command.heldIn at h
  split at h
  case h_2 => simp at h
  all_goals
    rw [← Option.some.inj h]
    rfl

theorem Command.toValue_of_heldIn_fields {sorts : List (String × FieldSort)} {vs : List Value}
    {ps : List Parameter} (hlength : vs.length = sorts.length)
    (h : (List.zipWith (fun entry v => Command.heldIn entry.2 v) sorts vs).mapM id = some ps) :
    ps.map Parameter.toValue = vs := by
  induction sorts generalizing vs ps with
  | nil =>
      obtain rfl : vs = [] := List.eq_nil_of_length_eq_zero hlength
      obtain rfl : [] = ps := Option.some.inj h
      rfl
  | cons entry sorts ih =>
      obtain ⟨v, vs, rfl⟩ : ∃ v vs', vs = v :: vs' := List.exists_cons_of_length_eq_add_one hlength
      rw [List.zipWith_cons_cons, List.mapM_cons] at h
      obtain ⟨p, hp, h⟩ := Option.bind_eq_some_iff.mp h
      obtain ⟨qs, hqs, h⟩ := Option.bind_eq_some_iff.mp h
      obtain rfl : p :: qs = ps := Option.some.inj h
      rw [List.map_cons, Command.toValue_of_heldIn hp, ih (Nat.succ.inj hlength) hqs]

theorem Shape.parameters_of_ofParameters? {kind : Kind} {ps : List Parameter} {shape : Shape}
    (h : Shape.ofParameters? kind ps = some shape) : shape.kind = kind ∧ shape.parameters = ps := by
  unfold Shape.ofParameters? at h
  split at h <;> simp at h <;> subst h <;> exact ⟨rfl, rfl⟩

theorem Command.toValue_of_ofValue? {v : Value} {c : Command} (h : Command.ofValue? v = some c) :
    c.toValue = v := by
  cases v with
  | command form fields =>
      unfold Command.ofValue? at h
      dsimp only at h
      split at h
      case isFalse => simp at h
      case isTrue hlength =>
        obtain ⟨ps, hps, hc⟩ := Option.bind_eq_some_iff.mp h
        obtain ⟨shape, hshape, rfl⟩ := Option.map_eq_some_iff.mp hc
        obtain ⟨hkind, hparameters⟩ := Shape.parameters_of_ofParameters? hshape
        have hfields := Command.toValue_of_heldIn_fields hlength hps
        unfold Command.toValue Command.form Command.parameters
        rw [hkind, hparameters, hfields]
  | _ => simp [Command.ofValue?] at h

/-- Only commands can be written as items. -/
theorem WritingSettings.command_of_item {s : WritingSettings} {v : Value} {t : String}
    (h : s.item v = .ok t) : ∃ c : Command, v = c.toValue ∧ s.command c = .ok t := by
  unfold item at h
  split at h
  next c hc => exact ⟨c, (Command.toValue_of_ofValue? hc).symm, h⟩
  next =>
    obtain ⟨shown, -, h⟩ := bind_eq_ok.mp h
    cases h

theorem WritingSettings.mapM_command_of_item {s : WritingSettings} {vs : List Value}
    {ts : List String} (h : vs.mapM s.item = .ok ts) :
    ∃ cs : List Command, vs = cs.map Command.toValue ∧ cs.mapM s.command = .ok ts := by
  induction vs generalizing ts with
  | nil => exact ⟨[], rfl, h⟩
  | cons v vs ih =>
      rw [List.mapM_cons] at h
      obtain ⟨t, ht, htail⟩ := bind_eq_ok.mp h
      obtain ⟨us, hus, hcons⟩ := bind_eq_ok.mp htail
      obtain ⟨c, rfl, hc⟩ := command_of_item ht
      obtain ⟨cs, rfl, hcs⟩ := ih hus
      refine ⟨c :: cs, rfl, ?_⟩
      rw [List.mapM_cons, hc, hcs]
      exact hcons

/-- Items that have a path text are commands, and it is the text of these commands. -/
theorem WritingSettings.commands_of_path {s : WritingSettings} {vs : List Value} {text : String}
    (h : s.path vs = .ok text) :
    ∃ cs : List Command, vs = cs.map Command.toValue ∧ s.commands cs = .ok text := by
  obtain ⟨ts, hts, h⟩ := bind_eq_ok.mp h
  obtain ⟨cs, hcs, hts⟩ := mapM_command_of_item hts
  refine ⟨cs, hcs, ?_⟩
  unfold commands
  rw [hts]
  exact h

end VectorPath
