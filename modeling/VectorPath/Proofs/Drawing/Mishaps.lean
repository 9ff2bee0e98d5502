import Mathlib.Data.Int.Notation
import VectorPath.Proofs.Drawing.Motions
import VectorPath.Proofs.Outcome

/-!
# Mishaps of drawing

Whatever is drawn, and whatever goes wrong with it, the mishap of a reader without a font does not
come out of it; components that nest too deeply are a mishap of their own. Nothing is assumed of
the calls: their arguments may be values of any sort.
-/

namespace VectorPath

/-- Anything but the mishap of a reader without a font. -/
def NeedsNoFont {α : Type} (o : Outcome α) : Prop := o ≠ mishap .fontNotLoaded

section Rules

variable {α β : Type} {o : Outcome α} {f : α → Outcome β}

theorem needsNoFont_ok (a : α) : NeedsNoFont (.ok a : Outcome α) := nofun

theorem NeedsNoFont.bind (h : NeedsNoFont o) (hf : ∀ a, NeedsNoFont (f a)) :
    NeedsNoFont (o >>= f) := by
  intro herror
  rcases bind_eq_error.mp herror with ho | ⟨a, -, ha⟩
  · exact h ho
  · exact hf a ha

theorem NeedsNoFont.map {g : α → β} (h : NeedsNoFont o) : NeedsNoFont (o.map g) := by
  cases o with
  | ok a => exact needsNoFont_ok (g a)
  | error f => exact fun hf => h (congrArg Except.error (Except.error.inj hf))

theorem needsNoFont_mapM (hf : ∀ a, NeedsNoFont (f a)) (xs : List α) :
    NeedsNoFont (xs.mapM f) := by
  induction xs with
  | nil => exact needsNoFont_ok []
  | cons x xs ih =>
      rw [List.mapM_cons]
      exact (hf x).bind fun y => ih.bind fun ys => needsNoFont_ok (y :: ys)

theorem needsNoFont_foldlM {g : β → α → Outcome β} (hg : ∀ b a, NeedsNoFont (g b a)) (b : β)
    (xs : List α) : NeedsNoFont (xs.foldlM g b) := by
  induction xs generalizing b with
  | nil => exact needsNoFont_ok b
  | cons x xs ih =>
      rw [List.foldlM_cons]
      exact (hg b x).bind fun c => ih c

end Rules

namespace Value

theorem ofNumber_needsNoFont (n : Option Number) : NeedsNoFont (ofNumber? n) := by
  cases n <;> nofun

theorem repetitions_needsNoFont (n : ℤ) (size limit : ℕ) {overflow : Mishap}
    (h : overflow ≠ .fontNotLoaded) : NeedsNoFont (repetitions n size limit overflow) := by
  unfold repetitions
  split_ifs
  · nofun
  · intro hoverflow
    exact h (Failure.mishap.inj (Except.error.inj hoverflow))
  · nofun
  · nofun

theorem multiplySequence_needsNoFont (v w : Value) : NeedsNoFont (multiplySequence v w) := by
  unfold multiplySequence
  split
  · nofun
  · split
    · exact (repetitions_needsNoFont _ _ _ (by nofun)).bind fun _ => needsNoFont_ok _
    · exact (repetitions_needsNoFont _ _ _ (by nofun)).bind fun _ => needsNoFont_ok _
    · exact (repetitions_needsNoFont _ _ _ (by nofun)).bind fun _ => needsNoFont_ok _
    · nofun

theorem add_needsNoFont (v w : Value) : NeedsNoFont (v.add w) := by
  unfold add
  split
  · exact ofNumber_needsNoFont _
  · split <;> nofun

theorem sub_needsNoFont (v w : Value) : NeedsNoFont (v.sub w) := by
  unfold sub
  split
  · exact ofNumber_needsNoFont _
  · nofun

theorem mul_needsNoFont (v w : Value) : NeedsNoFont (v.mul w) := by
  unfold mul
  split
  · exact ofNumber_needsNoFont _
  · split_ifs
    · exact multiplySequence_needsNoFont v w
    · exact multiplySequence_needsNoFont w v
    · nofun

theorem pair_needsNoFont (v : Value) : NeedsNoFont v.pair := by
  unfold pair
  split
  · nofun
  · nofun
  · split_ifs <;> nofun

theorem unpack_needsNoFont (n : ℕ) (v : Value) : NeedsNoFont (v.unpack n) := by
  unfold unpack
  split
  · nofun
  · split_ifs <;> nofun

theorem item_needsNoFont (v : Value) (i : ℕ) : NeedsNoFont (v.item i) := by
  have hat : ∀ sort items, NeedsNoFont (item.at? i sort items) := by
    intro sort items
    unfold item.at?
    split <;> nofun
  unfold item
  split
  · exact hat _ _
  · exact hat _ _
  · exact hat _ _
  · nofun
  · nofun

end Value

theorem Point.ofValue_needsNoFont (v : Value) : NeedsNoFont (Point.ofValue v) := by
  unfold Point.ofValue
  split
  · nofun
  · exact (Value.pair_needsNoFont _).bind fun _ => needsNoFont_ok _

namespace Curve

theorem middle_needsNoFont (v w : Value) : NeedsNoFont (middle v w) :=
  (Value.add_needsNoFont v w).bind fun _ => Value.mul_needsNoFont _ _

theorem midpoint_needsNoFont (p q : Value) : NeedsNoFont (midpoint p q) :=
  (Value.pair_needsNoFont p).bind fun _ => (Value.pair_needsNoFont q).bind fun _ =>
    (middle_needsNoFont _ _).bind fun _ => (middle_needsNoFont _ _).bind fun _ => needsNoFont_ok _

theorem quadraticPieces_needsNoFont : ∀ points, NeedsNoFont (quadraticPieces points)
  | p :: q :: r :: rest =>
      (midpoint_needsNoFont p q).bind fun _ =>
        (quadraticPieces_needsNoFont (q :: r :: rest)).bind fun _ => needsNoFont_ok _
  | [p, q] => needsNoFont_ok [(p, q)]
  | [_] => needsNoFont_ok []
  | [] => needsNoFont_ok []

theorem coordinateAt_needsNoFont (fraction previous next : Value) (axis : ℕ) :
    NeedsNoFont (coordinateAt fraction previous next axis) :=
  (Value.item_needsNoFont _ _).bind fun _ => (Value.item_needsNoFont _ _).bind fun _ =>
    (Value.item_needsNoFont _ _).bind fun _ => (Value.sub_needsNoFont _ _).bind fun _ =>
      (Value.mul_needsNoFont _ _).bind fun _ => Value.add_needsNoFont _ _

theorem pointAt_needsNoFont (fraction previous next : Value) :
    NeedsNoFont (pointAt fraction previous next) :=
  (coordinateAt_needsNoFont _ _ _ _).bind fun _ =>
    (coordinateAt_needsNoFont _ _ _ _).bind fun _ => needsNoFont_ok _

theorem joint_needsNoFont (p q : Value) : NeedsNoFont (joint p q) :=
  (Value.item_needsNoFont _ _).bind fun _ => (Value.item_needsNoFont _ _).bind fun _ =>
    (middle_needsNoFont _ _).bind fun _ => (Value.item_needsNoFont _ _).bind fun _ =>
      (Value.item_needsNoFont _ _).bind fun _ => (middle_needsNoFont _ _).bind fun _ =>
        needsNoFont_ok _

theorem step_needsNoFont (s : Progress) (division : Value) : NeedsNoFont (s.step division) := by
  unfold Progress.step
  split
  · nofun
  · exact (joint_needsNoFont _ _).bind fun _ => needsNoFont_ok _

theorem divideLeg_needsNoFont (parts : ℕ) (previous next : Value) (s : Progress) :
    NeedsNoFont (divideLeg parts previous next s) :=
  needsNoFont_foldlM (fun _ _ => (pointAt_needsNoFont _ _ _).bind fun _ => step_needsNoFont _ _) s _

theorem divideLegs_needsNoFont (n i : ℕ) (previous : Value) (points : List Value) (s : Progress) :
    NeedsNoFont (divideLegs n i previous points s) := by
  induction points generalizing i previous s with
  | nil => exact needsNoFont_ok s
  | cons next rest ih => exact (divideLeg_needsNoFont _ _ _ s).bind fun t => ih (i + 1) next t

theorem cubicPieces_needsNoFont (points : List Value) : NeedsNoFont (cubicPieces points) := by
  unfold cubicPieces
  split
  · exact (divideLegs_needsNoFont _ _ _ _ _).bind fun _ => needsNoFont_ok _
  · nofun

end Curve

namespace Matrix

theorem dot_needsNoFont (p x q y : Value) : NeedsNoFont (dot p x q y) :=
  (Value.mul_needsNoFont p x).bind fun _ => (Value.mul_needsNoFont q y).bind fun _ =>
    Value.add_needsNoFont _ _

theorem dotPlus_needsNoFont (p x q y r : Value) : NeedsNoFont (dotPlus p x q y r) :=
  (dot_needsNoFont p x q y).bind fun _ => Value.add_needsNoFont _ _

theorem apply_needsNoFont (m : Matrix) (p : Value) : NeedsNoFont (m.apply p) :=
  (Value.pair_needsNoFont p).bind fun _ => (dotPlus_needsNoFont _ _ _ _ _).bind fun _ =>
    (dotPlus_needsNoFont _ _ _ _ _).bind fun _ => needsNoFont_ok _

theorem compose_needsNoFont (m : Matrix) (inner : Value) : NeedsNoFont (m.compose inner) := by
  apply (Value.unpack_needsNoFont 6 inner).bind
  intro entries
  cases ofList? entries with
  | none => nofun
  | some o =>
      exact (dot_needsNoFont _ _ _ _).bind fun _ => (dot_needsNoFont _ _ _ _).bind fun _ =>
        (dot_needsNoFont _ _ _ _).bind fun _ => (dot_needsNoFont _ _ _ _).bind fun _ =>
          (dotPlus_needsNoFont _ _ _ _ _).bind fun _ =>
            (dotPlus_needsNoFont _ _ _ _ _).bind fun _ => needsNoFont_ok _

theorem ofValue_needsNoFont (v : Value) : NeedsNoFont (Matrix.ofValue v) := by
  unfold Matrix.ofValue
  split
  · nofun
  · split <;> nofun

end Matrix

/-- Nothing is wrong with a drawing, or it is not for want of a font. -/
def Drawn.NeedsNoFont (d : Drawn) : Prop := d.failure ≠ some (.mishap .fontNotLoaded)

namespace Drawn

variable {α : Type} {d : Drawn} {draw : α → Drawn}

theorem NeedsNoFont.outcome (h : d.NeedsNoFont) : VectorPath.NeedsNoFont d.outcome := by
  unfold Drawn.outcome
  cases hfailure : d.failure with
  | none => exact needsNoFont_ok _
  | some f =>
      intro hf
      apply h
      rw [hfailure, Except.error.inj hf]

theorem NeedsNoFont.andThen {next : Unit → Drawn} (h : d.NeedsNoFont)
    (h' : (next ()).NeedsNoFont) : (d.andThen next).NeedsNoFont := by
  unfold Drawn.andThen
  split
  · exact h
  · exact h'

theorem needsNoFont_sequence (h : ∀ a, (draw a).NeedsNoFont) (xs : List α) :
    (sequence draw xs).NeedsNoFont := by
  induction xs with
  | nil => nofun
  | cons x xs ih => exact (h x).andThen ih

theorem needsNoFont_bind {o : Outcome α} (h : VectorPath.NeedsNoFont o)
    (hdraw : ∀ a, (draw a).NeedsNoFont) : (bind o draw).NeedsNoFont := by
  cases o with
  | ok a => exact hdraw a
  | error f =>
      intro hf
      apply h
      rw [Option.some.inj hf]
      rfl

theorem needsNoFont_emit {o : Outcome Command} (h : VectorPath.NeedsNoFont o) :
    (emit o).NeedsNoFont := needsNoFont_bind h fun _ => nofun

end Drawn

namespace Pen

theorem move_needsNoFont (p : Value) : (move p).NeedsNoFont :=
  Drawn.needsNoFont_emit ((Point.ofValue_needsNoFont p).bind fun _ => needsNoFont_ok _)

theorem line_needsNoFont (p : Value) : (line p).NeedsNoFont :=
  Drawn.needsNoFont_emit ((Point.ofValue_needsNoFont p).bind fun _ => needsNoFont_ok _)

theorem cubic_needsNoFont (c : Curve.Cubic) : (cubic c).NeedsNoFont :=
  Drawn.needsNoFont_emit ((Point.ofValue_needsNoFont _).bind fun _ =>
    (Point.ofValue_needsNoFont _).bind fun _ => (Point.ofValue_needsNoFont _).bind fun _ =>
      needsNoFont_ok _)

theorem quadratic_needsNoFont (piece : Value × Value) : (quadratic piece).NeedsNoFont :=
  Drawn.needsNoFont_emit ((Point.ofValue_needsNoFont _).bind fun _ =>
    (Point.ofValue_needsNoFont _).bind fun _ => needsNoFont_ok _)

theorem quadraticTo_needsNoFont (points : List Value) : (quadraticTo points).NeedsNoFont := by
  rw [quadraticTo_eq]
  split
  · exact line_needsNoFont _
  · exact Drawn.needsNoFont_bind (Curve.quadraticPieces_needsNoFont points)
      (Drawn.needsNoFont_sequence quadratic_needsNoFont)

theorem quadraticCurve_needsNoFont (points : List Value) :
    (quadraticCurve points).NeedsNoFont := by
  rw [quadraticCurve_eq]
  split
  · nofun
  · split
    · exact Drawn.needsNoFont_bind (Curve.midpoint_needsNoFont _ _) fun _ =>
        (move_needsNoFont _).andThen (quadraticTo_needsNoFont _)
    · nofun
  · exact quadraticTo_needsNoFont points

theorem cubicCurve_needsNoFont (points : List Value) : (cubicCurve points).NeedsNoFont := by
  rw [cubicCurve_eq]
  split
  · nofun
  · exact line_needsNoFont _
  · exact quadraticCurve_needsNoFont _
  · exact cubic_needsNoFont _
  · exact Drawn.needsNoFont_bind (Curve.cubicPieces_needsNoFont points)
      (Drawn.needsNoFont_sequence cubic_needsNoFont)

theorem mapPoint_needsNoFont (matrix : Option Matrix) (p : Value) :
    NeedsNoFont (mapPoint matrix p) := by
  cases matrix with
  | none => exact needsNoFont_ok p
  | some m => exact m.apply_needsNoFont p

theorem mapPoints_needsNoFont (matrix : Option Matrix) (points : List Value) :
    NeedsNoFont (mapPoints matrix points) :=
  needsNoFont_mapM (mapPoint_needsNoFont matrix) points

theorem mapQuadratic_needsNoFont (matrix : Option Matrix) (points : List Value) :
    NeedsNoFont (mapQuadratic matrix points) := by
  unfold mapQuadratic
  split
  · nofun
  · exact (mapPoints_needsNoFont _ _).bind fun _ => needsNoFont_ok _
  · exact mapPoints_needsNoFont _ _

theorem component_needsNoFont (glyphs : Option GlyphSet) (name : Value) :
    NeedsNoFont (component glyphs name) := by
  unfold component
  split
  · nofun
  · split
    · nofun
    · split <;> nofun

theorem componentMatrix_needsNoFont (matrix : Option Matrix) (v : Value) :
    NeedsNoFont (componentMatrix matrix v) := by
  cases matrix with
  | none => exact needsNoFont_ok v
  | some m => exact (m.compose_needsNoFont v).bind fun _ => needsNoFont_ok _

theorem checkArguments_needsNoFont (mapped : Bool) (m : Method) (arguments : List Value) :
    NeedsNoFont (checkArguments mapped m arguments) := by
  unfold checkArguments
  split
  · nofun
  · refine NeedsNoFont.bind ?_ fun _ => needsNoFont_ok ()
    unfold Arguments.bind
    refine NeedsNoFont.bind (needsNoFont_ok _) fun bound => ?_
    split_ifs
    · nofun
    · split <;> nofun

theorem added_needsNoFont (glyphs : Option GlyphSet) {inside : Option Matrix → Recording → Drawn}
    (hinside : ∀ through recording, (inside through recording).NeedsNoFont)
    (matrix : Option Matrix) (call : Call) :
    (added glyphs inside matrix call).NeedsNoFont := by
  unfold added
  split
  · nofun
  · refine Drawn.needsNoFont_bind (checkArguments_needsNoFont _ _ _) fun _ => ?_
    split
    · exact Drawn.needsNoFont_bind (mapPoint_needsNoFont _ _) move_needsNoFont
    · exact Drawn.needsNoFont_bind (mapPoint_needsNoFont _ _) line_needsNoFont
    · exact Drawn.needsNoFont_bind (mapPoints_needsNoFont _ _) cubicCurve_needsNoFont
    · exact Drawn.needsNoFont_bind (mapQuadratic_needsNoFont _ _) quadraticCurve_needsNoFont
    · nofun
    · refine Drawn.needsNoFont_bind (componentMatrix_needsNoFont _ _) fun inner => ?_
      refine Drawn.needsNoFont_bind (component_needsNoFont _ _) fun found => ?_
      cases found with
      | none => nofun
      | some recording =>
          dsimp only
          split_ifs
          · exact hinside none recording
          · exact Drawn.needsNoFont_bind (Matrix.ofValue_needsNoFont _) fun through =>
              hinside (some through) recording
    · nofun
    · nofun

theorem draw_needsNoFont (glyphs : Option GlyphSet) (fuel : ℕ) (matrix : Option Matrix)
    (call : Call) : (draw glyphs fuel matrix call).NeedsNoFont := by
  induction fuel using Nat.strongRecOn generalizing matrix call with
  | ind fuel ih =>
      by_cases hfuel : fuel < 4
      · rw [draw_of_lt glyphs hfuel]
        nofun
      · obtain ⟨fuel, rfl⟩ := Nat.exists_eq_add_of_le' (Nat.le_of_not_lt hfuel)
        rw [draw_eq]
        have hless := callsInside_le matrix fuel
        exact added_needsNoFont glyphs
          (fun through => Drawn.needsNoFont_sequence (ih _ (by omega) through)) matrix call

theorem replay_needsNoFont [Depth] (glyphs : Option GlyphSet) (recording : Recording) :
    (replay glyphs recording).NeedsNoFont := by
  rw [replay_eq]
  exact Drawn.needsNoFont_sequence (draw_needsNoFont glyphs Depth.calls none) recording

end Pen

theorem Recording.commands_needsNoFont [Depth] (glyphs : Option GlyphSet) (recording : Recording) :
    NeedsNoFont (recording.commands glyphs) := (Pen.replay_needsNoFont glyphs recording).outcome

end VectorPath
