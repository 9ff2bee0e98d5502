import VectorPath.Proofs.Drawing.Splines
import VectorPath.Proofs.Font.Strokes

/-!
# Replaying recordings

A recording made of two is drawn as the one and then the other, because the point where the one
leaves the pen does not show in the other. Each call that is replayed keeps its points: they are the
controls and ends of what it adds, and nothing is made up but the points midway between controls.
-/

namespace VectorPath

/-- What a call adds to a drawing; what a component adds is left open. -/
inductive Call.Contributes : Call → List Command → Prop
  | moveTo {v : Value} {p : Point} : Point.ofValue v = .ok p →
      Contributes (Call.moveTo v) [.absolute (.moveTo p)]
  | lineTo {v : Value} {p : Point} : Point.ofValue v = .ok p →
      Contributes (Call.lineTo v) [.absolute (.lineTo p)]
  | closePath : Contributes Call.closePath [.absolute .closePath]
  | endPath : Contributes ⟨Method.endPath.name, []⟩ []
  | spline {controls : List Value} {finish : Value} {ps : List Point} {e : Point}
      {cs : List Command} : controls ≠ [] → finish ≠ .null →
      List.Forall₂ (fun v p => Point.ofValue v = .ok p) controls ps →
      Point.ofValue finish = .ok e → IsSpline ps e cs →
      Contributes (Call.qCurveTo (controls ++ [finish])) cs
  | closedSpline {controls : List Value} {ps : List Point} {first last start : Point}
      {cs : List Command} : List.Forall₂ (fun v p => Point.ofValue v = .ok p) controls ps →
      ps.head? = some first → ps.getLast? = some last → last.IsMiddle first start →
      IsSpline ps start cs →
      Contributes (Call.qCurveTo (controls ++ [.null])) (.absolute (.moveTo start) :: cs)
  | straight {v : Value} {p : Point} : Point.ofValue v = .ok p →
      Contributes (Call.qCurveTo [v]) [.absolute (.lineTo p)]
  | cubic {first second finish : Value} {more : List Value} {p e : Point} {cs : List Command} :
      Point.ofValue first = .ok p → Point.ofValue finish = .ok e →
      IsCubicSpline p e (more.length + 1) cs →
      Contributes (Call.curveTo (first :: second :: (more ++ [finish]))) cs
  | oneControl {v w : Value} {cs : List Command} : Contributes (Call.qCurveTo [v, w]) cs →
      Contributes (Call.curveTo [v, w]) cs
  | noControl {v : Value} {p : Point} : Point.ofValue v = .ok p →
      Contributes (Call.curveTo [v]) [.absolute (.lineTo p)]
  | component (arguments : List Value) (cs : List Command) :
      Contributes ⟨Method.addComponent.name, arguments⟩ cs

theorem Method.name_of_ofName {s : String} {m : Method} (h : ofName? s = some m) : s = m.name := by
  have hname := List.find?_some (p := fun m : Method => m.name == s) h
  exact (beq_iff_eq.mp hname).symm

section Arguments

variable {arguments : List Value}

theorem Arguments.bind_nil {callee : String} {vs : List Value}
    (h : bind callee [] arguments [] = .ok vs) : arguments = [] := by
  cases arguments with
  | nil => rfl
  | cons v rest => cases h

theorem Arguments.bind_singleton {callee parameter : String} {vs : List Value}
    (h : bind callee [parameter] arguments [] = .ok vs) : ∃ v, arguments = [v] := by
  rcases arguments with _ | ⟨v, _ | ⟨w, rest⟩⟩
  · cases h
  · exact ⟨v, rfl⟩
  · have hmany : [parameter].length < (v :: w :: rest).length := by simp
    obtain ⟨bound, -, h⟩ := bind_eq_ok.mp h
    rw [if_pos hmany] at h
    cases h

end Arguments

namespace Pen

variable {glyphs : Option GlyphSet} {c : Call} {cs : List Command}

/-- A call that is carried out names a method and has the arguments for it. -/
theorem checked_of_call [Depth] (h : (call glyphs c).outcome = .ok cs) :
    ∃ m : Method, c.method = m.name ∧ checkArguments false m c.arguments = .ok () := by
  rw [call_eq_draw, draw_eq] at h
  unfold added at h
  split at h
  · cases h
  next m hm =>
      rw [Drawn.outcome_bind] at h
      obtain ⟨_, hcheck, -⟩ := bind_eq_ok.mp h
      exact ⟨m, Method.name_of_ofName hm, hcheck⟩

section Calls

variable [Depth] (glyphs : Option GlyphSet)

theorem call_moveTo (v : Value) : call glyphs (Call.moveTo v) = move v := by
  rw [call_eq_draw, draw_moveTo]
  rfl

theorem call_lineTo (v : Value) : call glyphs (Call.lineTo v) = line v := by
  rw [call_eq_draw, draw_lineTo]
  rfl

theorem call_curveTo (points : List Value) :
    call glyphs (Call.curveTo points) = cubicCurve points := by
  rw [call_eq_draw, draw_curveTo, mapPoints_none]
  rfl

theorem call_qCurveTo (points : List Value) :
    call glyphs (Call.qCurveTo points) = quadraticCurve points := by
  rw [call_eq_draw, draw_qCurveTo]
  change Drawn.bind (mapPoints none points) quadraticCurve = _
  rw [mapPoints_none]
  rfl

theorem call_closePath : call glyphs Call.closePath = close := by
  rw [call_eq_draw, draw_closePath]

end Calls

theorem quadraticCurve_of_finish {controls : List Value} {finish : Value} (h : finish ≠ .null) :
    quadraticCurve (controls ++ [finish]) = quadraticTo (controls ++ [finish]) := by
  rw [quadraticCurve_eq, List.getLast?_concat]
  split
  next hlast => cases hlast
  next hlast => exact absurd (Option.some.inj hlast) h
  next => rfl

theorem quadraticCurve_closed {controls : List Value} (hne : controls ≠ []) :
    quadraticCurve (controls ++ [.null]) =
      .bind (Curve.midpoint (controls.getLast hne) (controls.head hne)) fun start =>
        (move start).andThen fun _ => quadraticTo (controls ++ [start]) := by
  rw [quadraticCurve_eq, List.getLast?_concat, List.dropLast_concat,
    List.getLast?_eq_some_getLast hne, List.head?_append_of_ne_nil _ hne,
    List.head?_eq_some_head hne]

theorem closedCurve_ok {controls : List Value}
    (h : (quadraticCurve (controls ++ [.null])).outcome = .ok cs) :
    ∃ ps first last start curve, List.Forall₂ (fun v p => Point.ofValue v = .ok p) controls ps ∧
      ps.head? = some first ∧ ps.getLast? = some last ∧ last.IsMiddle first start ∧
      IsSpline ps start curve ∧ cs = .absolute (.moveTo start) :: curve := by
  by_cases hne : controls = []
  · subst hne
    cases h
  rw [quadraticCurve_closed hne, Drawn.outcome_bind] at h
  obtain ⟨start, hstart, h⟩ := bind_eq_ok.mp h
  obtain ⟨_, curve, hmove, hcurve, rfl⟩ := Drawn.outcome_andThen.mp h
  obtain ⟨p, hp, rfl⟩ := move_ok hmove
  obtain ⟨ps, e, hps, he, hspline⟩ := quadraticTo_ok hne hcurve
  obtain rfl := Except.ok.inj (hp.symm.trans he)
  obtain ⟨first, hfirst, hfirst'⟩ := exists_head_of_forall₂ hps (List.head?_eq_some_head hne)
  obtain ⟨last, hlast, hlast'⟩ := exists_getLast_of_forall₂ hps (List.getLast?_eq_some_getLast hne)
  exact ⟨ps, first, last, p, curve, hps, hfirst, hlast,
    Curve.isMiddle_of_midpoint hlast' hfirst' hstart hp, hspline, rfl⟩

theorem quadraticCurve_contributes {points : List Value}
    (h : (quadraticCurve points).outcome = .ok cs) : (Call.qCurveTo points).Contributes cs := by
  rcases List.eq_nil_or_concat' points with rfl | ⟨controls, finish, rfl⟩
  · cases h
  by_cases hfinish : finish = .null
  · subst hfinish
    obtain ⟨ps, first, last, start, curve, hps, hfirst, hlast, hmiddle, hcurve, rfl⟩ :=
      closedCurve_ok h
    exact .closedSpline hps hfirst hlast hmiddle hcurve
  · rw [quadraticCurve_of_finish hfinish] at h
    rcases controls with _ | ⟨first, controls⟩
    · obtain ⟨p, hp, rfl⟩ := line_ok h
      exact .straight hp
    · obtain ⟨ps, e, hps, he, hcs⟩ := quadraticTo_ok (by simp) h
      exact .spline (by simp) hfinish hps he hcs

theorem cubicCurve_contributes {points : List Value} (h : (cubicCurve points).outcome = .ok cs) :
    (Call.curveTo points).Contributes cs := by
  rcases points with _ | ⟨v, _ | ⟨w, rest⟩⟩
  · cases h
  · obtain ⟨p, hp, rfl⟩ := line_ok h
    exact .noControl hp
  · rcases List.eq_nil_or_concat' rest with rfl | ⟨more, finish, rfl⟩
    · exact .oneControl (quadraticCurve_contributes h)
    · obtain ⟨p, e, hp, he, hcs⟩ := cubicCurve_ok h
      exact .cubic hp he hcs

theorem contributes_of_call [Depth] (h : (call glyphs c).outcome = .ok cs) : c.Contributes cs := by
  obtain ⟨m, hm, hcheck⟩ := checked_of_call h
  obtain ⟨method, arguments⟩ := c
  obtain rfl : method = m.name := hm
  cases m with
  | moveTo =>
      obtain ⟨_, hbind, -⟩ := bind_eq_ok.mp hcheck
      obtain ⟨v, rfl⟩ := Arguments.bind_singleton hbind
      change (call glyphs (Call.moveTo v)).outcome = _ at h
      rw [call_moveTo] at h
      obtain ⟨p, hp, rfl⟩ := move_ok h
      exact .moveTo hp
  | lineTo =>
      obtain ⟨_, hbind, -⟩ := bind_eq_ok.mp hcheck
      obtain ⟨v, rfl⟩ := Arguments.bind_singleton hbind
      change (call glyphs (Call.lineTo v)).outcome = _ at h
      rw [call_lineTo] at h
      obtain ⟨p, hp, rfl⟩ := line_ok h
      exact .lineTo hp
  | curveTo =>
      change (call glyphs (Call.curveTo arguments)).outcome = _ at h
      rw [call_curveTo] at h
      exact cubicCurve_contributes h
  | qCurveTo =>
      change (call glyphs (Call.qCurveTo arguments)).outcome = _ at h
      rw [call_qCurveTo] at h
      exact quadraticCurve_contributes h
  | closePath =>
      obtain ⟨_, hbind, -⟩ := bind_eq_ok.mp hcheck
      obtain rfl := Arguments.bind_nil hbind
      change (call glyphs Call.closePath).outcome = _ at h
      rw [call_closePath] at h
      obtain rfl := Except.ok.inj h
      exact .closePath
  | endPath =>
      obtain ⟨_, hbind, -⟩ := bind_eq_ok.mp hcheck
      obtain rfl := Arguments.bind_nil hbind
      rw [call_eq_draw, draw_eq] at h
      obtain rfl := Except.ok.inj h
      exact .endPath
  | addComponent => exact .component arguments cs
  | addVarComponent =>
      rw [call_eq_draw, draw_eq] at h
      change (Drawn.bind (checkArguments false .addVarComponent arguments) _).outcome = _ at h
      rw [Drawn.outcome_bind] at h
      obtain ⟨_, -, hfailed⟩ := bind_eq_ok.mp h
      cases hfailed

end Pen

namespace Recording

variable [Depth] {glyphs : Option GlyphSet} {r r₁ r₂ : Recording} {cs cs₁ cs₂ : List Command}

theorem commands_append : commands glyphs (r₁ ++ r₂) = .ok cs ↔
    ∃ cs₁ cs₂, commands glyphs r₁ = .ok cs₁ ∧ commands glyphs r₂ = .ok cs₂ ∧ cs = cs₁ ++ cs₂ := by
  unfold commands
  rw [Pen.replay_eq, Pen.replay_eq, Pen.replay_eq, Drawn.sequence_append]
  exact Drawn.outcome_andThen

theorem commands_singleton (glyphs : Option GlyphSet) (c : Call) :
    commands glyphs [c] = (Pen.call glyphs c).outcome := by
  unfold commands
  rw [Pen.replay_eq, Drawn.sequence_singleton]

theorem commands_cons {c : Call} : commands glyphs (c :: r) = .ok cs ↔
    ∃ part cs', (Pen.call glyphs c).outcome = .ok part ∧ commands glyphs r = .ok cs' ∧
      cs = part ++ cs' := by
  rw [← commands_singleton]
  change commands glyphs ([c] ++ r) = .ok cs ↔ _
  exact commands_append

/-- A drawing is made of what its calls draw alone. -/
theorem commands_eq_ok : commands glyphs r = .ok cs ↔
    ∃ parts, List.Forall₂ (fun c part => commands glyphs [c] = .ok part) r parts ∧
      cs = parts.flatten := by
  simp only [commands_singleton]
  unfold commands
  rw [Pen.replay_eq]
  exact Drawn.outcome_sequence

end Recording

/-- Recordings that replay one after the other are drawn as one and the other. Every call adds what
it adds alone, wherever the pen is, and keeps its points in it: a quadratic curve has a piece for
each of its controls, and a cubic one a piece less than it has controls. -/
theorem replay_compositional_and_point_faithful [Depth] {glyphs : Option GlyphSet}
    {r₁ r₂ : Recording} {cs₁ cs₂ : List Command} (h₁ : Recording.commands glyphs r₁ = .ok cs₁)
    (h₂ : Recording.commands glyphs r₂ = .ok cs₂) :
    Recording.commands glyphs (r₁ ++ r₂) = .ok (cs₁ ++ cs₂) ∧
      (∃ parts, List.Forall₂ (fun c part => Recording.commands glyphs [c] = .ok part ∧
          (∀ current, (Pen.perform glyphs c current).1.outcome = .ok part) ∧
          c.Contributes part) (r₁ ++ r₂) parts ∧ cs₁ ++ cs₂ = parts.flatten) ∧
      ∀ v w, Recording.commands glyphs [Call.curveTo [v, w]] =
        Recording.commands glyphs [Call.qCurveTo [v, w]] := by
  have happend := Recording.commands_append.mpr ⟨cs₁, cs₂, h₁, h₂, rfl⟩
  refine ⟨happend, ?_, fun v w => ?_⟩
  · obtain ⟨parts, hparts, hcs⟩ := Recording.commands_eq_ok.mp happend
    refine ⟨parts, hparts.imp fun c part hpart => ?_, hcs⟩
    have hcall := (Recording.commands_singleton glyphs c).symm.trans hpart
    refine ⟨hpart, fun current => ?_, Pen.contributes_of_call hcall⟩
    rw [(Pen.perform_blind glyphs c).eq_drawn]
    exact hcall
  · rw [Recording.commands_singleton, Recording.commands_singleton, Pen.call_curveTo,
      Pen.call_qCurveTo]
    rfl

def pairOf (x y : ℤ) : Value := .tuple [.int x, .int y]

/-- A contour that is begun, and a curve with two points off it. -/
def halfDrop : Recording :=
  [Call.moveTo (pairOf 0 0), Call.qCurveTo [pairOf 0 4, pairOf 6 4, pairOf 8 0]]

/-- A curve with three controls back to the beginning, and a dot. -/
def restOfDrop : Recording :=
  [Call.curveTo [pairOf 8 (-3), pairOf 4 (-5), pairOf 0 (-3), pairOf 0 0], Call.closePath,
    Call.addComponent "dot" (.tuple Matrix.defaults)]

def dots : GlyphSet := [("dot", [Call.moveTo (pairOf 3 1), Call.closePath])]

open scoped Depth in
theorem drop_is_its_halves :
    ∃ cs₁ cs₂, Recording.commands (some dots) halfDrop = .ok cs₁ ∧
      Recording.commands (some dots) restOfDrop = .ok cs₂ ∧
      Recording.commands (some dots) (halfDrop ++ restOfDrop) = .ok (cs₁ ++ cs₂) := by
  obtain ⟨cs₁, h₁⟩ := exists_ok_of_toBool
    (by decide +kernel : (Recording.commands (some dots) halfDrop).toBool = true)
  obtain ⟨cs₂, h₂⟩ := exists_ok_of_toBool
    (by decide +kernel : (Recording.commands (some dots) restOfDrop).toBool = true)
  exact ⟨cs₁, cs₂, h₁, h₂, (replay_compositional_and_point_faithful h₁ h₂).1⟩

end VectorPath
