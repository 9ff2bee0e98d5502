import Mathlib.Data.List.Rotate
import Mathlib.Order.Bounds.Defs
import VectorPath.Proofs.Drawing.Replay
import VectorPath.Proofs.Font.Outlines
import VectorPath.Proofs.Number.Halves

/-!
# Tracing contours

A contour is drawn point by point, from its first point on the curve once around and back. What is
drawn between two consecutive points depends on those two alone, so the contour of the commands is
read off the contour of the points, and no point is lost or drawn twice. Only the straight line that
would lead back to the start is left to the command that closes the contour.
-/

namespace VectorPath

namespace ContourPoint

def toPoint (p : ContourPoint) : Point := ⟨.int p.x, .int p.y⟩

/-- A point exactly midway between two points of a contour. -/
def Midway (p q : ContourPoint) (m : Point) : Prop :=
  ∃ x y : Binary64, m = ⟨.float x, .float y⟩ ∧
    x.exact = .rational (((p.x : ℚ) + q.x) / 2) ∧ y.exact = .rational (((p.y : ℚ) + q.y) / 2)

theorem midway_of_isMiddle {p q : ContourPoint} {m : Point} (hp : p.Bounded 34) (hq : q.Bounded 34)
    (h : p.toPoint.IsMiddle q.toPoint m) : p.Midway q m := by
  have hpx := hp.x
  have hpy := hp.y
  have hqx := hq.x
  have hqy := hq.y
  obtain ⟨x, hx, hx'⟩ := Curve.middle_int (i := p.x) (j := q.x) (by omega)
  obtain ⟨y, hy, hy'⟩ := Curve.middle_int (i := p.y) (j := q.y) (by omega)
  obtain ⟨mx, my⟩ := m
  obtain rfl := Except.ok.inj (h.1.symm.trans hx)
  obtain rfl := Except.ok.inj (h.2.symm.trans hy)
  exact ⟨x, y, rfl, hx', hy'⟩

end ContourPoint

/-- What is drawn on the way from one point to the next. A point off the curve is the control of the
curve that leads away from it, to the next point or midway to it. -/
inductive Along (p q : ContourPoint) : List Command → Prop
  | line : p.onCurve = true → q.onCurve = true → Along p q [.absolute (.lineTo q.toPoint)]
  | toControl : p.onCurve = true → q.onCurve = false → Along p q []
  | fromControl : p.onCurve = false → q.onCurve = true →
      Along p q [.absolute (.quadraticCurveTo p.toPoint q.toPoint)]
  | between {m : Point} : p.onCurve = false → q.onCurve = false → p.Midway q m →
      Along p q [.absolute (.quadraticCurveTo p.toPoint m)]

/-- What is drawn along some points and back to the start. The way back is left out if it is
straight. -/
inductive Tour (start : Point) : List ContourPoint → List Command → Prop
  | straight {last : ContourPoint} : last.onCurve = true → Tour start [last] []
  | curved {last : ContourPoint} : last.onCurve = false →
      Tour start [last] [.absolute (.quadraticCurveTo last.toPoint start)]
  | step {p q : ContourPoint} {rest : List ContourPoint} {cs ds : List Command} : Along p q cs →
      Tour start (q :: rest) ds → Tour start (p :: q :: rest) (cs ++ ds)

/-- The commands of a contour: it starts at the first point on the curve, or midway between the last
and the first point if all are off the curve. -/
inductive Traces : List ContourPoint → List Command → Prop
  | fromOnCurve {before after : List ContourPoint} {start : ContourPoint} {cs : List Command} :
      (∀ p ∈ before, p.onCurve = false) → start.onCurve = true →
      Tour start.toPoint (start :: (after ++ before)) cs →
      Traces (before ++ start :: after)
        (.absolute (.moveTo start.toPoint) :: (cs ++ [.absolute .closePath]))
  | ring {points : List ContourPoint} {first last : ContourPoint} {start : Point}
      {cs : List Command} : (∀ p ∈ points, p.onCurve = false) → points.head? = some first →
      points.getLast? = some last → last.Midway first start → Tour start points cs →
      Traces points (.absolute (.moveTo start) :: (cs ++ [.absolute .closePath]))

section Curves

variable {start : Point} {off : List ContourPoint} {cs ds : List Command}

/-- A spline is the part of a tour along its controls. Its last piece ends at the next point on the
curve or back at the start. -/
theorem tour_of_spline {finish : Point} {rest : List ContourPoint}
    (hoff : ∀ p ∈ off, p.onCurve = false) (hbounded : ∀ p ∈ off, p.Bounded 34)
    (h : IsSpline (off.map ContourPoint.toPoint) finish cs)
    (hlast : ∀ p : ContourPoint, p.onCurve = false →
      Tour start (p :: rest) (.absolute (.quadraticCurveTo p.toPoint finish) :: ds)) :
    Tour start (off ++ rest) (cs ++ ds) := by
  induction off generalizing cs with
  | nil => cases h
  | cons p off ih =>
      obtain ⟨hp, hoff⟩ := List.forall_mem_cons.mp hoff
      obtain ⟨hp', hbounded⟩ := List.forall_mem_cons.mp hbounded
      rcases off with _ | ⟨q, off⟩
      · cases h
        exact hlast p hp
      · cases h with
        | joint hmiddle hspline =>
            have hq := hoff q (List.mem_cons_self ..)
            have hq' := hbounded q (List.mem_cons_self ..)
            have htour := Tour.step (.between hp hq
              (ContourPoint.midway_of_isMiddle hp' hq' hmiddle)) (ih hoff hbounded hspline)
            exact htour

/-- Nothing is drawn on the way to a control. -/
theorem Tour.enter {prev : ContourPoint} (hprev : prev.onCurve = true)
    (hoff : ∀ p ∈ off, p.onCurve = false) (hne : off ≠ []) {rest : List ContourPoint}
    (h : Tour start (off ++ rest) cs) : Tour start (prev :: (off ++ rest)) cs := by
  obtain ⟨p, off, rfl⟩ := List.exists_cons_of_ne_nil hne
  exact .step (.toControl hprev (hoff p (List.mem_cons_self ..))) h

end Curves

namespace Outline

variable {off rest before after : List ContourPoint} {p start : ContourPoint}

theorem runs_off (hp : p.onCurve = false) : runs off (p :: rest) = runs (off ++ [p]) rest := by
  rw [runs, if_neg (by simp [hp])]

theorem runs_curve (hp : p.onCurve = true) (hoff : off ≠ []) : runs off (p :: rest) =
    Call.qCurveTo ((off ++ [p]).map ContourPoint.toValue) :: runs [] rest := by
  rw [runs, if_pos hp, if_neg (by simpa using hoff)]
  rfl

theorem runs_line (hp : p.onCurve = true) (hrest : rest ≠ []) :
    runs [] (p :: rest) = Call.lineTo p.toValue :: runs [] rest := by
  rw [runs, if_pos hp]
  simp [hrest]

theorem runs_last (hp : p.onCurve = true) : runs [] [p] = [] := by
  rw [runs, if_pos hp]
  rfl

theorem fromFirstOnCurve_append (hbefore : ∀ p ∈ before, p.onCurve = false)
    (hstart : start.onCurve = true) :
    fromFirstOnCurve (before ++ start :: after) = after ++ before ++ [start] := by
  have hall : ∀ p ∈ before, (!p.onCurve) = true := fun p hp => by rw [hbefore p hp]; rfl
  have hstop : ¬ (!start.onCurve) = true := by rw [hstart]; decide
  unfold fromFirstOnCurve
  rw [List.takeWhile_append_of_pos hall, List.dropWhile_append_of_pos hall,
    List.takeWhile_cons_of_neg (p := fun q : ContourPoint => !q.onCurve) hstop,
    List.dropWhile_cons_of_neg (p := fun q : ContourPoint => !q.onCurve) hstop, List.append_nil]
  rfl

end Outline

section Tracing

variable {glyphs : Option GlyphSet} {off points contour : List ContourPoint}
  {prev p start : ContourPoint} {cs : List Command}

theorem points_toPoint {ps : List Point}
    (h : List.Forall₂ (fun v p => Point.ofValue v = .ok p) (off.map ContourPoint.toValue) ps) :
    ps = off.map ContourPoint.toPoint := by
  rw [List.forall₂_map_left_iff] at h
  induction h with
  | nil => rfl
  | cons hp _ ih => rw [List.map_cons, ← ih, ← Except.ok.inj hp]; rfl

theorem spline_of_call [Depth] (hoff : off ≠ [])
    (h : (Pen.call glyphs (Call.qCurveTo ((off ++ [p]).map ContourPoint.toValue))).outcome =
      .ok cs) :
    IsSpline (off.map ContourPoint.toPoint) p.toPoint cs := by
  have hfinish : p.toValue ≠ .null := nofun
  rw [Pen.call_qCurveTo, List.map_append, List.map_singleton,
    Pen.quadraticCurve_of_finish hfinish] at h
  obtain ⟨ps, e, hps, he, hspline⟩ := Pen.quadraticTo_ok (by simpa using hoff) h
  obtain rfl := points_toPoint hps
  obtain rfl : p.toPoint = e := Except.ok.inj he
  exact hspline

/-- The calls from a point on the curve through the rest of a contour draw the tour through it. The
points off the curve since then are kept until the curve through them ends. -/
theorem tour_of_runs [Depth] (hprev : prev.onCurve = true) (hstart : start.onCurve = true)
    (hoff : ∀ p ∈ off, p.onCurve = false) (hbounded : ∀ p ∈ off ++ points, p.Bounded 34)
    (h : Recording.commands glyphs (Outline.runs off (points ++ [start])) = .ok cs) :
    Tour start.toPoint (prev :: (off ++ points)) cs := by
  induction points generalizing prev off cs with
  | nil =>
      by_cases hne : off = []
      · subst hne
        rw [List.nil_append, Outline.runs_last hstart] at h
        obtain rfl := Except.ok.inj h
        exact .straight hprev
      · rw [List.nil_append, Outline.runs_curve hstart hne] at h
        obtain ⟨curve, ds, hcurve, hrest, rfl⟩ := Recording.commands_cons.mp h
        obtain rfl : [] = ds := Except.ok.inj hrest
        rw [List.append_nil] at hbounded
        have htour := tour_of_spline hoff hbounded (spline_of_call hne hcurve) fun _ => .curved
        exact htour.enter hprev hoff hne
  | cons q points ih =>
      have hpoints : ∀ p ∈ [] ++ points, p.Bounded 34 := fun p hp =>
        hbounded p (List.mem_append_right off (List.mem_cons_of_mem q hp))
      rw [List.cons_append] at h
      cases hq : q.onCurve with
      | false =>
          rw [Outline.runs_off hq] at h
          rw [List.append_cons] at hbounded ⊢
          refine ih hprev (fun p hp => ?_) hbounded h
          rcases List.mem_append.mp hp with hp | hp
          · exact hoff p hp
          · rwa [List.mem_singleton.mp hp]
      | true =>
          by_cases hne : off = []
          · subst hne
            rw [Outline.runs_line hq (by simp)] at h
            obtain ⟨line, ds, hline, hrest, rfl⟩ := Recording.commands_cons.mp h
            rw [Pen.call_lineTo] at hline
            obtain ⟨p, hp, rfl⟩ := Pen.line_ok hline
            obtain rfl : q.toPoint = p := Except.ok.inj hp
            exact .step (.line hprev hq) (ih hq (by simp) hpoints hrest)
          · rw [Outline.runs_curve hq hne] at h
            obtain ⟨curve, ds, hcurve, hrest, rfl⟩ := Recording.commands_cons.mp h
            have hbounded' : ∀ p ∈ off, p.Bounded 34 := fun p hp =>
              hbounded p (List.mem_append_left _ hp)
            have htour := tour_of_spline hoff hbounded' (spline_of_call hne hcurve) fun p hp =>
              .step (.fromControl hp hq) (ih hq (by simp) hpoints hrest)
            exact htour.enter hprev hoff hne

/-- The calls of a contour draw the contour. -/
theorem traces_of_contourCalls [Depth] (hne : contour ≠ []) (hbounded : ∀ p ∈ contour, p.Bounded 34)
    (h : Recording.commands glyphs (Outline.contourCalls contour) = .ok cs) :
    Traces contour cs := by
  unfold Outline.contourCalls at h
  split at h
  next hnone =>
      have hoff : ∀ p ∈ contour, p.onCurve = false := fun p hp =>
        eq_false_of_ne_true (List.find?_eq_none.mp hnone p hp)
      obtain ⟨curve, _, hcurve, hclose, rfl⟩ := Recording.commands_cons.mp h
      rw [Recording.commands_singleton, Pen.call_closePath] at hclose
      obtain rfl := Except.ok.inj hclose
      rw [Pen.call_qCurveTo] at hcurve
      obtain ⟨ps, first, last, start, ds, hps, hfirst, hlast, hmiddle, hspline, rfl⟩ :=
        Pen.closedCurve_ok hcurve
      obtain rfl := points_toPoint hps
      rw [List.head?_map, Option.map_eq_some_iff] at hfirst
      rw [List.getLast?_map, Option.map_eq_some_iff] at hlast
      obtain ⟨p, hp, rfl⟩ := hfirst
      obtain ⟨q, hq, rfl⟩ := hlast
      have hp' := hbounded p (List.mem_of_mem_head? hp)
      have hq' := hbounded q (List.mem_of_mem_getLast? hq)
      have htour := tour_of_spline hoff hbounded hspline fun _ => .curved
      rw [List.append_nil, List.append_nil] at htour
      exact .ring hoff hp hq (ContourPoint.midway_of_isMiddle hq' hp' hmiddle) htour
  next start hsome =>
      obtain ⟨hstart, before, after, rfl, hbefore⟩ := List.find?_eq_some_iff_append.mp hsome
      have hoff : ∀ p ∈ before, p.onCurve = false := fun p hp => by simpa using hbefore p hp
      rw [Outline.fromFirstOnCurve_append hoff hstart] at h
      obtain ⟨move, _, hmove, hrest, rfl⟩ := Recording.commands_cons.mp h
      rw [Pen.call_moveTo] at hmove
      obtain ⟨p, hp, rfl⟩ := Pen.move_ok hmove
      obtain rfl : start.toPoint = p := Except.ok.inj hp
      obtain ⟨ds, _, hruns, hclose, rfl⟩ := Recording.commands_append.mp hrest
      rw [Recording.commands_singleton, Pen.call_closePath] at hclose
      obtain rfl := Except.ok.inj hclose
      apply Traces.fromOnCurve hoff hstart
      apply tour_of_runs hstart hstart (by simp) _ hruns
      intro q hq
      apply hbounded q
      simp only [List.nil_append, List.mem_append, List.mem_cons] at hq ⊢
      tauto

end Tracing

def Command.control? : Command → Option Point
  | ⟨_, .quadraticCurveTo p _⟩ => some p
  | _ => none

section Controls

variable {start : Point} {points contour : List ContourPoint} {cs : List Command}

theorem Along.controls {p q : ContourPoint} (h : Along p q cs) :
    cs.filterMap Command.control? = ([p].filter fun p => !p.onCurve).map ContourPoint.toPoint := by
  cases h with
  | line hp _ => rw [List.filter_cons_of_neg (by simp [hp])]; rfl
  | toControl hp _ => rw [List.filter_cons_of_neg (by simp [hp])]; rfl
  | fromControl hp _ => rw [List.filter_cons_of_pos (by simp [hp])]; rfl
  | between hp _ _ => rw [List.filter_cons_of_pos (by simp [hp])]; rfl

theorem Tour.controls (h : Tour start points cs) :
    cs.filterMap Command.control? =
      (points.filter fun p => !p.onCurve).map ContourPoint.toPoint := by
  induction h with
  | straight hlast => rw [List.filter_cons_of_neg (by simp [hlast])]; rfl
  | curved hlast => rw [List.filter_cons_of_pos (by simp [hlast])]; rfl
  | @step p q rest cs ds halong _ ih =>
      rw [List.filterMap_append, halong.controls, ih, ← List.map_append, ← List.filter_append]
      rfl

/-- The points off the curve are the controls of what is drawn, each one once, in the order of the
contour from some point around. -/
theorem Traces.controls (h : Traces contour cs) :
    ∃ k, cs.filterMap Command.control? =
      ((contour.rotate k).filter fun p => !p.onCurve).map ContourPoint.toPoint := by
  have hclosed : ∀ (p : Point) (ds : List Command),
      (Command.absolute (.moveTo p) :: (ds ++ [.absolute .closePath])).filterMap Command.control? =
        ds.filterMap Command.control? := by
    intro p ds
    change (ds ++ [Command.absolute .closePath]).filterMap Command.control? = _
    rw [List.filterMap_append]
    exact List.append_nil _
  cases h with
  | @fromOnCurve before after start ds hbefore hstart htour =>
      refine ⟨before.length, ?_⟩
      rw [hclosed, htour.controls, List.rotate_append_length_eq]
      rfl
  | ring hoff hfirst hlast hmiddle htour =>
      refine ⟨0, ?_⟩
      rw [hclosed, htour.controls, List.rotate_zero]

end Controls

section Glyphs

variable {contours : List (List ContourPoint)}

theorem Recording.commands_flatMap [Depth] {α : Type} {set : Option GlyphSet} {f : α → Recording}
    {xs : List α} {parts : List (List Command)}
    (h : List.Forall₂ (fun x part => commands set (f x) = .ok part) xs parts) :
    commands set (xs.flatMap f) = .ok parts.flatten := by
  induction h with
  | nil => rfl
  | cons hx _ ih => exact commands_append.mpr ⟨_, _, hx, ih, rfl⟩

/-- Contours with points are drawn, each one traced from its points. -/
theorem exists_traces [Depth] (set : Option GlyphSet) {d : ℤ} (hpoints : ∀ c ∈ contours, c ≠ [])
    (hbounded : ∀ c ∈ contours, ∀ p ∈ c, (p.shifted d).Bounded 34) :
    ∃ drawn, Recording.commands set ((Outline.contours contours).calls d) = .ok drawn.flatten ∧
      List.Forall₂ (fun c part => Traces (c.map (ContourPoint.shifted d)) part) contours drawn := by
  have hcontour : ∀ c ∈ contours, ∃ part,
      Recording.commands set (Outline.contourCalls (c.map (ContourPoint.shifted d))) = .ok part ∧
        Traces (c.map (ContourPoint.shifted d)) part := by
    intro c hc
    have hne : c.map (ContourPoint.shifted d) ≠ [] := by simpa using hpoints c hc
    have hpoints : ∀ p ∈ c.map (ContourPoint.shifted d), p.Bounded 34 :=
      List.forall_mem_map.mpr (hbounded c hc)
    have hcomplete := Pen.completes_contourCalls set (Depth.calls - 4) hne
      (fun p hp => succeedsWith_ok (hpoints p hp).toValue : ∀ p ∈ _, p.ShownBy none 34)
      (by norm_num)
    rw [← Pen.replay_eq_draw] at hcomplete
    have hcommands : Recording.commands set _ = .ok _ := hcomplete.outcome
    exact ⟨_, hcommands, traces_of_contourCalls hne hpoints hcommands⟩
  obtain ⟨drawn, hdrawn⟩ := exists_forall₂ hcontour
  exact ⟨drawn, Recording.commands_flatMap (hdrawn.imp fun _ _ h => h.1),
    hdrawn.imp fun _ _ h => h.2⟩

end Glyphs

/-- A glyph of contours that have points is drawn contour by contour, moved so that its left edge
lies at its bearing, and each contour is traced from its points. -/
theorem contours_are_traced [Depth] {r : OutlineReader Font.library} {font : Font} {name : String}
    {g : Glyph} {contours : List (List ContourPoint)}
    (hloaded : r.font? = some (OpenFont.whole font)) (hg : Font.glyph? font.glyphs name = some g)
    (hcontours : g.outline = .contours contours) (hstored : FontFormat.trueType.StoresGlyph g)
    (hpoints : ∀ c ∈ contours, c ≠ []) :
    ∃ drawn, (r.outline name).1 = .ok drawn.flatten ∧
      List.Forall₂ (fun c part => Traces (c.map (ContourPoint.shifted (g.bearing - g.left))) part)
        contours drawn := by
  obtain ⟨name, bearing, left, outline⟩ := g
  obtain rfl : outline = .contours contours := hcontours
  obtain ⟨hbearing, hleft, houtline⟩ := hstored
  cases houtline with
  | contours hbounded =>
      obtain ⟨drawn, hdrawn, htraces⟩ := exists_traces (some (Font.glyphSet font.glyphs)) hpoints
        fun c hc p hp => (hbounded c hc p hp).moved hbearing hleft
      refine ⟨drawn, ?_, htraces⟩
      have hmeets : Font.meetsEmptyContour font.glyphs font.glyphs.length (.contours contours) =
          false := by
        apply Outline.HasPoints.not_meetsEmptyContour
        intro cs hpart
        cases hpart
        exact hpoints
      unfold OutlineReader.outline
      rw [OutlineReader.ask_loaded hloaded, Font.runOn_outline hg hmeets]
      exact hdrawn

/-- A contour that begins and ends off the curve, and one without a point on it. -/
def leafContours : List (List ContourPoint) :=
  [[⟨0, 4, false⟩, ⟨4, 0, true⟩, ⟨8, 4, true⟩, ⟨8, 8, false⟩, ⟨0, 8, false⟩],
    [⟨2, 2, false⟩, ⟨6, 2, false⟩, ⟨4, 6, false⟩]]

def leaf : Glyph := ⟨"leaf", 5, 0, .contours leafContours⟩

open scoped Depth in
theorem leaf_is_traced :
    ∃ drawn, ((⟨⟨"", ["f"]⟩, some (.whole ⟨.trueType, [leaf]⟩)⟩ :
          OutlineReader Font.library).outline "leaf").1 = .ok drawn.flatten ∧
      List.Forall₂ (fun c part => Traces (c.map (ContourPoint.shifted 5)) part) leafContours
        drawn := by
  have hstored : FontFormat.trueType.StoresGlyph leaf :=
    ⟨by decide, by decide, .contours (by decide)⟩
  exact contours_are_traced (r := ⟨⟨"", ["f"]⟩, some (.whole ⟨.trueType, [leaf]⟩)⟩) rfl
    (by rfl : Font.glyph? [leaf] "leaf" = some leaf) rfl hstored (by decide)

open scoped Depth in
/-- Without points there is no first point to start at, and the glyph is not drawn. -/
theorem contour_without_points_untraced :
    ¬ ∀ (r : OutlineReader Font.library) (font : Font) (name : String) (g : Glyph)
        (contours : List (List ContourPoint)),
      r.font? = some (OpenFont.whole font) → Font.glyph? font.glyphs name = some g →
      g.outline = .contours contours → FontFormat.trueType.StoresGlyph g →
      ∃ drawn, (r.outline name).1 = .ok drawn.flatten ∧
        List.Forall₂
          (fun c part => Traces (c.map (ContourPoint.shifted (g.bearing - g.left))) part)
          contours drawn := by
  intro h
  have hstored : FontFormat.trueType.StoresGlyph brokenGlyph :=
    ⟨by decide, by decide, .contours (by decide)⟩
  obtain ⟨drawn, hdrawn, -⟩ := h ⟨⟨"", ["f"]⟩, some (.whole ⟨.trueType, [brokenGlyph]⟩)⟩ _ "A"
    brokenGlyph _ rfl rfl rfl hstored
  cases hdrawn

end VectorPath
