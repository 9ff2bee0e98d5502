import VectorPath.Proofs.Drawing.Contours

/-!
# Drawing contours

A contour of points is drawn by calls that begin it, go once around and close it, and strokes are
closed where the next contour begins. Both give contours of the grammar: quadratic ones, also
through a matrix in front of the pen, and cubic ones.
-/

namespace VectorPath

namespace Pen

variable (glyphs : Option GlyphSet) (fuel : ℕ) (matrix : Option Matrix)

theorem draw_moveTo (p : Value) :
    draw glyphs (fuel + 4) matrix (Call.moveTo p) = .bind (mapPoint matrix p) move := by
  rw [draw_eq]
  cases matrix <;> rfl

theorem draw_lineTo (p : Value) :
    draw glyphs (fuel + 4) matrix (Call.lineTo p) = .bind (mapPoint matrix p) line := by
  rw [draw_eq]
  cases matrix <;> rfl

theorem draw_curveTo (points : List Value) :
    draw glyphs (fuel + 4) matrix (Call.curveTo points) =
      .bind (mapPoints matrix points) cubicCurve := draw_eq glyphs fuel matrix _

theorem draw_qCurveTo (points : List Value) :
    draw glyphs (fuel + 4) matrix (Call.qCurveTo points) =
      .bind (mapQuadratic matrix points) quadraticCurve := draw_eq glyphs fuel matrix _

theorem draw_closePath : draw glyphs (fuel + 4) matrix Call.closePath = close := by
  rw [draw_eq]
  cases matrix <;> rfl

/-- Closing a contour that has been begun by some calls. -/
theorem completes_closed {format : FontFormat} {calls : Recording}
    (h : (Drawn.sequence (draw glyphs (fuel + 4) matrix) calls).Completes (IsOpenContour format)) :
    (Drawn.sequence (draw glyphs (fuel + 4) matrix) (calls ++ [Call.closePath])).Completes
      (IsContour format) := by
  rw [Drawn.sequence_append, Drawn.sequence_singleton, draw_closePath]
  have hclose : close.Completes (· = [Command.absolute .closePath]) := ⟨rfl, rfl⟩
  apply h.andThen hclose
  rintro cs ds hcs rfl
  exact hcs.close

end Pen

namespace ContourPoint

/-- A point with coordinates of at most so many bits. -/
structure Bounded (bits : ℕ) (p : ContourPoint) : Prop where
  x : p.x.natAbs ≤ 2 ^ bits
  y : p.y.natAbs ≤ 2 ^ bits

variable {bits : ℕ} {p : ContourPoint}

instance : Decidable (p.Bounded bits) :=
  decidable_of_iff (p.x.natAbs ≤ 2 ^ bits ∧ p.y.natAbs ≤ 2 ^ bits)
    ⟨fun h => ⟨h.1, h.2⟩, fun h => ⟨h.x, h.y⟩⟩

theorem Bounded.toValue (h : p.Bounded bits) : p.toValue.BoundedPair bits :=
  .tuple (.number h.x) (.number h.y)

/-- A point stays bounded through a matrix, or without one. -/
def ShownBy (matrix : Option Matrix) (bits : ℕ) (p : ContourPoint) : Prop :=
  SucceedsWith (Value.BoundedPair bits) (Pen.mapPoint matrix p.toValue)

theorem Bounded.shownBy {k : ℕ} {matrix : Option Matrix} (h : p.Bounded 32)
    (hmatrix : ∀ m, matrix = some m → m.Bounded k) (hk : k ≤ 960) : p.ShownBy matrix (k + 34) := by
  cases matrix with
  | none => exact succeedsWith_ok (h.toValue.mono (by omega))
  | some m => exact Matrix.apply_bounded (hmatrix m rfl) h.toValue hk

end ContourPoint

namespace Pen

variable {matrix : Option Matrix} {bits : ℕ} {contour points : List ContourPoint}

theorem mapPoints_shown (h : ∀ p ∈ points, p.ShownBy matrix bits) :
    SucceedsWith (fun qs => qs.length = points.length ∧ ∀ q ∈ qs, q.BoundedPair bits)
      (mapPoints matrix (points.map ContourPoint.toValue)) := by
  have hvalues : ∀ v ∈ points.map ContourPoint.toValue,
      SucceedsWith (Value.BoundedPair bits) (mapPoint matrix v) := List.forall_mem_map.mpr h
  rw [← List.length_map ContourPoint.toValue]
  exact SucceedsWith.mapM hvalues

/-- The points of a curve with an end are shown like other points. -/
theorem mapQuadratic_points (hne : points ≠ []) :
    mapQuadratic matrix (points.map ContourPoint.toValue) =
      mapPoints matrix (points.map ContourPoint.toValue) := by
  have hvalues : points.map ContourPoint.toValue ≠ [] := by simpa using hne
  cases matrix with
  | none => rfl
  | some m =>
      unfold mapQuadratic
      rw [List.getLast?_eq_some_getLast hvalues, List.getLast_map]
      rfl

theorem mapPoints_none (vs : List Value) : mapPoints none vs = .ok vs := by
  induction vs with
  | nil => rfl
  | cons v vs ih =>
      unfold mapPoints at ih ⊢
      rw [List.mapM_cons, ih]
      rfl

/-- The mark of a curve without an end stays behind its points. -/
theorem mapQuadratic_closed (h : ∀ p ∈ points, p.ShownBy matrix bits) :
    SucceedsWith (fun qs => ∃ rs, qs = rs ++ [.null] ∧ rs.length = points.length ∧
        ∀ r ∈ rs, r.BoundedPair bits)
      (mapQuadratic matrix (points.map ContourPoint.toValue ++ [.null])) := by
  have hpoints := mapPoints_shown h
  cases matrix with
  | none =>
      obtain ⟨rs, hrs, hlength, hbounded⟩ := hpoints
      rw [mapPoints_none] at hrs
      obtain rfl := Except.ok.inj hrs
      refine ⟨_, ?_, _, rfl, hlength, hbounded⟩
      exact mapPoints_none _
  | some m =>
      unfold mapQuadratic
      rw [List.getLast?_concat, List.dropLast_concat]
      apply hpoints.bind
      rintro rs ⟨hlength, hbounded⟩
      exact succeedsWith_ok ⟨rs, rfl, hlength, hbounded⟩

end Pen

/-- A call for a line to one of the points, or for a curve to some of them. -/
inductive CallAlong (points : List ContourPoint) : Call → Prop
  | line {p : ContourPoint} : p ∈ points → CallAlong points (Call.lineTo p.toValue)
  | curve {ps : List ContourPoint} : ps ≠ [] → (∀ p ∈ ps, p ∈ points) →
      CallAlong points (Call.qCurveTo (ps.map ContourPoint.toValue))

theorem CallAlong.mono {points more : List ContourPoint} {call : Call}
    (h : CallAlong points call) (hmore : ∀ p ∈ points, p ∈ more) : CallAlong more call := by
  cases h with
  | line hp => exact .line (hmore _ hp)
  | curve hne hps => exact .curve hne fun p hp => hmore p (hps p hp)

theorem Outline.runs_along (off points : List ContourPoint) :
    ∀ call ∈ runs off points, CallAlong (off ++ points) call := by
  fun_induction runs off points with
  | case1 off => nofun
  | case2 off p rest _ call ih =>
      have hrest : ∀ q ∈ [] ++ rest, q ∈ off ++ p :: rest := fun q hq =>
        List.mem_append_right off (List.mem_cons_of_mem p hq)
      have hp : p ∈ off ++ p :: rest := List.mem_append_right off (List.mem_cons_self ..)
      intro c hc
      rcases List.mem_append.mp hc with hc | hc
      · change c ∈ (if off.isEmpty then if rest.isEmpty then [] else _ else _) at hc
        split_ifs at hc
        · cases hc
        · obtain rfl := List.mem_singleton.mp hc
          exact .line hp
        · obtain rfl := List.mem_singleton.mp hc
          refine .curve (by simp) fun q hq => ?_
          rcases List.mem_append.mp hq with hq | hq
          · exact List.mem_append_left _ hq
          · obtain rfl := List.mem_singleton.mp hq
            exact hp
      · exact (ih c hc).mono hrest
  | case3 off p rest _ ih =>
      rw [List.append_assoc] at ih
      exact ih

theorem Outline.mem_fromFirstOnCurve {contour : List ContourPoint} {p : ContourPoint}
    (h : p ∈ fromFirstOnCurve contour) : p ∈ contour := by
  unfold fromFirstOnCurve at h
  rcases List.mem_append.mp h with h | h
  · rcases List.mem_append.mp h with h | h
    · exact (List.dropWhile_sublist _).subset (List.mem_of_mem_drop h)
    · exact (List.takeWhile_sublist _).subset h
  · exact (List.dropWhile_sublist _).subset (List.mem_of_mem_take h)

namespace Pen

variable {matrix : Option Matrix} {bits : ℕ} {contour points : List ContourPoint}
  (glyphs : Option GlyphSet) (fuel : ℕ)

theorem completes_callAlong {call : Call} (hcall : CallAlong points call)
    (h : ∀ p ∈ points, p.ShownBy matrix bits) (hbits : bits < 999) :
    (draw glyphs (fuel + 4) matrix call).Completes FontFormat.trueType.DrawsAll := by
  cases hcall with
  | line hp =>
      rw [draw_lineTo]
      exact Drawn.completes_bind (h _ hp) fun q hq => completes_line hq.isPair
  | curve hne hps =>
      rw [draw_qCurveTo, mapQuadratic_points hne]
      apply Drawn.completes_bind (mapPoints_shown fun p hp => h p (hps p hp))
      rintro qs ⟨hlength, hqs⟩
      apply completes_quadraticCurve hqs _ hbits
      intro hnil
      rw [hnil] at hlength
      exact hne (List.length_eq_zero_iff.mp hlength.symm)

/-- A contour of points is drawn as one contour. Without a point on the curve it begins where its
one curve does. -/
theorem completes_contourCalls (hne : contour ≠ []) (h : ∀ p ∈ contour, p.ShownBy matrix bits)
    (hbits : bits + 1 < 999) :
    (Drawn.sequence (draw glyphs (fuel + 4) matrix) (Outline.contourCalls contour)).Completes
      (IsContour .trueType) := by
  unfold Outline.contourCalls
  cases hstart : contour.find? ContourPoint.onCurve with
  | none =>
      change (Drawn.sequence _ ([Call.qCurveTo _] ++ [Call.closePath])).Completes _
      apply completes_closed
      rw [Drawn.sequence_singleton, draw_qCurveTo]
      apply Drawn.completes_bind (mapQuadratic_closed h)
      rintro qs ⟨rs, rfl, hlength, hrs⟩
      apply completes_closedCurve hrs _ hbits
      intro hnil
      rw [hnil] at hlength
      exact hne (List.length_eq_zero_iff.mp hlength.symm)
  | some start =>
      apply completes_closed
      have hmove : (draw glyphs (fuel + 4) matrix (Call.moveTo start.toValue)).Completes
          (IsOpenContour .trueType) := by
        rw [draw_moveTo]
        exact Drawn.completes_bind (h start (List.mem_of_find?_eq_some hstart)) fun q hq =>
          completes_move hq.isPair
      apply hmove.andThen _ fun _ _ => IsOpenContour.append
      apply Drawn.completes_drawsAll
      have hshown : ∀ p ∈ Outline.fromFirstOnCurve contour, p.ShownBy matrix bits := fun p hp =>
        h p (Outline.mem_fromFirstOnCurve hp)
      intro call hcall
      exact completes_callAlong glyphs fuel (Outline.runs_along [] _ call hcall) hshown (by omega)

end Pen

/-- Calls of cubic outlines; a call that ends a contour may have any arguments. -/
inductive Call.IsStroke : Call → Prop
  | moveTo {p : Value} : p.IsPair → IsStroke (Call.moveTo p)
  | lineTo {p : Value} : p.IsPair → IsStroke (Call.lineTo p)
  | curveTo {p q r : Value} : p.IsPair → q.IsPair → r.IsPair → IsStroke (Call.curveTo [p, q, r])
  | closePath (arguments : List Value) : IsStroke ⟨Method.closePath.name, arguments⟩
  | endPath (arguments : List Value) : IsStroke ⟨Method.endPath.name, arguments⟩

/-- What is left of an outline in which a contour has been begun. -/
inductive IsRest (format : FontFormat) : List Command → Prop
  | closed {cs rest : List Command} : format.DrawsAll cs → IsOutline format rest →
      IsRest format (cs ++ .absolute .closePath :: rest)

theorem IsRest.close {format : FontFormat} {rest : List Command} (h : IsOutline format rest) :
    IsRest format (.absolute .closePath :: rest) := by
  have hnone : format.DrawsAll [] := nofun
  exact .closed hnone h

theorem IsRest.drawn {format : FontFormat} {cs rest : List Command} (hcs : format.DrawsAll cs)
    (h : IsRest format rest) : IsRest format (cs ++ rest) := by
  cases h with
  | closed hmiddle hrest =>
      rw [← List.append_assoc]
      exact .closed (hcs.append hmiddle) hrest

theorem IsRest.isOutline {format : FontFormat} {cs rest : List Command}
    (hcs : IsOpenContour format cs) (h : IsRest format rest) : IsOutline format (cs ++ rest) := by
  cases h with
  | closed hmiddle hrest =>
      rw [List.append_cons, ← List.append_assoc, ← List.append_assoc]
      exact .contour (hcs.append hmiddle).close hrest

namespace Pen

variable (glyphs : Option GlyphSet) (fuel : ℕ)

theorem completes_begun {p : Value} (hp : p.IsPair) {rest : Drawn}
    (hrest : rest.Completes (IsRest .openType)) :
    ((draw glyphs (fuel + 4) none (Call.moveTo p)).andThen fun _ => rest).Completes
      (IsOutline .openType) := by
  rw [draw_moveTo]
  exact (completes_move hp).andThen hrest fun _ _ => IsRest.isOutline

/-- Strokes behind a move go on with the contour that it began, close it and draw the others. -/
theorem completes_openStrokes {recording : Recording} (h : ∀ c ∈ recording, c.IsStroke) :
    (Drawn.sequence (draw glyphs (fuel + 4) none) (Outline.closedStrokes true recording)).Completes
      (IsRest .openType) := by
  induction recording with
  | nil =>
      change (Drawn.sequence _ [Call.closePath]).Completes _
      rw [Drawn.sequence_singleton, draw_closePath]
      exact ⟨rfl, .close .nil⟩
  | cons call rest ih =>
      have hrest := ih fun c hc => h c (List.mem_cons_of_mem call hc)
      cases h call (List.mem_cons_self ..) with
      | closePath arguments => exact hrest
      | endPath arguments => exact hrest
      | moveTo hp =>
          have hclose : close.Completes (· = [Command.absolute .closePath]) := ⟨rfl, rfl⟩
          apply hclose.andThen (completes_begun glyphs fuel hp hrest)
          rintro cs ds rfl hds
          exact .close hds
      | lineTo hp =>
          change ((draw glyphs (fuel + 4) none (Call.lineTo _)).andThen fun _ => _).Completes _
          rw [draw_lineTo]
          exact (completes_line hp).andThen hrest fun _ _ => IsRest.drawn
      | curveTo hp hq hr =>
          change ((draw glyphs (fuel + 4) none (Call.curveTo _)).andThen fun _ => _).Completes _
          rw [draw_curveTo]
          exact (completes_cubic hp hq hr).andThen hrest fun _ _ => IsRest.drawn

/-- Strokes that begin with a move are drawn as an outline. -/
theorem completes_closedStrokes {recording : Recording} (h : ∀ c ∈ recording, c.IsStroke)
    (hmove : ∀ c, recording.head? = some c → c.method = Method.moveTo.name) :
    (Drawn.sequence (draw glyphs (fuel + 4) none) (Outline.closedStrokes false recording)).Completes
      (IsOutline .openType) := by
  cases recording with
  | nil => exact Drawn.completes_nothing .nil
  | cons call rest =>
      have hrest := completes_openStrokes glyphs fuel fun c hc => h c (List.mem_cons_of_mem call hc)
      have hmethod := hmove call rfl
      cases h call (List.mem_cons_self ..) with
      | moveTo hp => exact completes_begun glyphs fuel hp hrest
      | _ => simp [Call.lineTo, Call.curveTo, Method.name] at hmethod

end Pen

end VectorPath
