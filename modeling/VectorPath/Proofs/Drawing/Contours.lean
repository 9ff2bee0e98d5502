import VectorPath.Font.Basic
import VectorPath.Proofs.Drawing.Coordinates
import VectorPath.Proofs.Drawing.Motions

/-!
# Contours

An outline is a sequence of contours: a move, then lines and curves of the degree that the font
format has, then the command that closes the contour. Every call of a recorded outline has its part
in this, so drawing is followed call by call: what a call adds, and that nothing goes wrong with it.
-/

namespace VectorPath

/-- Commands that go on with a contour: lines, and curves of one degree. -/
inductive FontFormat.Draws : FontFormat → Command → Prop
  | line (format : FontFormat) (p : Point) : Draws format (.absolute (.lineTo p))
  | quadratic (c p : Point) : Draws .trueType (.absolute (.quadraticCurveTo c p))
  | cubic (c d p : Point) : Draws .openType (.absolute (.curveTo c d p))

def FontFormat.DrawsAll (format : FontFormat) (cs : List Command) : Prop := ∀ c ∈ cs, format.Draws c

inductive IsContour (format : FontFormat) : List Command → Prop
  | closed (start : Point) {middle : List Command} : format.DrawsAll middle →
      IsContour format (.absolute (.moveTo start) :: (middle ++ [.absolute .closePath]))

/-- Contours one after another. -/
inductive IsOutline (format : FontFormat) : List Command → Prop
  | nil : IsOutline format []
  | contour {cs rest : List Command} : IsContour format cs → IsOutline format rest →
      IsOutline format (cs ++ rest)

section Grammar

variable {format : FontFormat} {cs ds : List Command}

theorem FontFormat.DrawsAll.append (h : format.DrawsAll cs) (h' : format.DrawsAll ds) :
    format.DrawsAll (cs ++ ds) := List.forall_mem_append.mpr ⟨h, h'⟩

theorem IsOutline.append (h : IsOutline format cs) (h' : IsOutline format ds) :
    IsOutline format (cs ++ ds) := by
  induction h with
  | nil => exact h'
  | contour hcontour _ ih =>
      rw [List.append_assoc]
      exact .contour hcontour ih

theorem IsOutline.absolute (h : IsOutline format cs) : ∀ c ∈ cs, c.relative = false := by
  induction h with
  | nil => simp
  | contour hcontour _ ih =>
      cases hcontour with
      | closed start hmiddle =>
          have hdrawn : ∀ c, format.Draws c → c.relative = false := by
            rintro c (_ | _ | _) <;> rfl
          intro c hc
          rcases List.mem_append.mp hc with hc | hc
          · rcases List.mem_cons.mp hc with rfl | hc
            · rfl
            · rcases List.mem_append.mp hc with hc | hc
              · exact hdrawn c (hmiddle c hc)
              · obtain rfl := List.mem_singleton.mp hc
                rfl
          · exact ih c hc

theorem IsOutline.head (h : IsOutline format cs) (hne : cs ≠ []) :
    ∃ start, cs.head? = some (.absolute (.moveTo start)) := by
  cases h with
  | nil => exact absurd rfl hne
  | contour hcontour _ =>
      cases hcontour with
      | closed start _ => exact ⟨start, rfl⟩

theorem IsOutline.getLast (h : IsOutline format cs) (hne : cs ≠ []) :
    cs.getLast? = some (.absolute .closePath) := by
  induction h with
  | nil => exact absurd rfl hne
  | @contour cs rest hcontour _ ih =>
      rw [List.getLast?_append]
      by_cases hrest : rest = []
      · rw [hrest]
        cases hcontour with
        | closed start _ =>
            rw [← List.cons_append, List.getLast?_concat]
            rfl
      · rw [ih hrest]
        rfl

end Grammar

namespace Drawn

variable {α : Type} {P Q R : List Command → Prop} {A : α → Prop} {draw : α → Drawn} {d : Drawn}

/-- A drawing comes to its end, and its commands have a property. -/
def Completes (P : List Command → Prop) (d : Drawn) : Prop := d.failure = none ∧ P d.commands

theorem completes_nothing (h : P []) : nothing.Completes P := ⟨rfl, h⟩

theorem Completes.andThen {next : Unit → Drawn} (h : d.Completes P) (h' : (next ()).Completes Q)
    (happend : ∀ cs ds, P cs → Q ds → R (cs ++ ds)) : (d.andThen next).Completes R := by
  obtain ⟨cs, failure⟩ := d
  obtain ⟨rfl, hcs⟩ := h
  exact ⟨h'.1, happend cs _ hcs h'.2⟩

theorem Completes.outcome (h : d.Completes P) : d.outcome = .ok d.commands := by
  unfold Drawn.outcome
  rw [h.1]

theorem outcome_of_failure {f : Failure} (h : d.failure = some f) : d.outcome = .error f := by
  unfold Drawn.outcome
  rw [h]

theorem completes_bind {o : Outcome α} (h : SucceedsWith A o)
    (hdraw : ∀ a, A a → (draw a).Completes P) : (bind o draw).Completes P := by
  obtain ⟨a, rfl, ha⟩ := h
  exact hdraw a ha

theorem andThen_nothing (d : Drawn) : (d.andThen fun _ => nothing) = d := by
  obtain ⟨cs, _ | f⟩ := d
  · change (⟨cs ++ [], none⟩ : Drawn) = _
    rw [List.append_nil]
  · rfl

theorem andThen_assoc (d : Drawn) (next next' : Unit → Drawn) :
    (d.andThen next).andThen next' = d.andThen fun _ => (next ()).andThen next' := by
  obtain ⟨cs, _ | f⟩ := d
  · unfold Drawn.andThen
    cases (next ()).failure with
    | none => simp
    | some f => rfl
  · rfl

theorem sequence_append (draw : α → Drawn) (xs ys : List α) :
    sequence draw (xs ++ ys) = (sequence draw xs).andThen fun _ => sequence draw ys := by
  induction xs with
  | nil =>
      change _ = (⟨[] ++ (sequence draw ys).commands, (sequence draw ys).failure⟩ : Drawn)
      rfl
  | cons x xs ih =>
      change ((draw x).andThen fun _ => sequence draw (xs ++ ys)) = _
      rw [ih]
      exact (andThen_assoc (draw x) (fun _ => sequence draw xs) _).symm

theorem sequence_singleton (draw : α → Drawn) (x : α) : sequence draw [x] = draw x :=
  andThen_nothing (draw x)

/-- What every item keeps, and joining keeps, a sequence keeps. -/
theorem completes_sequence {xs : List α} (hnil : P [])
    (happend : ∀ cs ds, P cs → P ds → P (cs ++ ds)) (h : ∀ x ∈ xs, (draw x).Completes P) :
    (sequence draw xs).Completes P := by
  induction xs with
  | nil => exact completes_nothing hnil
  | cons x xs ih =>
      exact (h x (List.mem_cons_self ..)).andThen
        (ih fun y hy => h y (List.mem_cons_of_mem x hy)) happend

theorem completes_drawsAll {format : FontFormat} {xs : List α}
    (h : ∀ x ∈ xs, (draw x).Completes format.DrawsAll) :
    (sequence draw xs).Completes format.DrawsAll :=
  completes_sequence nofun (fun _ _ => FontFormat.DrawsAll.append) h

end Drawn

def Value.IsPair (p : Value) : Prop := ∃ x y, p = .tuple [x, y]

theorem Value.BoundedPair.isPair {bits : ℕ} {p : Value} (h : p.BoundedPair bits) : p.IsPair := by
  cases h with
  | tuple hx hy => exact ⟨_, _, rfl⟩

/-- A contour that has been begun and not been closed. -/
inductive IsOpenContour (format : FontFormat) : List Command → Prop
  | opened (start : Point) {middle : List Command} : format.DrawsAll middle →
      IsOpenContour format (.absolute (.moveTo start) :: middle)

theorem IsOpenContour.append {format : FontFormat} {cs ds : List Command}
    (h : IsOpenContour format cs) (h' : format.DrawsAll ds) : IsOpenContour format (cs ++ ds) := by
  cases h with
  | opened start hmiddle => exact .opened start (hmiddle.append h')

theorem IsOpenContour.close {format : FontFormat} {cs : List Command}
    (h : IsOpenContour format cs) : IsContour format (cs ++ [.absolute .closePath]) := by
  cases h with
  | opened start hmiddle => exact .closed start hmiddle

namespace Pen

variable {format : FontFormat} {p q r : Value} {bits : ℕ}

theorem drawsAll_singleton {c : Command} (h : format.Draws c) : format.DrawsAll [c] :=
  List.forall_mem_singleton.mpr h

theorem completes_move (h : p.IsPair) : (move p).Completes (IsOpenContour format) := by
  obtain ⟨x, y, rfl⟩ := h
  exact ⟨rfl, .opened ⟨x, y⟩ nofun⟩

theorem completes_line (h : p.IsPair) : (line p).Completes format.DrawsAll := by
  obtain ⟨x, y, rfl⟩ := h
  exact ⟨rfl, drawsAll_singleton (.line format ⟨x, y⟩)⟩

theorem completes_cubic (hp : p.IsPair) (hq : q.IsPair) (hr : r.IsPair) :
    (cubic ⟨p, q, r⟩).Completes FontFormat.openType.DrawsAll := by
  obtain ⟨x, y, rfl⟩ := hp
  obtain ⟨u, v, rfl⟩ := hq
  obtain ⟨s, t, rfl⟩ := hr
  exact ⟨rfl, drawsAll_singleton (.cubic ⟨x, y⟩ ⟨u, v⟩ ⟨s, t⟩)⟩

theorem completes_quadratic (hp : p.IsPair) (hq : q.IsPair) :
    (quadratic (p, q)).Completes FontFormat.trueType.DrawsAll := by
  obtain ⟨x, y, rfl⟩ := hp
  obtain ⟨u, v, rfl⟩ := hq
  exact ⟨rfl, drawsAll_singleton (.quadratic ⟨x, y⟩ ⟨u, v⟩)⟩

variable {points : List Value}

/-- A quadratic curve splits into pieces, each of which is drawn. -/
theorem completes_quadraticTo (h : ∀ p ∈ points, p.BoundedPair bits) (hbits : bits < 999) :
    (quadraticTo points).Completes FontFormat.trueType.DrawsAll := by
  rw [quadraticTo_eq]
  split
  next p => exact completes_line (h p (List.mem_singleton_self p)).isPair
  next =>
      apply Drawn.completes_bind (Curve.quadraticPieces_bounded h hbits)
      intro pieces hpieces
      apply Drawn.completes_drawsAll
      intro piece hpiece
      obtain ⟨hcontrol, hend⟩ := hpieces piece hpiece
      exact completes_quadratic hcontrol.isPair hend.isPair

/-- A curve with an end goes on with a contour. -/
theorem completes_quadraticCurve (h : ∀ p ∈ points, p.BoundedPair bits) (hne : points ≠ [])
    (hbits : bits < 999) : (quadraticCurve points).Completes FontFormat.trueType.DrawsAll := by
  have hlast := h _ (List.getLast_mem hne)
  rw [quadraticCurve_eq]
  rw [List.getLast?_eq_some_getLast hne]
  generalize points.getLast hne = last at hlast
  cases hlast with
  | tuple _ _ => exact completes_quadraticTo h hbits

/-- A curve without an end begins a contour of its own. -/
theorem completes_closedCurve (h : ∀ p ∈ points, p.BoundedPair bits) (hne : points ≠ [])
    (hbits : bits + 1 < 999) :
    (quadraticCurve (points ++ [.null])).Completes (IsOpenContour .trueType) := by
  rw [quadraticCurve_eq]
  rw [List.getLast?_concat, List.dropLast_concat, List.getLast?_eq_some_getLast hne,
    List.head?_append_of_ne_nil _ hne, List.head?_eq_some_head hne]
  have hlast := h _ (List.getLast_mem hne)
  have hfirst := h _ (List.head_mem hne)
  apply Drawn.completes_bind (Curve.midpoint_bounded hlast hfirst (by omega))
  intro start hstart
  apply (completes_move hstart.isPair).andThen _ fun _ _ => IsOpenContour.append
  apply completes_quadraticTo _ hbits
  intro p hp
  rcases List.mem_append.mp hp with hp | hp
  · exact (h p hp).mono (Nat.le_succ bits)
  · obtain rfl := List.mem_singleton.mp hp
    exact hstart

end Pen

end VectorPath
