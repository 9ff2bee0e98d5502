import VectorPath.Proofs.Drawing.Contours
import VectorPath.Proofs.Outcome

/-!
# Curves through any number of points

A quadratic curve is drawn as one piece for each point off the curve, and the pieces meet midway
between those points. A cubic curve is drawn as one piece less than it has controls: its legs are
divided so that two division points complete a piece, and the count of divisions is what decides how
many pieces there are.
-/

namespace VectorPath

namespace Drawn

variable {α : Type} {d : Drawn} {cs : List Command}

theorem outcome_eq_ok : d.outcome = .ok cs ↔ d.failure = none ∧ d.commands = cs := by
  obtain ⟨ds, _ | f⟩ := d
  · exact ⟨fun h => ⟨rfl, Except.ok.inj h⟩, fun h => congrArg _ h.2⟩
  · exact ⟨nofun, nofun⟩

theorem outcome_bind (o : Outcome α) (draw : α → Drawn) :
    (bind o draw).outcome = o >>= fun a => (draw a).outcome := by
  cases o <;> rfl

theorem outcome_andThen {next : Unit → Drawn} : (d.andThen next).outcome = .ok cs ↔
    ∃ cs₁ cs₂, d.outcome = .ok cs₁ ∧ (next ()).outcome = .ok cs₂ ∧ cs = cs₁ ++ cs₂ := by
  obtain ⟨ds, _ | f⟩ := d
  · change (⟨ds ++ (next ()).commands, (next ()).failure⟩ : Drawn).outcome = _ ↔ _
    constructor
    · intro h
      obtain ⟨hnext, rfl⟩ := outcome_eq_ok.mp h
      exact ⟨ds, _, rfl, outcome_eq_ok.mpr ⟨hnext, rfl⟩, rfl⟩
    · rintro ⟨_, _, h, hnext, rfl⟩
      obtain rfl := Except.ok.inj h
      obtain ⟨hfailure, hcommands⟩ := outcome_eq_ok.mp hnext
      exact outcome_eq_ok.mpr ⟨hfailure, by rw [hcommands]⟩
  · exact ⟨nofun, fun ⟨_, _, h, _⟩ => nomatch h⟩

/-- A sequence draws what its items draw, one after the other. -/
theorem outcome_sequence {draw : α → Drawn} {xs : List α} : (sequence draw xs).outcome = .ok cs ↔
    ∃ parts, List.Forall₂ (fun x part => (draw x).outcome = .ok part) xs parts ∧
      cs = parts.flatten := by
  induction xs generalizing cs with
  | nil =>
      constructor
      · intro h
        exact ⟨[], .nil, (Except.ok.inj h).symm⟩
      · rintro ⟨parts, hparts, rfl⟩
        cases hparts
        rfl
  | cons x xs ih =>
      change ((draw x).andThen fun _ => sequence draw xs).outcome = _ ↔ _
      rw [outcome_andThen]
      constructor
      · rintro ⟨part, _, hx, hxs, rfl⟩
        obtain ⟨parts, hparts, rfl⟩ := ih.mp hxs
        exact ⟨part :: parts, .cons hx hparts, rfl⟩
      · rintro ⟨_, hparts, rfl⟩
        cases hparts with
        | cons hx hxs => exact ⟨_, _, hx, ih.mpr ⟨_, hxs, rfl⟩, rfl⟩

theorem outcome_emit {o : Outcome Command} :
    (emit o).outcome = .ok cs ↔ ∃ c, o = .ok c ∧ cs = [c] := by
  unfold emit
  rw [outcome_bind]
  exact bind_pure_eq_ok

/-- A sequence of single commands. -/
theorem outcome_emits {o : α → Outcome Command} {xs : List α} :
    (sequence (fun x => emit (o x)) xs).outcome = .ok cs ↔
      List.Forall₂ (fun x c => o x = .ok c) xs cs := by
  rw [outcome_sequence]
  constructor
  · rintro ⟨parts, hparts, rfl⟩
    induction hparts with
    | nil => exact .nil
    | cons hx _ ih =>
        obtain ⟨c, hc, rfl⟩ := outcome_emit.mp hx
        exact .cons hc ih
  · intro h
    induction h with
    | nil => exact ⟨[], .nil, rfl⟩
    | cons hx _ ih =>
        obtain ⟨parts, hparts, rfl⟩ := ih
        exact ⟨_ :: parts, .cons (outcome_emit.mpr ⟨_, hx, rfl⟩) hparts, rfl⟩

end Drawn

/-- A point midway between two others: each coordinate is half the sum of theirs. -/
def Point.IsMiddle (p q m : Point) : Prop :=
  Curve.middle p.x q.x = .ok m.x ∧ Curve.middle p.y q.y = .ok m.y

/-- Quadratic pieces with the given controls in order: a piece ends midway between its control and
the next one, and the last piece at the end of the curve. -/
inductive IsSpline : List Point → Point → List Command → Prop
  | last (p finish : Point) : IsSpline [p] finish [.absolute (.quadraticCurveTo p finish)]
  | joint {p q m finish : Point} {controls : List Point} {cs : List Command} : p.IsMiddle q m →
      IsSpline (q :: controls) finish cs →
      IsSpline (p :: q :: controls) finish (.absolute (.quadraticCurveTo p m) :: cs)

theorem IsSpline.length {controls : List Point} {finish : Point} {cs : List Command}
    (h : IsSpline controls finish cs) : cs.length = controls.length := by
  induction h with
  | last => rfl
  | joint _ _ ih => exact congrArg (· + 1) ih

section Quadratic

variable {v w : Value} {p q : Point} {cs : List Command}

theorem Curve.isMiddle_of_midpoint {m : Value} {r : Point} (hp : Point.ofValue v = .ok p)
    (hq : Point.ofValue w = .ok q) (hm : midpoint v w = .ok m) (hr : Point.ofValue m = .ok r) :
    p.IsMiddle q r := by
  obtain ⟨⟨x, y⟩, hxy, hm⟩ := bind_eq_ok.mp hm
  obtain ⟨⟨u, t⟩, hut, hm⟩ := bind_eq_ok.mp hm
  obtain ⟨a, ha, hm⟩ := bind_eq_ok.mp hm
  obtain ⟨b, hb, hm⟩ := bind_eq_ok.mp hm
  obtain rfl := Except.ok.inj ((Point.ofValue_of_pair hxy).symm.trans hp)
  obtain rfl := Except.ok.inj ((Point.ofValue_of_pair hut).symm.trans hq)
  obtain rfl := Except.ok.inj hm
  obtain rfl := Except.ok.inj hr
  exact ⟨ha, hb⟩

/-- A piece with its control and its end is drawn as one command. -/
def Curve.DrawnPiece (piece : Value × Value) (c : Command) : Prop :=
  ∃ p q, Point.ofValue piece.1 = .ok p ∧ Point.ofValue piece.2 = .ok q ∧
    c = .absolute (.quadraticCurveTo p q)

theorem Pen.quadratics_ok {pieces : List (Value × Value)}
    (h : (Drawn.sequence quadratic pieces).outcome = .ok cs) :
    List.Forall₂ Curve.DrawnPiece pieces cs := by
  refine (Drawn.outcome_emits.mp h).imp fun piece c hc => ?_
  obtain ⟨p, hp, hc⟩ := bind_eq_ok.mp hc
  obtain ⟨q, hq, rfl⟩ := bind_pure_eq_ok.mp hc
  exact ⟨p, q, hp, hq, rfl⟩

/-- The pieces that a curve splits into are drawn as a spline. -/
theorem isSpline_of_pieces {controls : List Value} (hne : controls ≠ []) {finish : Value}
    {pieces : List (Value × Value)}
    (hpieces : Curve.quadraticPieces (controls ++ [finish]) = .ok pieces)
    (hdrawn : List.Forall₂ Curve.DrawnPiece pieces cs) :
    ∃ ps e, List.Forall₂ (fun v p => Point.ofValue v = .ok p) controls ps ∧
      Point.ofValue finish = .ok e ∧ IsSpline ps e cs := by
  induction controls generalizing pieces cs with
  | nil => exact absurd rfl hne
  | cons c controls ih =>
      rcases controls with _ | ⟨d, controls⟩
      · obtain rfl := Except.ok.inj hpieces
        obtain ⟨_, _, ⟨p, q, hp, hq, rfl⟩, hrest, rfl⟩ := List.forall₂_cons_left_iff.mp hdrawn
        cases hrest
        exact ⟨[p], q, .cons hp .nil, hq, .last p q⟩
      · obtain ⟨r, rest, hrest⟩ : ∃ r rest, controls ++ [finish] = r :: rest :=
          List.exists_cons_of_ne_nil (by simp)
        rw [List.cons_append, List.cons_append, hrest] at hpieces
        obtain ⟨joint, hjoint, htail⟩ := bind_eq_ok.mp hpieces
        obtain ⟨tail, hpieces', rfl⟩ := bind_pure_eq_ok.mp htail
        obtain ⟨_, _, ⟨p, m, hp, hm, rfl⟩, hdrawn', rfl⟩ := List.forall₂_cons_left_iff.mp hdrawn
        rw [← hrest] at hpieces'
        obtain ⟨_, e, hpoints, he, hspline⟩ := ih (by simp) hpieces' hdrawn'
        obtain ⟨q, ps, hq, hps, rfl⟩ := List.forall₂_cons_left_iff.mp hpoints
        exact ⟨p :: q :: ps, e, .cons hp (.cons hq hps), he,
          .joint (Curve.isMiddle_of_midpoint hp hq hjoint hm) hspline⟩

namespace Pen

theorem move_ok {v : Value} (h : (move v).outcome = .ok cs) :
    ∃ p, Point.ofValue v = .ok p ∧ cs = [.absolute (.moveTo p)] := by
  obtain ⟨c, hc, rfl⟩ := Drawn.outcome_emit.mp h
  obtain ⟨p, hp, rfl⟩ := bind_pure_eq_ok.mp hc
  exact ⟨p, hp, rfl⟩

theorem line_ok {v : Value} (h : (line v).outcome = .ok cs) :
    ∃ p, Point.ofValue v = .ok p ∧ cs = [.absolute (.lineTo p)] := by
  obtain ⟨c, hc, rfl⟩ := Drawn.outcome_emit.mp h
  obtain ⟨p, hp, rfl⟩ := bind_pure_eq_ok.mp hc
  exact ⟨p, hp, rfl⟩

theorem quadraticTo_ok {controls : List Value} {finish : Value} (hne : controls ≠ [])
    (h : (quadraticTo (controls ++ [finish])).outcome = .ok cs) :
    ∃ ps e, List.Forall₂ (fun v p => Point.ofValue v = .ok p) controls ps ∧
      Point.ofValue finish = .ok e ∧ IsSpline ps e cs := by
  rw [quadraticTo_eq] at h
  split at h
  next p hp =>
      have hlength := congrArg List.length hp
      rw [List.length_append, List.length_singleton, List.length_singleton] at hlength
      exact absurd (List.length_eq_zero_iff.mp (by omega)) hne
  next =>
      rw [Drawn.outcome_bind] at h
      obtain ⟨pieces, hpieces, h⟩ := bind_eq_ok.mp h
      exact isSpline_of_pieces hne hpieces (quadratics_ok h)

end Pen

end Quadratic

namespace Curve

variable {n k : ℕ} {first : Value} {s t : Progress}

/-- How far a split has come: so many division points are taken, and the first piece begins with
the first control. -/
structure Progress.Taken (first : Value) (n : ℕ) (s : Progress) : Prop where
  count : 2 * s.pieces.length + s.control2?.toList.length = n
  start : (s.pieces.map Cubic.control1 ++ [s.control1]).head? = some first

theorem Progress.Taken.step (h : s.Taken first n) {division : Value}
    (hstep : s.step division = .ok t) : t.Taken first (n + 1) := by
  obtain ⟨control1, control2?, pieces⟩ := s
  obtain ⟨hcount, hstart⟩ := h
  cases control2? with
  | none =>
      obtain rfl := Except.ok.inj hstep
      refine ⟨?_, hstart⟩
      simp only [Option.toList_none, Option.toList_some, List.length_nil,
        List.length_singleton] at hcount ⊢
      omega
  | some control2 =>
      obtain ⟨finish, -, rfl⟩ := bind_pure_eq_ok.mp hstep
      refine ⟨?_, ?_⟩
      · simp only [Option.toList_none, Option.toList_some, List.length_nil, List.length_singleton,
          List.length_append] at hcount ⊢
        omega
      · rw [List.map_append, List.append_assoc]
        cases pieces with
        | nil => exact hstart
        | cons piece pieces => exact hstart

/-- A leg takes one division point less than it has parts. -/
theorem Progress.Taken.divideLeg (h : s.Taken first n) {parts : ℕ} {previous next : Value}
    (hleg : divideLeg parts previous next s = .ok t) : t.Taken first (n + (parts - 1)) := by
  unfold Curve.divideLeg at hleg
  rw [← List.length_range (n := parts - 1)]
  generalize List.range (parts - 1) = js at hleg
  induction js generalizing s n with
  | nil =>
      obtain rfl := Except.ok.inj hleg
      exact h
  | cons j js ih =>
      rw [List.foldlM_cons] at hleg
      obtain ⟨u, hu, hleg⟩ := bind_eq_ok.mp hleg
      obtain ⟨p, -, hstep⟩ := bind_eq_ok.mp hu
      rw [List.length_cons, Nat.add_comm js.length, ← Nat.add_assoc]
      exact ih (h.step hstep) hleg

/-- From the third leg on every leg is divided in three, and the last one in two. -/
theorem Progress.Taken.divideLegs (h : s.Taken first n) {last i : ℕ} {previous next : Value}
    {legs : List Value} (hi : 3 ≤ i) (hlast : i + legs.length = last)
    (hlegs : divideLegs last i previous (next :: legs) s = .ok t) :
    t.Taken first (n + 2 * legs.length + 1) := by
  induction legs generalizing i previous next s n with
  | nil =>
      obtain ⟨u, hu, hrest⟩ := bind_eq_ok.mp hlegs
      obtain rfl := Except.ok.inj hrest
      have hparts : divisions last i - 1 = 1 := by
        rw [List.length_nil] at hlast
        unfold divisions
        omega
      exact hparts ▸ h.divideLeg hu
  | cons leg legs ih =>
      rw [List.length_cons] at hlast ⊢
      obtain ⟨u, hu, hrest⟩ := bind_eq_ok.mp hlegs
      have hparts : divisions last i - 1 = 2 := by
        unfold divisions
        omega
      have htaken : t.Taken first (n + 2 + 2 * legs.length + 1) :=
        ih (hparts ▸ h.divideLeg hu) (by omega) (by omega) hrest
      convert htaken using 1
      omega

/-- A cubic curve has one piece less than it has controls. The first piece begins with the first
control, and the last one ends where the curve ends. -/
theorem cubicPieces_ok {second third finish : Value} {more : List Value} {pieces : List Cubic}
    (h : cubicPieces (first :: second :: third :: (more ++ [finish])) = .ok pieces) :
    pieces.length = more.length + 2 ∧ (pieces.map Cubic.control1).head? = some first ∧
      (pieces.map Cubic.finish).getLast? = some finish := by
  obtain ⟨s, hs, rfl⟩ := bind_pure_eq_ok.mp h
  have hlegs : (second :: third :: (more ++ [finish])).dropLast = second :: third :: more := by
    change ((second :: third :: more) ++ [finish]).dropLast = _
    exact List.dropLast_concat
  have hlength : (more ++ [finish]).length + 2 = more.length + 3 := by simp
  rw [hlegs, hlength] at hs
  obtain ⟨u, hu, hrest⟩ := bind_eq_ok.mp hs
  have hbegun : (Progress.mk first none []).Taken first 0 := ⟨rfl, rfl⟩
  have hparts : divisions (more.length + 3) 2 - 1 = 1 := by
    unfold divisions
    omega
  have htaken : s.Taken first (0 + 1 + 2 * more.length + 1) :=
    (hparts ▸ hbegun.divideLeg hu).divideLegs (by omega) (by omega) hrest
  have hcount := htaken.count
  have hparity : s.control2?.toList.length ≤ 1 := by cases s.control2? <;> simp
  refine ⟨?_, ?_, ?_⟩
  · rw [List.length_append, List.length_singleton]
    omega
  · rw [List.map_append]
    exact htaken.start
  · rw [List.map_append, List.map_singleton, List.getLast?_concat, hlength]
    have hlast : (first :: second :: third :: (more ++ [finish]))[more.length + 3]? = some finish :=
      List.getElem?_concat_length
    rw [hlast]
    rfl

def DrawnCubic (piece : Cubic) (c : Command) : Prop :=
  ∃ p q r, Point.ofValue piece.control1 = .ok p ∧ Point.ofValue piece.control2 = .ok q ∧
    Point.ofValue piece.finish = .ok r ∧ c = .absolute (.curveTo p q r)

end Curve

/-- Cubic pieces from a first control to an end. -/
structure IsCubicSpline (first finish : Point) (pieces : ℕ) (cs : List Command) : Prop where
  count : cs.length = pieces
  cubic : ∀ c ∈ cs, ∃ p q r, c = .absolute (.curveTo p q r)
  start : ∃ q r, cs.head? = some (.absolute (.curveTo first q r))
  stop : ∃ p q, cs.getLast? = some (.absolute (.curveTo p q finish))

section Ends

variable {α β : Type} {R : α → β → Prop} {xs : List α} {ys : List β} {x : α}

theorem exists_head_of_forall₂ (h : List.Forall₂ R xs ys) (hx : xs.head? = some x) :
    ∃ y, ys.head? = some y ∧ R x y := by
  cases h with
  | nil => cases hx
  | cons hxy _ =>
      obtain rfl := Option.some.inj hx
      exact ⟨_, rfl, hxy⟩

theorem exists_getLast_of_forall₂ (h : List.Forall₂ R xs ys) (hx : xs.getLast? = some x) :
    ∃ y, ys.getLast? = some y ∧ R x y := by
  rw [← List.head?_reverse] at hx
  simp only [← List.head?_reverse]
  exact exists_head_of_forall₂ (List.forall₂_reverse_iff.mpr h) hx

end Ends

section Cubic

variable {first finish : Value} {cs : List Command}

theorem isCubicSpline_of_pieces {pieces : List Curve.Cubic}
    (hfirst : (pieces.map Curve.Cubic.control1).head? = some first)
    (hlast : (pieces.map Curve.Cubic.finish).getLast? = some finish)
    (hdrawn : List.Forall₂ Curve.DrawnCubic pieces cs) :
    ∃ p e, Point.ofValue first = .ok p ∧ Point.ofValue finish = .ok e ∧
      IsCubicSpline p e pieces.length cs := by
  rw [List.head?_map, Option.map_eq_some_iff] at hfirst
  rw [List.getLast?_map, Option.map_eq_some_iff] at hlast
  obtain ⟨piece, hpiece, rfl⟩ := hfirst
  obtain ⟨piece', hpiece', rfl⟩ := hlast
  obtain ⟨_, hhead, p, q, r, hp, -, -, rfl⟩ := exists_head_of_forall₂ hdrawn hpiece
  obtain ⟨_, htail, p', q', r', -, -, hr', rfl⟩ := exists_getLast_of_forall₂ hdrawn hpiece'
  refine ⟨p, r', hp, hr', hdrawn.length_eq.symm, fun c hc => ?_, ⟨q, r, hhead⟩, ⟨p', q', htail⟩⟩
  obtain ⟨_, -, p, q, r, -, -, -, rfl⟩ := exists_left_of_forall₂ hdrawn c hc
  exact ⟨p, q, r, rfl⟩

namespace Pen

theorem cubics_ok {pieces : List Curve.Cubic}
    (h : (Drawn.sequence cubic pieces).outcome = .ok cs) :
    List.Forall₂ Curve.DrawnCubic pieces cs := by
  refine (Drawn.outcome_emits.mp h).imp fun piece c hc => ?_
  obtain ⟨p, hp, hc⟩ := bind_eq_ok.mp hc
  obtain ⟨q, hq, hc⟩ := bind_eq_ok.mp hc
  obtain ⟨r, hr, rfl⟩ := bind_pure_eq_ok.mp hc
  exact ⟨p, q, r, hp, hq, hr, rfl⟩

theorem cubicCurve_ok {second : Value} {more : List Value}
    (h : (cubicCurve (first :: second :: (more ++ [finish]))).outcome = .ok cs) :
    ∃ p e, Point.ofValue first = .ok p ∧ Point.ofValue finish = .ok e ∧
      IsCubicSpline p e (more.length + 1) cs := by
  cases more with
  | nil =>
      change (cubic ⟨first, second, finish⟩).outcome = _ at h
      rw [← Drawn.sequence_singleton cubic] at h
      exact isCubicSpline_of_pieces rfl rfl (cubics_ok h)
  | cons third more =>
      obtain ⟨r, rest, hrest⟩ : ∃ r rest, more ++ [finish] = r :: rest :=
        List.exists_cons_of_ne_nil (by simp)
      have hcurve : cubicCurve (first :: second :: (third :: more ++ [finish])) =
          .bind (Curve.cubicPieces (first :: second :: third :: (more ++ [finish])))
            (.sequence cubic) := by
        rw [cubicCurve_eq, List.cons_append, hrest]
      rw [hcurve, Drawn.outcome_bind] at h
      obtain ⟨pieces, hpieces, h⟩ := bind_eq_ok.mp h
      obtain ⟨hlength, hfirst, hlast⟩ := Curve.cubicPieces_ok hpieces
      rw [List.length_cons, ← hlength]
      exact isCubicSpline_of_pieces hfirst hlast (cubics_ok h)

end Pen

end Cubic

end VectorPath
