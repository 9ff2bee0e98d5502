import Mathlib.Data.Nat.Init
import VectorPath.Drawing.Pen

/-!
# What a pen adds wherever it is

The current point goes from call to call and into the components, so what a pen adds could depend on
everything that has been drawn before. It does not as long as no hook looks at the current point.
Then a motion adds the same from every point, motions one after the other add what each of them adds
alone, and the drawing of the pen can be told without its point. The pen that makes commands is one
of this kind, because it fills in the hook for quadratic curves: without that the current point
would be the first control of the cubic curve that is drawn instead.
-/

namespace VectorPath

def Drawn.sequence {α : Type} (draw : α → Drawn) : List α → Drawn
  | [] => nothing
  | a :: rest => (draw a).andThen fun _ => sequence draw rest

namespace Motion

variable {α : Type} {m first second : Motion}

/-- What a motion adds is the same from every point. -/
def Blind (m : Motion) : Prop := ∀ p q, (m p).1 = (m q).1

theorem Blind.eq_drawn (h : m.Blind) (p : Value) : (m p).1 = m.drawn := h p .null

theorem blind_rest : rest.Blind := fun _ _ => rfl

theorem blind_failed (f : Failure) : (failed f).Blind := fun _ _ => rfl

theorem blind_goTo (p : Value) : (goTo p).Blind := fun _ _ => rfl

theorem blind_reaching {p : Value} {draw : Value → Drawn} (h : ∀ q r, draw q = draw r) :
    (reaching p draw).Blind := h

/-- What comes second begins where the first motion ends. -/
theorem andThen_fst (h : second.Blind) (p : Value) :
    (first.andThen second p).1 = (first p).1.andThen fun _ => second.drawn := by
  unfold andThen Drawn.andThen
  dsimp only
  split
  · rfl
  · rw [h.eq_drawn]

theorem drawn_andThen (h : second.Blind) :
    (first.andThen second).drawn = first.drawn.andThen fun _ => second.drawn := andThen_fst h .null

theorem Blind.andThen (h : first.Blind) (h' : second.Blind) : (first.andThen second).Blind := by
  intro p q
  rw [andThen_fst h', andThen_fst h', h p q]

theorem blind_sequence {move : α → Motion} (h : ∀ a, (move a).Blind) (as : List α) :
    (sequence move as).Blind := by
  induction as with
  | nil => exact blind_rest
  | cons a as ih => exact (h a).andThen ih

theorem drawn_sequence {move : α → Motion} (h : ∀ a, (move a).Blind) (as : List α) :
    (sequence move as).drawn = .sequence (fun a => (move a).drawn) as := by
  induction as with
  | nil => rfl
  | cons a as ih =>
      rw [sequence, drawn_andThen (blind_sequence h as), ih]
      rfl

theorem blind_bind {move : α → Motion} (h : ∀ a, (move a).Blind) (o : Outcome α) :
    (bind o move).Blind := by
  cases o with
  | ok a => exact h a
  | error f => exact blind_failed f

theorem drawn_bind (move : α → Motion) (o : Outcome α) :
    (bind o move).drawn = .bind o fun a => (move a).drawn := by
  cases o <;> rfl

end Motion

namespace Pen

open Motion

/-- How many calls stay for the inside of a component. -/
def callsInside (matrix : Option Matrix) (fuel : ℕ) : ℕ := if matrix.isSome then fuel else fuel + 1

theorem le_callsInside (matrix : Option Matrix) (fuel : ℕ) : fuel ≤ callsInside matrix fuel := by
  unfold callsInside
  split <;> omega

theorem callsInside_le (matrix : Option Matrix) (fuel : ℕ) :
    callsInside matrix fuel ≤ fuel + 1 := by
  unfold callsInside
  split <;> omega

section Carry

variable (hooks : Hooks) (glyphs : Option GlyphSet) (matrix : Option Matrix) (c : Call)

theorem carry_eq (fuel : ℕ) :
    carry hooks glyphs (fuel + 4) matrix c =
      carryOut hooks glyphs
        (fun through => .sequence (carry hooks glyphs (callsInside matrix fuel) through))
        matrix c := by
  cases matrix with
  | none => rfl
  | some through => rfl

theorem carry_of_lt {fuel : ℕ} (h : fuel < 4) :
    carry hooks glyphs fuel matrix c = .failed (.mishap .nestedComponents) := by
  obtain rfl | rfl | rfl | rfl : fuel = 0 ∨ fuel = 1 ∨ fuel = 2 ∨ fuel = 3 := by omega
  all_goals rfl

end Carry

structure Hooks.Blind (hooks : Hooks) : Prop where
  moveTo : ∀ p q v, hooks.moveTo p v = hooks.moveTo q v
  lineTo : ∀ p q v, hooks.lineTo p v = hooks.lineTo q v
  cubic : ∀ p q c, hooks.cubic p c = hooks.cubic q c
  quadratic : ∀ p q piece, hooks.quadratic p piece = hooks.quadratic q piece
  closePath : ∀ p q, hooks.closePath p = hooks.closePath q
  endPath : ∀ p q, hooks.endPath p = hooks.endPath q

namespace Hooks.Blind

variable {hooks : Hooks}

theorem moving (h : hooks.Blind) (p : Value) : (hooks.moving p).Blind :=
  blind_reaching fun q r => h.moveTo q r p

theorem straight (h : hooks.Blind) (p : Value) : (hooks.straight p).Blind :=
  blind_reaching fun q r => h.lineTo q r p

theorem cubicPiece (h : hooks.Blind) (c : Curve.Cubic) : (hooks.cubicPiece c).Blind :=
  blind_reaching fun q r => h.cubic q r c

theorem quadraticPiece (h : hooks.Blind) (piece : Value × Value) :
    (hooks.quadraticPiece piece).Blind :=
  blind_reaching fun q r => h.quadratic q r piece

theorem closing (h : hooks.Blind) : hooks.closing.Blind := blind_reaching h.closePath

theorem ending (h : hooks.Blind) : hooks.ending.Blind := blind_reaching h.endPath

theorem quadraticTo (h : hooks.Blind) (points : List Value) : (hooks.quadraticTo points).Blind := by
  unfold Hooks.quadraticTo
  split
  · exact h.straight _
  · exact blind_bind (fun pieces => blind_sequence h.quadraticPiece pieces) _

theorem quadraticCurve (h : hooks.Blind) (points : List Value) :
    (hooks.quadraticCurve points).Blind := by
  unfold Hooks.quadraticCurve
  split
  · exact blind_failed _
  · split
    · exact blind_bind (fun start =>
        ((blind_goTo start).andThen (h.moving start)).andThen (h.quadraticTo _)) _
    · exact blind_failed _
  · exact h.quadraticTo points

theorem cubicCurve (h : hooks.Blind) (points : List Value) : (hooks.cubicCurve points).Blind := by
  unfold Hooks.cubicCurve
  split
  · exact blind_failed _
  · exact h.straight _
  · exact h.quadraticCurve _
  · exact h.cubicPiece _
  · exact blind_bind (fun pieces => blind_sequence h.cubicPiece pieces) _

theorem carryOut (h : hooks.Blind) (glyphs : Option GlyphSet)
    {inside : Option Matrix → Recording → Motion} (hinside : ∀ m r, (inside m r).Blind)
    (matrix : Option Matrix) (c : Call) :
    (Pen.carryOut hooks glyphs inside matrix c).Blind := by
  unfold Pen.carryOut
  split
  · exact blind_failed _
  · refine blind_bind (fun _ => ?_) _
    split
    · exact blind_bind h.moving _
    · exact blind_bind h.straight _
    · exact blind_bind h.cubicCurve _
    · exact blind_bind h.quadraticCurve _
    · exact h.closing
    · exact h.ending
    · refine blind_bind (fun inner => blind_bind (fun found => ?_) _) _
      cases found with
      | none => exact blind_rest
      | some recording =>
          dsimp only
          split
          · exact hinside none recording
          · exact blind_bind (fun through => hinside (some through) recording) _
    · exact blind_failed _
    · exact blind_rest

/-- Whatever is called, also in components, the current point does not show. -/
theorem carry (h : hooks.Blind) (glyphs : Option GlyphSet) (fuel : ℕ) (matrix : Option Matrix)
    (c : Call) : (Pen.carry hooks glyphs fuel matrix c).Blind := by
  induction fuel using Nat.strongRecOn generalizing matrix c with
  | _ fuel ih =>
      by_cases hfuel : fuel < 4
      · rw [carry_of_lt hooks glyphs matrix c hfuel]
        exact blind_failed _
      · obtain ⟨fuel, rfl⟩ := Nat.exists_eq_add_of_le' (Nat.le_of_not_lt hfuel)
        rw [carry_eq]
        have hless := callsInside_le matrix fuel
        exact h.carryOut glyphs (fun m r => blind_sequence (ih _ (by omega) m) r) matrix c

end Hooks.Blind

theorem commandHooks_blind : commandHooks.Blind :=
  ⟨fun _ _ _ => rfl, fun _ _ _ => rfl, fun _ _ _ => rfl, fun _ _ _ => rfl, fun _ _ => rfl,
    fun _ _ => rfl⟩

/-- Without a quadratic curve of its own a pen would draw from the current point. -/
example : ¬ (Hooks.basic (fun _ => move) (fun _ => line) (fun _ => cubic)).Blind := by
  intro h
  have hsame := congrArg (fun d => d.failure.isSome)
    (h.quadratic .null (.tuple [.int 0, .int 0]) (.tuple [.int 0, .int 0], .tuple [.int 0, .int 0]))
  revert hsame
  decide +kernel

def quadraticTo (points : List Value) : Drawn := (commandHooks.quadraticTo points).drawn

def quadraticCurve (points : List Value) : Drawn := (commandHooks.quadraticCurve points).drawn

def cubicCurve (points : List Value) : Drawn := (commandHooks.cubicCurve points).drawn

def draw (glyphs : Option GlyphSet) (fuel : ℕ) (matrix : Option Matrix) (c : Call) : Drawn :=
  (carry commandHooks glyphs fuel matrix c).drawn

def call [Depth] (glyphs : Option GlyphSet) (c : Call) : Drawn := (perform glyphs c).drawn

theorem quadraticTo_eq (points : List Value) :
    quadraticTo points =
      match points with
      | [p] => line p
      | _ => .bind (Curve.quadraticPieces points) (.sequence quadratic) := by
  have hpieces : (Motion.bind (Curve.quadraticPieces points)
      (.sequence commandHooks.quadraticPiece)).drawn =
        .bind (Curve.quadraticPieces points) (.sequence quadratic) := by
    rw [drawn_bind]
    exact congrArg _ (funext fun pieces => drawn_sequence commandHooks_blind.quadraticPiece pieces)
  rcases points with _ | ⟨p, _ | ⟨q, rest⟩⟩
  · exact hpieces
  · rfl
  · exact hpieces

theorem quadraticCurve_eq (points : List Value) :
    quadraticCurve points =
      match points.getLast? with
      | none => .failed (.mishap .noPoints)
      | some .null =>
          match points.dropLast.getLast?, points.head? with
          | some last, some first =>
              .bind (Curve.midpoint last first) fun start =>
                (move start).andThen fun _ => quadraticTo (points.dropLast ++ [start])
          | _, _ => .failed (.mishap (.outOfRange "tuple"))
      | some _ => quadraticTo points := by
  unfold quadraticCurve Hooks.quadraticCurve
  generalize points.getLast? = finish
  cases finish with
  | none => rfl
  | some v =>
      cases v with
      | null =>
          dsimp only
          generalize points.dropLast.getLast? = last
          generalize points.head? = first
          cases last with
          | none => rfl
          | some last =>
              cases first with
              | none => rfl
              | some first =>
                  dsimp only
                  rw [drawn_bind]
                  exact congrArg _ (funext fun start =>
                    drawn_andThen (commandHooks_blind.quadraticTo (points.dropLast ++ [start])))
      | _ => rfl

theorem cubicCurve_eq (points : List Value) :
    cubicCurve points =
      match points with
      | [] => .failed (.mishap .noPoints)
      | [p] => line p
      | [p, q] => quadraticCurve [p, q]
      | [p, q, r] => cubic ⟨p, q, r⟩
      | _ => .bind (Curve.cubicPieces points) (.sequence cubic) := by
  rcases points with _ | ⟨p, _ | ⟨q, _ | ⟨r, _ | ⟨t, rest⟩⟩⟩⟩
  · rfl
  · rfl
  · rfl
  · rfl
  · unfold cubicCurve Hooks.cubicCurve
    dsimp only
    rw [drawn_bind]
    exact congrArg _ (funext fun pieces => drawn_sequence commandHooks_blind.cubicPiece pieces)

/-- What a call adds, given what components add. -/
def added (glyphs : Option GlyphSet) (inside : Option Matrix → Recording → Drawn)
    (matrix : Option Matrix) (c : Call) : Drawn :=
  match Method.ofName? c.method with
  | none =>
      let owner := if matrix.isSome then mappedOwner else plainOwner
      .failed (.mishap (.noMethod owner c.method))
  | some m =>
      .bind (checkArguments matrix.isSome m c.arguments) fun _ =>
        match m, c.arguments with
        | .moveTo, [p] => .bind (mapPoint matrix p) move
        | .lineTo, [p] => .bind (mapPoint matrix p) line
        | .curveTo, points => .bind (mapPoints matrix points) cubicCurve
        | .qCurveTo, points => .bind (mapQuadratic matrix points) quadraticCurve
        | .closePath, _ => close
        | .addComponent, [name, v] =>
            .bind (componentMatrix matrix v) fun inner =>
              .bind (component glyphs name) fun
                | none => .nothing
                | some recording =>
                    if Matrix.isIdentity inner then inside none recording
                    else
                      .bind (Matrix.ofValue inner) fun through => inside (some through) recording
        | .addVarComponent, _ => .failed (.mishap .unsupportedCall)
        | _, _ => .nothing

theorem drawn_carryOut (glyphs : Option GlyphSet) (inside : Option Matrix → Recording → Motion)
    (matrix : Option Matrix) (c : Call) :
    (carryOut commandHooks glyphs inside matrix c).drawn =
      added glyphs (fun through r => (inside through r).drawn) matrix c := by
  unfold carryOut added
  cases Method.ofName? c.method with
  | none => rfl
  | some m =>
      dsimp only
      rw [drawn_bind]
      refine congrArg _ (funext fun _ => ?_)
      generalize c.arguments = arguments
      cases m with
      | moveTo =>
          rcases arguments with _ | ⟨p, _ | ⟨_, _⟩⟩
          · rfl
          · exact drawn_bind _ _
          · rfl
      | lineTo =>
          rcases arguments with _ | ⟨p, _ | ⟨_, _⟩⟩
          · rfl
          · exact drawn_bind _ _
          · rfl
      | curveTo => exact drawn_bind _ _
      | qCurveTo => exact drawn_bind _ _
      | closePath => rfl
      | endPath => rfl
      | addVarComponent => rfl
      | addComponent =>
          rcases arguments with _ | ⟨name, _ | ⟨v, _ | ⟨_, _⟩⟩⟩
          · rfl
          · rfl
          · dsimp only
            rw [drawn_bind]
            refine congrArg _ (funext fun inner => ?_)
            rw [drawn_bind]
            refine congrArg _ (funext fun found => ?_)
            cases found with
            | none => rfl
            | some recording =>
                dsimp only
                split
                · rfl
                · exact drawn_bind _ _
          · rfl

theorem draw_eq (glyphs : Option GlyphSet) (fuel : ℕ) (matrix : Option Matrix) (c : Call) :
    draw glyphs (fuel + 4) matrix c =
      added glyphs (fun through => .sequence (draw glyphs (callsInside matrix fuel) through))
        matrix c := by
  have hinside : ∀ through r, (Motion.sequence (carry commandHooks glyphs (callsInside matrix fuel)
      through) r).drawn = .sequence (draw glyphs (callsInside matrix fuel) through) r :=
    fun through r => drawn_sequence (commandHooks_blind.carry glyphs _ through) r
  unfold draw
  rw [carry_eq, drawn_carryOut]
  simp only [hinside]
  rfl

theorem draw_of_lt (glyphs : Option GlyphSet) {fuel : ℕ} (h : fuel < 4) (matrix : Option Matrix)
    (c : Call) : draw glyphs fuel matrix c = .failed (.mishap .nestedComponents) := by
  unfold draw
  rw [carry_of_lt commandHooks glyphs matrix c h]
  rfl

section Calls

variable [Depth] (glyphs : Option GlyphSet)

/-- There is always room for a call. -/
theorem call_eq_draw (c : Call) :
    call glyphs c = draw glyphs (Depth.calls - 4 + 4) none c := by
  rw [Nat.sub_add_cancel Depth.four_le_calls]
  rfl

theorem perform_blind (c : Call) : (perform glyphs c).Blind :=
  commandHooks_blind.carry glyphs Depth.calls none c

theorem replay_eq (recording : Recording) :
    replay glyphs recording = .sequence (call glyphs) recording :=
  drawn_sequence (perform_blind glyphs) recording

theorem replay_eq_draw (recording : Recording) :
    replay glyphs recording =
      .sequence (draw glyphs (Depth.calls - 4 + 4) none) recording := by
  rw [replay_eq, funext (call_eq_draw glyphs)]

end Calls

end Pen

end VectorPath
