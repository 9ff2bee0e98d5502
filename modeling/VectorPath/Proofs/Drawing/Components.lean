import Mathlib.Order.WellFoundedSet
import Mathlib.Tactic.Ring
import VectorPath.Proofs.Drawing.Replay
import VectorPath.Proofs.Font.Outlines

/-!
# Components on the grid

A glyph whose points and matrices are integers has an outline that no pen is needed for: strokes
are taken as they stand, and a component is the outline of its glyph with every point through its
matrix. Drawing follows this outline, whatever matrix stands in front of the pen, because matrices
in front of each other are composed before a point is mapped. So a component under a matrix is the
drawn component with its points mapped, at any depth that can be drawn.
-/

namespace VectorPath

abbrev GridPoint := ℤ × ℤ

/-- An affine map of the plane with integers as entries. -/
structure GridMap where
  a : ℤ
  b : ℤ
  c : ℤ
  d : ℤ
  e : ℤ
  f : ℤ
  deriving DecidableEq

namespace GridMap

def image (m : GridMap) (p : GridPoint) : GridPoint :=
  (m.a * p.1 + m.c * p.2 + m.e, m.b * p.1 + m.d * p.2 + m.f)

def identity : GridMap := ⟨1, 0, 0, 1, 0, 0⟩

/-- The map that first applies the inner one and then this one. -/
def after (m inner : GridMap) : GridMap where
  a := inner.a * m.a + inner.b * m.c
  b := inner.a * m.b + inner.b * m.d
  c := inner.c * m.a + inner.d * m.c
  d := inner.c * m.b + inner.d * m.d
  e := m.a * inner.e + m.c * inner.f + m.e
  f := m.b * inner.e + m.d * inner.f + m.f

def entries (m : GridMap) : List ℤ := [m.a, m.b, m.c, m.d, m.e, m.f]

def matrix (m : GridMap) : Matrix :=
  ⟨.int m.a, .int m.b, .int m.c, .int m.d, .int m.e, .int m.f⟩

theorem image_identity (p : GridPoint) : identity.image p = p := by
  unfold image identity
  ext <;> simp

theorem image_after (m inner : GridMap) (p : GridPoint) :
    (m.after inner).image p = m.image (inner.image p) := by
  unfold image after
  ext
  · ring
  · ring

theorem identity_after (m : GridMap) : identity.after m = m := by
  unfold after identity
  simp

theorem entries_injective {m n : GridMap} (h : m.entries = n.entries) : m = n := by
  obtain ⟨a, b, c, d, e, f⟩ := m
  obtain ⟨a', b', c', d', e', f'⟩ := n
  simpa [entries] using h

end GridMap

inductive GridCommand
  | moveTo (p : GridPoint)
  | lineTo (p : GridPoint)
  | curveTo (p q r : GridPoint)
  | quadraticCurveTo (p q : GridPoint)
  | closePath
  deriving DecidableEq

def GridPoint.toPoint (p : GridPoint) : Point := ⟨.int p.1, .int p.2⟩

namespace GridCommand

/-- The command of the same kind with every point replaced. -/
def map (g : GridPoint → GridPoint) : GridCommand → GridCommand
  | moveTo p => moveTo (g p)
  | lineTo p => lineTo (g p)
  | curveTo p q r => curveTo (g p) (g q) (g r)
  | quadraticCurveTo p q => quadraticCurveTo (g p) (g q)
  | closePath => closePath

def command : GridCommand → Command
  | moveTo p => .absolute (.moveTo (GridPoint.toPoint p))
  | lineTo p => .absolute (.lineTo (GridPoint.toPoint p))
  | curveTo p q r =>
      .absolute (.curveTo (GridPoint.toPoint p) (GridPoint.toPoint q) (GridPoint.toPoint r))
  | quadraticCurveTo p q =>
      .absolute (.quadraticCurveTo (GridPoint.toPoint p) (GridPoint.toPoint q))
  | closePath => .absolute .closePath

variable (c : GridCommand)

theorem map_identity : c.map GridMap.identity.image = c := by
  cases c <;> simp only [map, GridMap.image_identity]

theorem map_after (m inner : GridMap) :
    c.map (m.after inner).image = (c.map inner.image).map m.image := by
  cases c <;> simp only [map, GridMap.image_after]

end GridCommand

def GridMap.commands (m : GridMap) (cs : List GridCommand) : List Command :=
  cs.map fun c => (c.map m.image).command

namespace GridMap

variable {m inner : GridMap} {cs ds : List GridCommand}

theorem commands_append : m.commands (cs ++ ds) = m.commands cs ++ m.commands ds := List.map_append

theorem commands_identity (cs : List GridCommand) :
    identity.commands cs = cs.map GridCommand.command := by
  unfold commands
  simp only [GridCommand.map_identity]

theorem commands_map : m.commands (cs.map (GridCommand.map inner.image)) =
    (m.after inner).commands cs := by
  unfold commands
  rw [List.map_map]
  exact List.map_congr_left fun c _ => congrArg _ (c.map_after m inner).symm

end GridMap

def Value.Lists (xs : List ℤ) (v : Value) : Prop :=
  v = .tuple (xs.map Value.int) ∨ v = .list (xs.map Value.int)

def Value.At (p : GridPoint) (v : Value) : Prop := v.Lists [p.1, p.2]

/-- What a call without a component adds when all its points are on the grid and no point of a
curve is left out. -/
inductive Call.Adds : Call → List GridCommand → Prop
  | moveTo {v : Value} {p : GridPoint} : v.At p → Adds (Call.moveTo v) [.moveTo p]
  | lineTo {v : Value} {p : GridPoint} : v.At p → Adds (Call.lineTo v) [.lineTo p]
  | curveTo {u v w : Value} {p q r : GridPoint} : u.At p → v.At q → w.At r →
      Adds (Call.curveTo [u, v, w]) [.curveTo p q r]
  | qCurveTo {u v : Value} {p q : GridPoint} : u.At p → v.At q →
      Adds (Call.qCurveTo [u, v]) [.quadraticCurveTo p q]
  | closePath : Adds Call.closePath [.closePath]
  | endPath : Adds ⟨Method.endPath.name, []⟩ []

namespace GlyphSet

variable (glyphs : GlyphSet)

/-- A call on the grid: a component has a matrix of integers and is in the glyph set. -/
inductive OnGrid : Call → Prop
  | stroke {c : Call} {part : List GridCommand} : c.Adds part → OnGrid c
  | component {name : String} {v : Value} {m : GridMap} {inside : Recording} :
      v.Lists m.entries → glyphs.recording? name = some inside → OnGrid (Call.addComponent name v)

def IsGrid : Prop := ∀ name r, glyphs.recording? name = some r → ∀ c ∈ r, glyphs.OnGrid c

/-- One glyph is a component of another one. -/
def Uses (outer inner : String) : Prop :=
  ∃ r v, glyphs.recording? outer = some r ∧ Call.addComponent inner v ∈ r

/-- No glyph is a component of itself, at any depth. -/
def Acyclic : Prop := ∀ name, ¬ Relation.TransGen glyphs.Uses name name

/-- Components are nested in so many levels at most. -/
def Nests : ℕ → Recording → Prop
  | 0, r => ∀ name v, Call.addComponent name v ∉ r
  | n + 1, r => ∀ name v, Call.addComponent name v ∈ r →
      ∀ inside, glyphs.recording? name = some inside → Nests n inside

/-- The outline of a recording: a component is the outline of its glyph with every point through
its matrix. -/
inductive Outline : Recording → List GridCommand → Prop
  | nil : Outline [] []
  | stroke {c : Call} {rest : Recording} {part cs : List GridCommand} : c.Adds part →
      Outline rest cs → Outline (c :: rest) (part ++ cs)
  | component {name : String} {v : Value} {m : GridMap} {inside rest : Recording}
      {cs ds : List GridCommand} : v.Lists m.entries → glyphs.recording? name = some inside →
      Outline inside cs → Outline rest ds →
      Outline (Call.addComponent name v :: rest) (cs.map (GridCommand.map m.image) ++ ds)

variable {glyphs} {n : ℕ} {r : Recording}

theorem Nests.tail {c : Call} (h : glyphs.Nests n (c :: r)) : glyphs.Nests n r := by
  cases n with
  | zero => exact fun name v hmem => h name v (List.mem_cons_of_mem c hmem)
  | succ n => exact fun name v hmem => h name v (List.mem_cons_of_mem c hmem)

theorem Nests.inside {name : String} {v : Value} {inside : Recording}
    (h : glyphs.Nests n (Call.addComponent name v :: r))
    (hinside : glyphs.recording? name = some inside) : ∃ k, n = k + 1 ∧ glyphs.Nests k inside := by
  cases n with
  | zero => exact absurd (List.mem_cons_self ..) (h name v)
  | succ n => exact ⟨n, rfl, h name v (List.mem_cons_self ..) inside hinside⟩

theorem mem_of_recording {name : String} (h : glyphs.recording? name = some r) :
    (name, r) ∈ glyphs := by
  obtain ⟨g, hg, rfl⟩ := Option.map_eq_some_iff.mp h
  have hname : g.1 = name := by simpa using List.find?_some hg
  rw [← hname]
  exact List.mem_of_find?_eq_some hg

theorem name_mem_of_recording {name : String} (h : glyphs.recording? name = some r) :
    name ∈ glyphs.map Prod.fst := List.mem_map_of_mem (mem_of_recording h)

/-- Without cycles the names of the glyphs can be gone through from the inside out. -/
theorem Acyclic.wellFoundedOn (h : glyphs.Acyclic) :
    {name | name ∈ glyphs.map Prod.fst}.WellFoundedOn
      fun inner outer => Relation.TransGen glyphs.Uses outer inner := by
  have : IsStrictOrder String fun inner outer => Relation.TransGen glyphs.Uses outer inner :=
    { irrefl := h, trans := fun _ _ _ hab hbc => hbc.trans hab }
  exact (List.finite_toSet _).wellFoundedOn

/-- Calls on the grid have an outline if the glyphs of their components have one. -/
theorem exists_outline_of_inside (hgrid : ∀ c ∈ r, glyphs.OnGrid c)
    (hinside : ∀ name v, Call.addComponent name v ∈ r →
      ∀ inside, glyphs.recording? name = some inside → ∃ cs, glyphs.Outline inside cs) :
    ∃ cs, glyphs.Outline r cs := by
  induction r with
  | nil => exact ⟨[], .nil⟩
  | cons c r ih =>
      obtain ⟨hc, hgrid⟩ := List.forall_mem_cons.mp hgrid
      obtain ⟨ds, hds⟩ := ih hgrid fun name v hmem => hinside name v (List.mem_cons_of_mem c hmem)
      cases hc with
      | stroke hadds => exact ⟨_, .stroke hadds hds⟩
      | component hm hfound =>
          obtain ⟨cs, hcs⟩ := hinside _ _ (List.mem_cons_self ..) _ hfound
          exact ⟨_, .component hm hfound hcs hds⟩

/-- Every glyph of an acyclic set on the grid has an outline. -/
theorem exists_outline (hacyclic : glyphs.Acyclic) (hgrid : glyphs.IsGrid) {name : String}
    (hr : glyphs.recording? name = some r) : ∃ cs, glyphs.Outline r cs := by
  have hall : ∀ r, glyphs.recording? name = some r → ∃ cs, glyphs.Outline r cs := by
    refine hacyclic.wellFoundedOn.induction
      (P := fun name => ∀ r, glyphs.recording? name = some r → ∃ cs, glyphs.Outline r cs)
      (name_mem_of_recording hr) fun outer _ ih r hr => ?_
    refine exists_outline_of_inside (hgrid outer r hr) fun inner v hmem inside hinside => ?_
    exact ih inner (name_mem_of_recording hinside) (.single ⟨r, v, hr, hmem⟩) inside hinside
  exact hall r hr

end GlyphSet

namespace Value

variable {v : Value} {p : GridPoint} {xs : List ℤ}

theorem lists_tuple (xs : List ℤ) : (tuple (xs.map int)).Lists xs := .inl rfl

theorem Lists.items (h : v.Lists xs) : v.items? = some (xs.map int) := by
  rcases h with rfl | rfl <;> rfl

theorem At.pair (h : v.At p) : v.pair = .ok (int p.1, int p.2) := by
  unfold Value.pair
  rw [h.items]
  rfl

theorem At.ofValue (h : v.At p) : Point.ofValue v = .ok (GridPoint.toPoint p) :=
  Point.ofValue_of_pair h.pair

end Value

namespace GridMap

variable {m inner : GridMap} {v : Value} {p : GridPoint}

theorem apply_at (h : v.At p) : ∃ w, m.matrix.apply v = .ok w ∧ w.At (m.image p) := by
  unfold Matrix.apply
  rw [h.pair]
  exact ⟨_, rfl, .inl rfl⟩

theorem ofValue_lists (h : v.Lists m.entries) : Matrix.ofValue v = .ok m.matrix := by
  unfold Matrix.ofValue
  rw [h.items]
  rfl

theorem compose_lists (h : v.Lists inner.entries) :
    m.matrix.compose v = .ok (m.after inner).matrix := by
  unfold Matrix.compose Value.unpack
  rw [h.items]
  rfl

theorem eq_identity (h : v.Lists m.entries) (hidentity : Matrix.isIdentity v = true) :
    m = identity := by
  apply entries_injective
  rcases h with rfl | rfl
  · simpa [Matrix.isIdentity, Matrix.defaults, Value.sameValue, Value.sameAll, Value.int,
      Number.sameValue, entries, identity, and_assoc] using hidentity
  · cases hidentity

/-- What stands in front of a pen acts on points as a map. -/
inductive StandsFor (m : GridMap) : Option Matrix → Prop
  | nothing : m = identity → StandsFor m none
  | matrix : StandsFor m (some m.matrix)

variable {matrix : Option Matrix}

theorem StandsFor.mapPoint (h : m.StandsFor matrix) (hv : v.At p) :
    ∃ w, Pen.mapPoint matrix v = .ok w ∧ w.At (m.image p) := by
  cases h with
  | nothing hidentity =>
      refine ⟨v, rfl, ?_⟩
      rw [hidentity, image_identity]
      exact hv
  | matrix => exact apply_at hv

theorem StandsFor.componentMatrix (h : m.StandsFor matrix) (hv : v.Lists inner.entries) :
    ∃ w, Pen.componentMatrix matrix v = .ok w ∧ w.Lists (m.after inner).entries := by
  cases h with
  | nothing hidentity =>
      refine ⟨v, rfl, ?_⟩
      rw [hidentity, identity_after]
      exact hv
  | matrix =>
      refine ⟨(m.after inner).matrix.toValue, ?_, .inl rfl⟩
      unfold Pen.componentMatrix
      dsimp only
      rw [compose_lists hv]
      rfl

end GridMap

/-- A drawing adds some commands, or components are nested too deeply for it. -/
inductive Drawn.AddsUnless (deep : Prop) (cs : List Command) : Drawn → Prop
  | complete {d : Drawn} : d.outcome = .ok cs → AddsUnless deep cs d
  | tooDeep {d : Drawn} : deep → d.failure = some (.mishap .nestedComponents) →
      AddsUnless deep cs d

namespace Drawn

variable {deep deep' : Prop} {d : Drawn} {cs ds : List Command}

theorem AddsUnless.imp (h : d.AddsUnless deep cs) (himp : deep → deep') :
    d.AddsUnless deep' cs := by
  cases h with
  | complete hd => exact .complete hd
  | tooDeep hdeep hd => exact .tooDeep (himp hdeep) hd

theorem AddsUnless.andThen {next : Unit → Drawn} (h : d.AddsUnless deep cs)
    (h' : (next ()).AddsUnless deep ds) : (d.andThen next).AddsUnless deep (cs ++ ds) := by
  cases h with
  | complete hd =>
      cases h' with
      | complete hnext => exact .complete (outcome_andThen.mpr ⟨cs, ds, hd, hnext, rfl⟩)
      | tooDeep hdeep hnext =>
          refine .tooDeep hdeep ?_
          unfold Drawn.andThen
          rw [(outcome_eq_ok.mp hd).1]
          exact hnext
  | tooDeep hdeep hd =>
      refine .tooDeep hdeep ?_
      unfold Drawn.andThen
      rw [hd]
      exact hd

end Drawn

namespace Pen

variable {matrix : Option Matrix} {m : GridMap} {glyphs : GlyphSet} {r : Recording}
  {cs : List GridCommand}

/-- A stroke on the grid is drawn with its points through what stands in front of the pen. -/
theorem draw_stroke (set : Option GlyphSet) (fuel : ℕ) (hm : m.StandsFor matrix) {c : Call}
    {part : List GridCommand} (h : c.Adds part) :
    (draw set (fuel + 4) matrix c).outcome = .ok (m.commands part) := by
  cases h with
  | moveTo hp =>
      obtain ⟨v, hv, hpoint⟩ := hm.mapPoint hp
      rw [draw_moveTo, hv]
      change (move v).outcome = _
      unfold move
      rw [hpoint.ofValue]
      rfl
  | lineTo hp =>
      obtain ⟨v, hv, hpoint⟩ := hm.mapPoint hp
      rw [draw_lineTo, hv]
      change (line v).outcome = _
      unfold line
      rw [hpoint.ofValue]
      rfl
  | curveTo hp hq hr =>
      obtain ⟨u, hu, hp'⟩ := hm.mapPoint hp
      obtain ⟨v, hv, hq'⟩ := hm.mapPoint hq
      obtain ⟨w, hw, hr'⟩ := hm.mapPoint hr
      rw [draw_curveTo]
      unfold mapPoints
      rw [mapM_eq_ok.mpr (.cons hu (.cons hv (.cons hw .nil)))]
      change (cubic ⟨u, v, w⟩).outcome = _
      unfold cubic
      rw [hp'.ofValue, hq'.ofValue, hr'.ofValue]
      rfl
  | @qCurveTo control finish _ _ hp hq =>
      obtain ⟨u, hu, hp'⟩ := hm.mapPoint hp
      obtain ⟨v, hv, hq'⟩ := hm.mapPoint hq
      have hclosed :
          mapQuadratic matrix [control, finish] = mapPoints matrix [control, finish] := by
        rcases hq with rfl | rfl <;> cases matrix <;> rfl
      rw [draw_qCurveTo, hclosed]
      unfold mapPoints
      rw [mapM_eq_ok.mpr (.cons hu (.cons hv .nil))]
      have hcurve : quadraticCurve [u, v] = quadraticTo [u, v] := by
        rcases hq' with rfl | rfl <;> rfl
      change (quadraticCurve [u, v]).outcome = _
      rw [hcurve, quadraticTo_eq]
      change (Drawn.sequence quadratic [(u, v)]).outcome = _
      rw [Drawn.sequence_singleton]
      unfold quadratic
      rw [hp'.ofValue, hq'.ofValue]
      rfl
  | closePath =>
      rw [draw_closePath]
      rfl
  | endPath =>
      rw [draw_eq]
      cases matrix <;> rfl

/-- Without calls left, nothing of a recording is drawn. -/
theorem addsUnless_of_lt (set : Option GlyphSet) {fuel : ℕ} (hfuel : fuel < 4) {deep : Prop}
    (hdeep : deep) (c : Call) (rest : Recording) {ds : List Command} :
    (Drawn.sequence (draw set fuel matrix) (c :: rest)).AddsUnless deep ds := by
  refine .tooDeep hdeep ?_
  change (Drawn.andThen (draw set fuel matrix c) _).failure = _
  rw [draw_of_lt _ hfuel]
  rfl

/-- Whatever stands in front of the pen, an outline is drawn through it, as long as the calls
suffice. -/
theorem draw_outline (h : glyphs.Outline r cs) (fuel : ℕ) (hm : m.StandsFor matrix) :
    (Drawn.sequence (draw (some glyphs) fuel matrix) r).AddsUnless
      (∀ n, glyphs.Nests n r → fuel < 4 * n + 4) (m.commands cs) := by
  induction h generalizing fuel matrix m with
  | nil => exact .complete rfl
  | @stroke c rest part cs hadds _ ih =>
      have hrest := (ih fuel hm).imp fun hdeep n (hn : glyphs.Nests n (c :: rest)) =>
        hdeep n hn.tail
      by_cases hfuel : fuel < 4
      · exact addsUnless_of_lt _ hfuel (fun n _ => by omega) c rest
      · obtain ⟨fuel, rfl⟩ : ∃ f, fuel = f + 4 := ⟨fuel - 4, by omega⟩
        rw [GridMap.commands_append]
        exact (Drawn.AddsUnless.complete (draw_stroke _ fuel hm hadds)).andThen hrest
  | @component name v inner inside rest cs ds hv hfound _ _ ihinside ihrest =>
      have hrest := (ihrest fuel hm).imp
        fun hdeep n (hn : glyphs.Nests n (Call.addComponent name v :: rest)) => hdeep n hn.tail
      by_cases hfuel : fuel < 4
      · exact addsUnless_of_lt _ hfuel (fun n _ => by omega) _ rest
      · obtain ⟨fuel, rfl⟩ : ∃ f, fuel = f + 4 := ⟨fuel - 4, by omega⟩
        obtain ⟨w, hw, hentries⟩ := hm.componentMatrix hv
        have hleast := le_callsInside matrix fuel
        have hmost := callsInside_le matrix fuel
        have hinside : ∀ {through}, (m.after inner).StandsFor through →
            (Drawn.sequence (draw (some glyphs) (callsInside matrix fuel) through)
              inside).AddsUnless
                (∀ n, glyphs.Nests n (Call.addComponent name v :: rest) → fuel + 4 < 4 * n + 4)
                ((m.after inner).commands cs) := by
          intro through hthrough
          refine (ihinside _ hthrough).imp fun hdeep n hn => ?_
          obtain ⟨k, rfl, hk⟩ := hn.inside hfound
          have := hdeep k hk
          omega
        rw [GridMap.commands_append, GridMap.commands_map]
        refine Drawn.AddsUnless.andThen ?_ hrest
        rw [draw_addComponent, hw, hfound]
        change (if Matrix.isIdentity w then _ else Drawn.bind _ _).AddsUnless _ _
        split_ifs with hidentity
        · exact hinside (.nothing (GridMap.eq_identity hentries hidentity))
        · rw [GridMap.ofValue_lists hentries]
          exact hinside .matrix

end Pen

namespace GlyphSet

variable {glyphs : GlyphSet}

/-- A call adds some commands, unless components are nested in more levels than the pen has calls
for. -/
def Draws [Depth] (glyphs : GlyphSet) (c : Call) (cs : List Command) : Prop :=
  (Pen.call (some glyphs) c).outcome = .ok cs ∨
    (Pen.call (some glyphs) c).outcome = mishap .nestedComponents ∧
      ∀ n, glyphs.Nests n [c] → Depth.calls < 4 * n + 4

theorem Draws.outcome [Depth] {c : Call} {cs : List Command} {n : ℕ} (h : glyphs.Draws c cs)
    (hn : glyphs.Nests n [c]) (hlevels : 4 * n + 4 ≤ Depth.calls) :
    (Pen.call (some glyphs) c).outcome = .ok cs := by
  rcases h with h | ⟨-, hdeep⟩
  · exact h
  · exact absurd (hdeep n hn) (not_lt.mpr hlevels)

/-- A component is drawn as the outline of its glyph through its matrix. -/
theorem draws_component [Depth] {name : String} {inside : Recording} {cs : List GridCommand}
    (hfound : glyphs.recording? name = some inside) (h : glyphs.Outline inside cs) {m : GridMap}
    {v : Value} (hv : v.Lists m.entries) :
    glyphs.Draws (Call.addComponent name v) (m.commands cs) := by
  have houtline := Pen.draw_outline (.component hv hfound h .nil) Depth.calls
    (GridMap.StandsFor.nothing rfl)
  rw [Drawn.sequence_singleton, List.append_nil, GridMap.commands_map, GridMap.identity_after]
    at houtline
  cases houtline with
  | complete hdone => exact .inl hdone
  | tooDeep hdeep hfailure =>
      exact .inr ⟨Drawn.outcome_of_failure hfailure, hdeep⟩

end GlyphSet

/-- A component under a matrix is the drawn component with every point through the matrix: the same
commands in the same order. This includes components that hold components, so two levels draw what
the composed matrix draws. -/
theorem component_is_mapped [Depth] {glyphs : GlyphSet} (hacyclic : glyphs.Acyclic)
    (hgrid : glyphs.IsGrid) {name : String} {inside : Recording}
    (hpresent : glyphs.recording? name = some inside) :
    ∃ cs : List GridCommand,
      glyphs.Draws (Call.addComponent name (.tuple Matrix.defaults))
        (cs.map GridCommand.command) ∧
      (∀ (m : GridMap) (v : Value), v.Lists m.entries →
        glyphs.Draws (Call.addComponent name v) (cs.map fun c => (c.map m.image).command)) ∧
      ∀ (outer : String) (inner : GridMap) (w : Value), w.Lists inner.entries →
        glyphs.recording? outer = some [Call.addComponent name w] →
        ∀ (m : GridMap) (v : Value), v.Lists m.entries →
          glyphs.Draws (Call.addComponent outer v)
            (cs.map fun c => (c.map (m.after inner).image).command) := by
  obtain ⟨cs, hcs⟩ := GlyphSet.exists_outline hacyclic hgrid hpresent
  refine ⟨cs, ?_, fun m v hv => GlyphSet.draws_component hpresent hcs hv, ?_⟩
  · rw [← GridMap.commands_identity]
    exact GlyphSet.draws_component hpresent hcs (.inl rfl)
  · intro outer inner w hw houter m v hv
    have hdraws := GlyphSet.draws_component houter (.component hw hpresent hcs .nil) hv
    rw [List.append_nil, GridMap.commands_map] at hdraws
    exact hdraws

namespace GlyphSet

/-- Every component is of a lower rank than the glyph that uses it. -/
def Ranked (glyphs : GlyphSet) (rank : String → ℕ) : Prop :=
  ∀ outer inner, glyphs.Uses outer inner → rank inner < rank outer

variable {glyphs : GlyphSet} {rank : String → ℕ}

theorem Ranked.acyclic (h : glyphs.Ranked rank) : glyphs.Acyclic := by
  have hlower : ∀ outer inner, Relation.TransGen glyphs.Uses outer inner →
      rank inner < rank outer := by
    intro outer inner hpath
    induction hpath with
    | single huse => exact h _ _ huse
    | tail _ huse ih => exact (h _ _ huse).trans ih
  exact fun name hcycle => lt_irrefl _ (hlower name name hcycle)

theorem Ranked.nests (h : glyphs.Ranked rank) {n : ℕ} {name : String} {r : Recording}
    (hr : glyphs.recording? name = some r) (hn : rank name ≤ n) : glyphs.Nests n r := by
  induction n generalizing name r with
  | zero =>
      intro inner v hmem
      have := h name inner ⟨r, v, hr, hmem⟩
      omega
  | succ n ih =>
      intro inner v hmem inside hinside
      have := h name inner ⟨r, v, hr, hmem⟩
      exact ih hinside (by omega)

theorem Ranked.nests_component (h : glyphs.Ranked rank) {name : String} {v : Value} :
    glyphs.Nests (rank name + 1) [Call.addComponent name v] := by
  intro inner w hmem inside hinside
  obtain ⟨rfl, -⟩ : inner = name ∧ w = v := by
    simpa [Call.addComponent] using List.mem_singleton.mp hmem
  exact h.nests hinside le_rfl

end GlyphSet

def slant : GridMap := ⟨1, 0, 2, 1, 3, 0⟩

def turn : GridMap := ⟨0, 1, -1, 0, 0, 5⟩

def stretch : GridMap := ⟨3, 0, 1, 1, 0, -7⟩

def arrow : Recording :=
  [Call.moveTo (pairOf 0 1), Call.lineTo (pairOf 6 1), Call.qCurveTo [pairOf 4 2, pairOf 4 4],
    Call.curveTo [pairOf 9 4, pairOf 9 (-2), pairOf 0 1], Call.closePath]

/-- An arrow, the arrow slanted, and the slanted arrow turned. -/
def arrows : GlyphSet :=
  [("arrow", arrow),
    ("slanted", [Call.addComponent "arrow" (.tuple (slant.entries.map .int))]),
    ("turned", [Call.addComponent "slanted" (.list (turn.entries.map .int))])]

def arrowRank (name : String) : ℕ := if name = "arrow" then 0 else if name = "slanted" then 1 else 2

theorem arrows_ranked : arrows.Ranked arrowRank := by
  rintro outer inner ⟨r, v, hr, hmem⟩
  have hglyph := GlyphSet.mem_of_recording hr
  simp only [arrows, List.mem_cons, Prod.mk.injEq, List.not_mem_nil, or_false] at hglyph
  rcases hglyph with ⟨rfl, rfl⟩ | ⟨rfl, rfl⟩ | ⟨rfl, rfl⟩
  · simp [arrow, Call.addComponent, Call.moveTo, Call.lineTo, Call.qCurveTo, Call.curveTo,
      Call.closePath, Method.name] at hmem
  · obtain ⟨rfl, -⟩ : inner = "arrow" ∧ v = _ := by
      simpa [Call.addComponent] using List.mem_singleton.mp hmem
    decide
  · obtain ⟨rfl, -⟩ : inner = "slanted" ∧ v = _ := by
      simpa [Call.addComponent] using List.mem_singleton.mp hmem
    decide

theorem arrows_isGrid : arrows.IsGrid := by
  have hat : ∀ x y, (pairOf x y).At (x, y) := fun x y => .inl rfl
  intro name r hr
  have hglyph := GlyphSet.mem_of_recording hr
  simp only [arrows, List.mem_cons, Prod.mk.injEq, List.not_mem_nil, or_false] at hglyph
  rcases hglyph with ⟨-, rfl⟩ | ⟨-, rfl⟩ | ⟨-, rfl⟩
  · simp only [arrow, List.forall_mem_cons]
    exact ⟨.stroke (.moveTo (hat 0 1)), .stroke (.lineTo (hat 6 1)),
      .stroke (.qCurveTo (hat 4 2) (hat 4 4)),
      .stroke (.curveTo (hat 9 4) (hat 9 (-2)) (hat 0 1)), .stroke .closePath, by simp⟩
  · exact List.forall_mem_singleton.mpr (.component (Value.lists_tuple slant.entries) rfl)
  · exact List.forall_mem_singleton.mpr (.component (.inr rfl : Value.Lists turn.entries _) rfl)

open scoped Depth in
/-- The slanted arrow stretched, and the turned one, which holds it, stretched. -/
theorem slanted_arrow_is_mapped :
    ∃ cs : List GridCommand,
      (Pen.call (some arrows) (Call.addComponent "slanted" (.tuple Matrix.defaults))).outcome =
        .ok (cs.map GridCommand.command) ∧
      (Pen.call (some arrows) (Call.addComponent "slanted"
          (.tuple (stretch.entries.map .int)))).outcome =
        .ok (cs.map fun c => (c.map stretch.image).command) ∧
      (Pen.call (some arrows) (Call.addComponent "turned"
          (.tuple (stretch.entries.map .int)))).outcome =
        .ok (cs.map fun c => (c.map (stretch.after turn).image).command) := by
  obtain ⟨cs, hplain, hmapped, hnested⟩ := component_is_mapped arrows_ranked.acyclic arrows_isGrid
    (by rfl : arrows.recording? "slanted" = some _)
  have hstretch := Value.lists_tuple stretch.entries
  refine ⟨cs, hplain.outcome arrows_ranked.nests_component (by decide),
    (hmapped stretch _ hstretch).outcome arrows_ranked.nests_component (by decide), ?_⟩
  exact (hnested "turned" turn _ (.inr rfl) rfl stretch _ hstretch).outcome
    arrows_ranked.nests_component (by decide)

end VectorPath
