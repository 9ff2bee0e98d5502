import VectorPath.Proofs.Font.Laws
import VectorPath.Proofs.Font.Strokes

/-!
# Outlines of glyphs

The outline of a glyph is a sequence of contours, whatever its points are and however its components
are nested. Drawing fails in one way only: when components are nested too deeply to be drawn, which
takes more levels than the pen has calls for. A contour without points cannot be drawn at all.
-/

namespace VectorPath

/-- An outline as fonts of a format store it: points with coordinates of 32 bits and components with
matrices for one format, strokes that begin with a move for the other one, or nothing. -/
inductive FontFormat.Stores : FontFormat → Outline → Prop
  | contours {cs : List (List ContourPoint)} : (∀ c ∈ cs, ∀ p ∈ c, p.Bounded 32) →
      Stores .trueType (.contours cs)
  | components {cs : List Component} : (∀ c ∈ cs, Matrix.Stored c.matrix) →
      Stores .trueType (.components cs)
  | strokes {calls : Recording} : (∀ c ∈ calls, c.IsStroke) →
      (∀ c, calls.head? = some c → c.method = Method.moveTo.name) →
      Stores .openType (.strokes calls)
  | blank : Stores .openType (.contours [])

structure FontFormat.StoresGlyph (format : FontFormat) (g : Glyph) : Prop where
  bearing : g.bearing.natAbs ≤ 2 ^ 32
  left : g.left.natAbs ≤ 2 ^ 32
  outline : format.Stores g.outline

/-- An outline is drawn as part of another one. -/
inductive Outline.PartOf (glyphs : List Glyph) : Outline → Outline → Prop
  | self (o : Outline) : PartOf glyphs o o
  | component {part : Outline} {cs : List Component} {c : Component} {g : Glyph} : c ∈ cs →
      Font.glyph? glyphs c.glyph = some g → PartOf glyphs part g.outline →
      PartOf glyphs part (.components cs)

def Outline.HasPoints (glyphs : List Glyph) (o : Outline) : Prop :=
  ∀ cs, PartOf glyphs (.contours cs) o → ∀ c ∈ cs, c ≠ []

/-- An outline is built of components in so many levels at most. -/
inductive Outline.Nests (glyphs : List Glyph) : ℕ → Outline → Prop
  | contours (n : ℕ) (cs : List (List ContourPoint)) : Nests glyphs n (.contours cs)
  | strokes (n : ℕ) (calls : Recording) : Nests glyphs n (.strokes calls)
  | components {n : ℕ} {cs : List Component} :
      (∀ c ∈ cs, ∀ g, Font.glyph? glyphs c.glyph = some g → Nests glyphs n g.outline) →
      Nests glyphs (n + 1) (.components cs)

namespace Outline

variable {glyphs : List Glyph} {cs : List Component} {c : Component} {g : Glyph}

theorem HasPoints.component (h : HasPoints glyphs (.components cs)) (hc : c ∈ cs)
    (hg : Font.glyph? glyphs c.glyph = some g) : HasPoints glyphs g.outline :=
  fun contours hpart => h contours (.component hc hg hpart)

theorem HasPoints.not_empty {contours : List (List ContourPoint)}
    (h : HasPoints glyphs (.contours contours)) : ∀ c ∈ contours, c ≠ [] :=
  h contours (.self _)

/-- No contour without points is met where all contours have points. -/
theorem HasPoints.not_meetsEmptyContour {o : Outline} (h : HasPoints glyphs o) (fuel : ℕ) :
    Font.meetsEmptyContour glyphs fuel o = false := by
  have hcontours : ∀ cs fuel, HasPoints glyphs (.contours cs) →
      Font.meetsEmptyContour glyphs fuel (.contours cs) = false := by
    intro cs fuel h
    have hany : cs.any List.isEmpty = false := by
      rw [List.any_eq_false]
      intro c hc hempty
      exact h.not_empty c hc (List.isEmpty_iff.mp hempty)
    cases fuel <;> exact hany
  induction fuel generalizing o with
  | zero =>
      cases o with
      | contours cs => exact hcontours cs 0 h
      | components cs => rfl
      | strokes calls => rfl
  | succ fuel ih =>
      cases o with
      | contours cs => exact hcontours cs (fuel + 1) h
      | components cs =>
          change (cs.any fun c => (Font.glyph? glyphs c.glyph).any _) = false
          rw [List.any_eq_false]
          intro c hc hmeets
          cases hg : Font.glyph? glyphs c.glyph with
          | none =>
              rw [hg] at hmeets
              cases hmeets
          | some g =>
              rw [hg] at hmeets
              change Font.meetsEmptyContour glyphs fuel g.outline = true at hmeets
              rw [ih (h.component hc hg)] at hmeets
              cases hmeets
      | strokes calls => rfl

end Outline

/-- A drawing comes to its end with contours, or components are nested too deeply for it. -/
inductive Drawn.EndsIn (format : FontFormat) (deep : Prop) : Drawn → Prop
  | complete {d : Drawn} : d.Completes (IsOutline format) → EndsIn format deep d
  | tooDeep {d : Drawn} : deep → d.failure = some (.mishap .nestedComponents) →
      EndsIn format deep d

namespace Drawn

variable {α : Type} {format : FontFormat} {deep deep' : Prop} {d : Drawn}

theorem EndsIn.imp (h : d.EndsIn format deep) (himp : deep → deep') : d.EndsIn format deep' := by
  cases h with
  | complete hd => exact .complete hd
  | tooDeep hdeep hd => exact .tooDeep (himp hdeep) hd

theorem EndsIn.andThen {next : Unit → Drawn} (h : d.EndsIn format deep)
    (h' : (next ()).EndsIn format deep) : (d.andThen next).EndsIn format deep := by
  cases h with
  | complete hd =>
      cases h' with
      | complete hnext => exact .complete (hd.andThen hnext fun _ _ => IsOutline.append)
      | tooDeep hdeep hnext =>
          refine .tooDeep hdeep ?_
          unfold Drawn.andThen
          rw [hd.1]
          exact hnext
  | tooDeep hdeep hd =>
      refine .tooDeep hdeep ?_
      unfold Drawn.andThen
      rw [hd]
      exact hd

theorem endsIn_sequence {draw : α → Drawn} {xs : List α}
    (h : ∀ x ∈ xs, (draw x).EndsIn format deep) : (sequence draw xs).EndsIn format deep := by
  induction xs with
  | nil => exact .complete (completes_nothing .nil)
  | cons x xs ih =>
      exact (h x (List.mem_cons_self ..)).andThen (ih fun y hy => h y (List.mem_cons_of_mem x hy))

end Drawn

namespace Pen

theorem component_text (set : GlyphSet) (name : String) :
    component (some set) (.text name) = .ok (set.recording? name) := rfl

/-- A component is replayed behind the matrices in front of it, if the glyph set has it. -/
theorem draw_addComponent (set : GlyphSet) (fuel : ℕ) (matrix : Option Matrix) (name : String)
    (v : Value) :
    draw (some set) (fuel + 4) matrix (Call.addComponent name v) =
      .bind (componentMatrix matrix v) fun inner =>
        (set.recording? name).elim .nothing fun recording =>
          if Matrix.isIdentity inner then
            .sequence (draw (some set) (callsInside matrix fuel) none) recording
          else
            .bind (Matrix.ofValue inner) fun through =>
              .sequence (draw (some set) (callsInside matrix fuel) (some through)) recording := by
  have hcheck : checkArguments matrix.isSome .addComponent [.text name, v] = .ok () := by
    cases matrix <;> rfl
  rw [draw_eq]
  unfold added
  change Drawn.bind (checkArguments matrix.isSome .addComponent [.text name, v]) _ = _
  rw [hcheck]
  change (Drawn.bind (componentMatrix matrix v) fun inner =>
    Drawn.bind (component (some set) (.text name)) _) = _
  rw [component_text]
  cases set.recording? name with
  | none => rfl
  | some recording => rfl

/-- The matrix of a component, behind those in front of it, is bounded again. -/
theorem componentMatrix_stored {k : ℕ} {matrix : Option Matrix} {entries : List Number}
    (hmatrix : ∀ m, matrix = some m → m.Bounded k) (h : Matrix.Stored entries) (hk : k ≤ 960) :
    SucceedsWith (fun inner => SucceedsWith (Matrix.Bounded (k + 2)) (Matrix.ofValue inner))
      (componentMatrix matrix (.tuple (entries.map Value.number))) := by
  cases matrix with
  | none => exact succeedsWith_ok ((Matrix.ofValue_stored h).imp fun m hm => hm.mono (by omega))
  | some m =>
      apply (Matrix.compose_stored (hmatrix m rfl) h hk).bind
      intro through hthrough
      apply succeedsWith_ok
      rw [Matrix.ofValue_toValue]
      exact succeedsWith_ok hthrough

end Pen

section Components

variable {glyphs : List Glyph} {fuel k : ℕ} {matrix : Option Matrix}

theorem Font.recording_glyphSet (glyphs : List Glyph) (name : String) :
    (glyphSet glyphs).recording? name = (glyph? glyphs name).map fun g => g.outline.calls 0 := by
  unfold GlyphSet.recording? glyphSet glyph?
  rw [List.find?_map, Option.map_map]
  rfl

theorem ContourPoint.shifted_zero (p : ContourPoint) : p.shifted 0 = p := by
  unfold shifted
  rw [Int.add_zero]

/-- Contours of points are drawn as contours. -/
theorem Pen.completes_contours {bits : ℕ} {contours : List (List ContourPoint)} {shift : ℤ}
    (set : Option GlyphSet) (fuel : ℕ) (hne : ∀ c ∈ contours, c ≠ [])
    (hshown : ∀ c ∈ contours, ∀ p ∈ c, (p.shifted shift).ShownBy matrix bits)
    (hbits : bits + 1 < 999) :
    (Drawn.sequence (draw set (fuel + 4) matrix)
      ((Outline.contours contours).calls shift)).Completes (IsOutline .trueType) := by
  change (Drawn.sequence _ (contours.flatMap _)).Completes _
  induction contours with
  | nil => exact Drawn.completes_nothing .nil
  | cons c rest ih =>
      rw [List.flatMap_cons, Drawn.sequence_append]
      have hc : (Drawn.sequence (draw set (fuel + 4) matrix)
          (Outline.contourCalls (c.map (ContourPoint.shifted shift)))).Completes
            (IsContour .trueType) := by
        apply completes_contourCalls set fuel _ _ hbits
        · simpa using hne c (List.mem_cons_self ..)
        · exact List.forall_mem_map.mpr (hshown c (List.mem_cons_self ..))
      have hrest := ih (fun d hd => hne d (List.mem_cons_of_mem c hd))
        fun d hd => hshown d (List.mem_cons_of_mem c hd)
      exact hc.andThen hrest fun _ _ => IsOutline.contour

/-- A component ends as what is inside it does, whatever matrix that is drawn through. -/
theorem Pen.endsIn_component {c : Component} {format : FontFormat} {deep : Prop}
    (hmatrix : ∀ m, matrix = some m → m.Bounded k) (hstored : Matrix.Stored c.matrix) (hk : k ≤ 960)
    (hinside : ∀ g, Font.glyph? glyphs c.glyph = some g → ∀ through : Option Matrix,
      (∀ m, through = some m → m.Bounded (k + 2)) →
      (Drawn.sequence (draw (some (Font.glyphSet glyphs)) (callsInside matrix fuel) through)
        (g.outline.calls 0)).EndsIn format deep) :
    (draw (some (Font.glyphSet glyphs)) (fuel + 4) matrix
      (Call.addComponent c.glyph (.tuple (c.matrix.map Value.number)))).EndsIn format deep := by
  obtain ⟨inner, hinner, through, hthrough, hbounded⟩ := componentMatrix_stored hmatrix hstored hk
  rw [draw_addComponent, hinner, Font.recording_glyphSet]
  cases hg : Font.glyph? glyphs c.glyph with
  | none => exact .complete (Drawn.completes_nothing .nil)
  | some g =>
      change (if Matrix.isIdentity inner then _ else Drawn.bind _ _).EndsIn format deep
      split_ifs
      · exact hinside g hg none nofun
      · rw [hthrough]
        apply hinside g hg (some through)
        rintro m hm
        obtain rfl := Option.some.inj hm
        exact hbounded

/-- An outline as part of another one is drawn as an outline, as long as the calls suffice. The
bits of a matrix grow by two while the calls that are left drop by three at least. -/
theorem Pen.endsIn_outline {o : Outline}
    (hstored : ∀ g ∈ glyphs, FontFormat.trueType.Stores g.outline)
    (ho : FontFormat.trueType.Stores o) (hpoints : o.HasPoints glyphs)
    (hmatrix : ∀ m, matrix = some m → m.Bounded k) (hk : 3 * k + 2 * fuel ≤ 1980) :
    (Drawn.sequence (draw (some (Font.glyphSet glyphs)) fuel matrix) (o.calls 0)).EndsIn .trueType
      (∀ n, o.Nests glyphs n → fuel < 4 * n + 4) := by
  induction fuel using Nat.strongRecOn generalizing k matrix o with
  | ind fuel ih =>
  by_cases hfuel : fuel < 4
  · apply Drawn.endsIn_sequence
    intro call _
    rw [draw_of_lt _ hfuel]
    refine .tooDeep (fun n _ => ?_) rfl
    omega
  · obtain ⟨fuel, rfl⟩ : ∃ f, fuel = f + 4 := ⟨fuel - 4, by omega⟩
    cases ho with
    | contours hbounded =>
        apply Drawn.EndsIn.complete
        apply completes_contours _ fuel hpoints.not_empty _ (by omega : k + 34 + 1 < 999)
        intro c hc p hp
        rw [ContourPoint.shifted_zero]
        exact (hbounded c hc p hp).shownBy hmatrix (by omega)
    | @components cs hcs =>
        apply Drawn.endsIn_sequence
        intro call hcall
        obtain ⟨c, hc, rfl⟩ := List.mem_map.mp hcall
        apply endsIn_component hmatrix (hcs c hc) (by omega)
        intro g hg through hthrough
        have hleast := le_callsInside matrix fuel
        have hmost := callsInside_le matrix fuel
        have hg' := hstored g (List.mem_of_find?_eq_some hg)
        apply (ih _ (by omega) hg' (hpoints.component hc hg) hthrough (by omega)).imp
        intro hdeep n hn
        cases hn with
        | components hn =>
            have hinside := hdeep _ (hn c hc g hg)
            omega

end Components

section Glyphs

variable {format : FontFormat} {glyphs : List Glyph} {g : Glyph}

/-- A point moves by the bearing and the left edge of its glyph, both of which are bounded. -/
theorem ContourPoint.Bounded.moved {p : ContourPoint} (hpoint : p.Bounded 32)
    {bearing left : ℤ} (hbearing : bearing.natAbs ≤ 2 ^ 32) (hleft : left.natAbs ≤ 2 ^ 32) :
    (p.shifted (bearing - left)).Bounded 34 := by
  have hx := hpoint.x
  have hy := hpoint.y
  refine ⟨?_, ?_⟩
  · change (p.x + (bearing - left)).natAbs ≤ 2 ^ 34
    omega
  · change p.y.natAbs ≤ 2 ^ 34
    omega

theorem Font.endsIn_drawing [Depth] (hstored : ∀ g ∈ glyphs, format.StoresGlyph g) (hg : g ∈ glyphs)
    (hpoints : g.outline.HasPoints glyphs) :
    (Pen.replay (some (glyphSet glyphs)) (drawing g)).EndsIn format
      (∀ n, g.outline.Nests glyphs n → Depth.calls < 4 * n + 4) := by
  obtain ⟨name, bearing, left, outline⟩ := g
  obtain ⟨hbearing, hleft, houtline⟩ := hstored _ hg
  cases houtline with
  | contours hbounded =>
      apply Drawn.EndsIn.complete
      rw [Pen.replay_eq_draw]
      apply Pen.completes_contours (some (glyphSet glyphs)) _ hpoints.not_empty _
        (by decide : 34 + 1 < 999)
      intro c hc p hp
      exact succeedsWith_ok ((hbounded c hc p hp).moved hbearing hleft).toValue
  | components hcs =>
      have hall : ∀ g ∈ glyphs, FontFormat.trueType.Stores g.outline := fun g hg =>
        (hstored g hg).outline
      have hcalls := Depth.calls_le
      rw [Pen.replay_eq]
      exact Pen.endsIn_outline (k := 0) hall (.components hcs) hpoints
        (nofun : ∀ m : Matrix, none = some m → m.Bounded 0) (by omega)
  | strokes hcalls hmove =>
      rw [Pen.replay_eq_draw]
      exact .complete (Pen.completes_closedStrokes _ _ hcalls hmove)
  | blank => exact .complete (Drawn.completes_nothing .nil)

/-- The outline of a glyph is what is drawn for it. -/
theorem Font.runOn_outline [Depth] {font : Font} {name : String}
    (hg : glyph? font.glyphs name = some g)
    (hmeets : meetsEmptyContour font.glyphs font.glyphs.length g.outline = false) :
    (Font.library.outline name).runOn (.whole font) =
      ((Pen.replay (some (glyphSet font.glyphs)) (drawing g)).outcome, .whole font) := by
  have hfound : (Font.library.hasGlyph name).runOn (.whole font) = (.ok true, .whole font) := by
    change (Except.ok (glyph? font.glyphs name).isSome, _) = _
    rw [hg]
    rfl
  have hdrawing : (Font.library.drawing name).runOn (.whole font) =
      (.ok (drawing g, glyphSet font.glyphs), .whole font) := by
    refine (OpenFont.runOn_drawing_whole name font).trans ?_
    rw [hg]
    dsimp only
    rw [hmeets]
    rfl
  exact FontLibrary.runOn_outline hfound hdrawing

end Glyphs

/-- The outline of a glyph is a sequence of contours if all contours that it draws have points: an
outline that is not empty begins with a move and ends with the command that closes a contour, and
all commands are absolute. It is drawn unless components are nested in more levels than the pen has
calls for, when there may be too many of them. -/
theorem outlines_are_contours [Depth] {r : OutlineReader Font.library} {font : Font} {name : String}
    {g : Glyph} (hloaded : r.font? = some (OpenFont.whole font))
    (hstored : ∀ g ∈ font.glyphs, font.format.StoresGlyph g)
    (hg : Font.glyph? font.glyphs name = some g) (hpoints : g.outline.HasPoints font.glyphs) :
    (∃ cs, (r.outline name).1 = .ok cs ∧ IsOutline font.format cs ∧
        (∀ c ∈ cs, c.relative = false) ∧
        (cs ≠ [] → (∃ start, cs.head? = some (.absolute (.moveTo start))) ∧
          cs.getLast? = some (.absolute .closePath))) ∨
      (r.outline name).1 = mishap .nestedComponents ∧
        ∀ n, g.outline.Nests font.glyphs n → Depth.calls < 4 * n + 4 := by
  have houtline : (r.outline name).1 =
      (Pen.replay (some (Font.glyphSet font.glyphs)) (Font.drawing g)).outcome := by
    unfold OutlineReader.outline
    rw [OutlineReader.ask_loaded hloaded,
      Font.runOn_outline hg (hpoints.not_meetsEmptyContour _)]
  rw [houtline]
  cases Font.endsIn_drawing hstored (List.mem_of_find?_eq_some hg) hpoints with
  | complete hcomplete =>
      have hcs := hcomplete.2
      exact .inl ⟨_, hcomplete.outcome, hcs, hcs.absolute,
        fun hne => ⟨hcs.head hne, hcs.getLast hne⟩⟩
  | tooDeep hdeep hfailed => exact .inr ⟨Drawn.outcome_of_failure hfailed, hdeep⟩

/-- A ring without a point on the curve and a dot. -/
def ringContours : List (List ContourPoint) :=
  [[⟨0, 0, false⟩, ⟨40, 0, false⟩, ⟨20, 30, false⟩], [⟨20, 10, true⟩]]

def ring : Glyph := ⟨"ring", 5, 0, .contours ringContours⟩

/-- The ring upside down, and as it is. -/
def ringComponents : List Component :=
  [⟨"ring", [.int 1, .int 0, .int 0, .int (-1), .int 0, .int 90]⟩,
    ⟨"ring", [.int 1, .int 0, .int 0, .int 1, .int 0, .int 0]⟩]

def rings : Glyph := ⟨"rings", 0, 0, .components ringComponents⟩

def ringFont : Font := ⟨.trueType, [ring, rings]⟩

theorem rings_stored : ∀ g ∈ [ring, rings], FontFormat.trueType.StoresGlyph g := by
  have hring : FontFormat.trueType.StoresGlyph ring := ⟨by decide, by decide, .contours (by decide)⟩
  have hrings : FontFormat.trueType.StoresGlyph rings := by
    refine ⟨by decide, by decide, .components ?_⟩
    intro c hc
    rcases List.mem_pair.mp hc with rfl | rfl <;> constructor <;> decide
  exact List.forall_mem_cons.mpr ⟨hring, List.forall_mem_singleton.mpr hrings⟩

theorem eq_ring_of_component {c : Component} {g : Glyph} (hc : c ∈ ringComponents)
    (hg : Font.glyph? [ring, rings] c.glyph = some g) : g = ring := by
  rcases List.mem_pair.mp hc with rfl | rfl <;> exact (Option.some.inj hg).symm

theorem rings_hasPoints : rings.outline.HasPoints [ring, rings] := by
  intro cs hpart
  cases hpart with
  | component hc hg hpart =>
      rw [eq_ring_of_component hc hg] at hpart
      cases hpart with
      | self => decide

open scoped Depth in
/-- Contours without a point on the curve are drawn twice, once through a matrix. -/
theorem rings_are_contours :
    ∃ cs, ((⟨⟨"", ["f"]⟩, some (.whole ringFont)⟩ : OutlineReader Font.library).outline "rings").1 =
        .ok cs ∧
      IsOutline .trueType cs ∧ (∀ c ∈ cs, c.relative = false) ∧
      (cs ≠ [] → (∃ start, cs.head? = some (.absolute (.moveTo start))) ∧
        cs.getLast? = some (.absolute .closePath)) := by
  have hnests : rings.outline.Nests [ring, rings] 1 := by
    refine .components fun c hc g hg => ?_
    rw [eq_ring_of_component hc hg]
    exact .contours 0 ringContours
  obtain hdrawn | ⟨-, hdeep⟩ := outlines_are_contours
    (r := ⟨⟨"", ["f"]⟩, some (.whole ringFont)⟩) (g := rings) rfl rings_stored
    (by rfl : Font.glyph? _ "rings" = _) rings_hasPoints
  · exact hdrawn
  · exact absurd (hdeep 1 hnests) (by decide)

/-- A contour with two points and one without any. -/
def brokenGlyph : Glyph := ⟨"A", 3, 1, .contours [[⟨1, 1, true⟩, ⟨2, 5, true⟩], []]⟩

open scoped Depth in
/-- A glyph with a contour without points has no outline. -/
theorem contour_without_points_fails :
    ¬ ∀ (r : OutlineReader Font.library) (font : Font) (name : String) (g : Glyph),
      r.font? = some (OpenFont.whole font) →
      (∀ g ∈ font.glyphs, font.format.StoresGlyph g) → Font.glyph? font.glyphs name = some g →
      (∃ cs, (r.outline name).1 = .ok cs ∧ IsOutline font.format cs ∧
          (∀ c ∈ cs, c.relative = false) ∧
          (cs ≠ [] → (∃ start, cs.head? = some (.absolute (.moveTo start))) ∧
            cs.getLast? = some (.absolute .closePath))) ∨
        (r.outline name).1 = mishap .nestedComponents ∧
          ∀ n, g.outline.Nests font.glyphs n → Depth.calls < 4 * n + 4 := by
  intro h
  have hstored : FontFormat.trueType.StoresGlyph brokenGlyph :=
    ⟨by decide, by decide, .contours (by decide)⟩
  rcases h ⟨⟨"", ["f"]⟩, some (.whole ⟨.trueType, [brokenGlyph]⟩)⟩ _ "A" brokenGlyph rfl
    (List.forall_mem_singleton.mpr hstored) rfl with ⟨cs, hcs, -⟩ | ⟨hdeep, -⟩
  · cases hcs
  · cases hdeep

end VectorPath
