import VectorPath.Font.Reader
import VectorPath.Proofs.Drawing.Mishaps

/-!
# Laws of font libraries

How a library reads a font is its own affair, so what is taken for granted of it is stated through a
relation between open fonts that answer alike: they give the same answers, and a font that has
answered is like it was before. A request that fails inside the library fails with a mishap, after
which nothing is known of the font. The library by which fonts are read keeps to these laws, with
fonts alike that are made of the same tables and give the same names.
-/

namespace VectorPath

/-- Fails with nothing but mishaps, none of which is that of a reader without a font. -/
def Foreign {α : Type} (o : Outcome α) : Prop :=
  ∀ f, o = .error f → ∃ m, f = .mishap m ∧ m ≠ .fontNotLoaded

section Rules

variable {α β : Type} {o : Outcome α} {f : α → Outcome β}

theorem foreign_ok (a : α) : Foreign (.ok a : Outcome α) := nofun

theorem foreign_mishap {m : Mishap} (h : m ≠ .fontNotLoaded) : Foreign (mishap m : Outcome α) := by
  rintro _ ⟨⟩
  exact ⟨m, rfl, h⟩

theorem Foreign.bind (h : Foreign o) (hf : ∀ a, Foreign (f a)) : Foreign (o >>= f) := by
  intro failure herror
  rcases bind_eq_error.mp herror with ho | ⟨a, -, ha⟩
  · exact h failure ho
  · exact hf a failure ha

theorem Foreign.needsNoFont (h : Foreign o) : NeedsNoFont o := by
  intro herror
  obtain ⟨m, hm, hne⟩ := h _ herror
  cases hm
  exact hne rfl

end Rules

namespace Query

variable {σ α β : Type} {s t : σ}

theorem runOn_bind (q : Query σ α) (f : α → Query σ β) (s : σ) :
    (q >>= f).runOn s =
      match q.runOn s with
      | (.ok a, t) => (f a).runOn t
      | (.error e, t) => (.error e, t) := by
  change (ExceptT.bindCont f (q s).1 (q s).2 : Id _) = match q s with
    | (.ok a, t) => (f a) t
    | (.error e, t) => (.error e, t)
  rcases q s with ⟨e | a, t⟩ <;> rfl

theorem runOn_get (s : σ) : (get : Query σ σ).runOn s = (.ok s, s) := rfl

theorem runOn_map (g : α → β) (q : Query σ α) (s : σ) :
    (g <$> q).runOn s = ((q.runOn s).1.map g, (q.runOn s).2) := by
  rw [← bind_pure_comp, runOn_bind]
  rcases q.runOn s with ⟨e | a, t⟩ <;> rfl

theorem runOn_outcome (o : Outcome α) (s : σ) : (liftM o : Query σ α).runOn s = (o, s) := rfl

/-- What alike states answer alike, and what leaves the state as it was when it is answered. -/
structure Steady (alike : σ → σ → Prop) (q : Query σ α) : Prop where
  congr {s t : σ} : alike s t → (q.runOn s).1 = (q.runOn t).1
  kept {s : σ} {a : α} : (q.runOn s).1 = .ok a → alike (q.runOn s).2 s
  foreign (s : σ) : Foreign (q.runOn s).1

/-- What alike states answer alike, and what leaves the state as it was unless it is stopped by a
mishap. -/
structure Sound (alike : σ → σ → Prop) (q : Query σ α) : Prop where
  congr {s t : σ} : alike s t → (q.runOn s).1 = (q.runOn t).1
  kept {s : σ} : (∀ m, (q.runOn s).1 ≠ mishap m) → alike (q.runOn s).2 s
  needsNoFont (s : σ) : NeedsNoFont (q.runOn s).1

section Composition

variable {alike : σ → σ → Prop} {q : Query σ α} {f : α → Query σ β}

theorem Steady.cases (h : q.Steady alike) (s : σ) :
    (∃ a t, q.runOn s = (.ok a, t) ∧ alike t s) ∨
      ∃ m t, q.runOn s = (mishap m, t) ∧ m ≠ .fontNotLoaded := by
  have hkept := @h.kept s
  have hforeign := h.foreign s
  generalize q.runOn s = r at hkept hforeign ⊢
  obtain ⟨failure | a, t⟩ := r
  · obtain ⟨m, rfl, hm⟩ := hforeign failure rfl
    exact .inr ⟨m, t, rfl, hm⟩
  · exact .inl ⟨a, t, rfl, hkept rfl⟩

theorem Steady.sound (h : q.Steady alike) : q.Sound alike where
  congr := h.congr
  kept {s} hmishap := by
    obtain ⟨a, t, ht, hts⟩ | ⟨m, t, ht, -⟩ := h.cases s
    · rwa [ht]
    · exact absurd (congrArg Prod.fst ht) (hmishap m)
  needsNoFont s := (h.foreign s).needsNoFont

/-- After a steady request alike states are still alike, unless a mishap has stopped both. -/
theorem Steady.bind (halike : Equivalence alike) (hq : q.Steady alike)
    (hf : ∀ a, (f a).Sound alike) : (q >>= f).Sound alike where
  congr {s t} hst := by
    have hsame := (hq.congr hst).symm
    have ht : q.runOn t = ((q.runOn s).1, (q.runOn t).2) := Prod.ext hsame rfl
    rw [runOn_bind, runOn_bind, ht]
    obtain ⟨a, s', hs, hs'⟩ | ⟨m, s', hs, -⟩ := hq.cases s
    · rw [hs] at hsame ⊢
      exact (hf a).congr (halike.trans hs' (halike.trans hst (halike.symm (hq.kept hsame))))
    · rw [hs]
      rfl
  kept {s} := by
    rw [runOn_bind]
    obtain ⟨a, s', hs, hs'⟩ | ⟨m, s', hs, -⟩ := hq.cases s <;> rw [hs]
    · exact fun hmishap => halike.trans ((hf a).kept hmishap) hs'
    · exact fun hmishap => absurd rfl (hmishap m)
  needsNoFont s := by
    rw [runOn_bind]
    obtain ⟨a, s', hs, -⟩ | ⟨m, s', hs, hm⟩ := hq.cases s <;> rw [hs]
    · exact (hf a).needsNoFont s'
    · exact (foreign_mishap hm).needsNoFont

theorem Sound.map (h : q.Sound alike) (g : α → β) : (g <$> q).Sound alike where
  congr hst := by
    rw [runOn_map, runOn_map, h.congr hst]
  kept {s} hmishap := by
    rw [runOn_map] at hmishap ⊢
    refine h.kept fun m hm => hmishap m ?_
    rw [hm]
    rfl
  needsNoFont s := by
    rw [runOn_map]
    exact (h.needsNoFont s).map

/-- An outcome that no state has a part in. -/
theorem sound_outcome (halike : Equivalence alike) {o : Outcome α} (h : NeedsNoFont o) :
    (liftM o : Query σ α).Sound alike where
  congr _ := rfl
  kept _ := halike.refl _
  needsNoFont _ := h

end Composition

end Query

/-- What is taken for granted of a font library. -/
structure FontLibrary.Lawful (L : FontLibrary) (alike : L.Open → L.Open → Prop) : Prop where
  equivalence : Equivalence alike
  hasTable {a b : L.Open} : alike a b → L.hasTable a = L.hasTable b
  glyphOrder : L.glyphOrder.Steady alike
  hasGlyph (name : String) : (L.hasGlyph name).Steady alike
  drawing (name : String) : (L.drawing name).Steady alike

namespace FontLibrary

variable {L : FontLibrary} {alike : L.Open → L.Open → Prop}

/-- The outline of a glyph that is there is what the pen makes of its drawing. -/
theorem runOn_outline [Depth] {name : String} {font found drawn : L.Open} {calls : Recording}
    {glyphs : GlyphSet} (hfound : (L.hasGlyph name).runOn font = (.ok true, found))
    (hdrawing : (L.drawing name).runOn found = (.ok (calls, glyphs), drawn)) :
    (L.outline name).runOn font = (calls.commands (some glyphs), drawn) := by
  unfold outline
  rw [Query.runOn_bind, hfound]
  dsimp only
  rw [if_pos rfl, Query.runOn_bind, hdrawing]
  rfl

namespace Lawful

theorem format_eq (h : L.Lawful alike) {a b : L.Open} (hab : alike a b) :
    L.format a = L.format b := by
  unfold FontLibrary.format
  rw [h.hasTable hab]

theorem sound_format (h : L.Lawful alike) :
    (do return L.format (← get) : Query L.Open FontFormat).Sound alike where
  congr hab := congrArg Except.ok (h.format_eq hab)
  kept _ := h.equivalence.refl _
  needsNoFont _ := needsNoFont_ok _

/-- The pen may fail as well, but it leaves the font alone. -/
theorem sound_outline [Depth] (h : L.Lawful alike) (name : String) :
    (L.outline name).Sound alike := by
  refine (h.hasGlyph name).bind h.equivalence fun found => ?_
  split
  · exact (h.drawing name).bind h.equivalence fun drawn =>
      Query.sound_outcome h.equivalence (Recording.commands_needsNoFont _ _)
  · exact Query.sound_outcome (o := fault (.glyph name)) h.equivalence nofun

end Lawful

end FontLibrary

namespace OutlineReader

variable {L : FontLibrary} {r : OutlineReader L} {α : Type}

theorem ask_unloaded (h : r.font? = none) (query : Query L.Open α) :
    r.ask query = (mishap .fontNotLoaded, r) := by
  unfold ask
  rw [h]

theorem ask_loaded {font : L.Open} (h : r.font? = some font) (query : Query L.Open α) :
    r.ask query = ((query.runOn font).1, ⟨r.place, some (query.runOn font).2⟩) := by
  unfold ask
  rw [h]

end OutlineReader

namespace OpenFont

/-- An open font as it was when it was opened. -/
def fresh : OpenFont → OpenFont
  | .whole font => .whole font
  | .tables found _ => .tables found none

/-- Made of the same tables, with the same names of glyphs. -/
def Alike (a b : OpenFont) : Prop :=
  a.fresh = b.fresh ∧ (glyphOrder.runOn a).1 = (glyphOrder.runOn b).1

theorem alike_equivalence : Equivalence Alike where
  refl _ := ⟨rfl, rfl⟩
  symm h := ⟨h.1.symm, h.2.symm⟩
  trans h h' := ⟨h.1.trans h'.1, h.2.trans h'.2⟩

section Foreign

variable (found : List FontTable)

theorem content_foreign (tag : String) : Foreign (FontTable.content found tag) := by
  unfold FontTable.content
  split
  · exact foreign_mishap nofun
  · split
    · exact foreign_mishap nofun
    · exact foreign_ok _

theorem glyphCount_foreign : Foreign (glyphCount found) := by
  refine (content_foreign found "maxp").bind fun content => ?_
  extract_lets length
  split
  · exact foreign_ok _
  · exact foreign_mishap nofun

theorem numberedNames_foreign (count : ℕ) : Foreign (numberedNames count) := by
  unfold numberedNames
  split
  · exact foreign_mishap nofun
  · exact foreign_ok _

theorem check_foreign (part : MapPart) : Foreign part.check := by
  unfold MapPart.check
  split
  · exact foreign_mishap nofun
  · exact foreign_ok ()

theorem forM_foreign (parts : List MapPart) : Foreign (parts.forM MapPart.check) := by
  induction parts with
  | nil => exact foreign_ok ()
  | cons part parts ih =>
      exact (check_foreign part).bind fun _ => ih

theorem checkCharacterMap_foreign : Foreign (checkCharacterMap found) := by
  unfold checkCharacterMap
  split
  · refine (content_foreign found "cmap").bind fun content => ?_
    split
    · exact foreign_mishap nofun
    · exact forM_foreign _
  · exact foreign_ok ()

end Foreign

/-- The first request for names: they are kept if there are any, and the character map may still be
in the way. -/
theorem runOn_glyphOrder (found : List FontTable) :
    glyphOrder.runOn (.tables found none) =
      match glyphCount found >>= numberedNames with
      | .error f => (.error f, .tables found none)
      | .ok names =>
          (checkCharacterMap found >>= fun _ => .ok names, .tables found (some names)) := by
  unfold glyphOrder
  rw [Query.runOn_bind, Query.runOn_get]
  dsimp only
  rw [Query.runOn_bind, Query.runOn_outcome]
  cases glyphCount found with
  | error f => rfl
  | ok count =>
      dsimp only
      rw [Query.runOn_bind, Query.runOn_outcome]
      change _ = match numberedNames count with
        | .error f => _
        | .ok names => _
      cases numberedNames count with
      | error f => rfl
      | ok names =>
          dsimp only
          rw [Query.runOn_bind]
          change (do let _ ← liftM (checkCharacterMap found); pure names : Query _ _).runOn _ = _
          rw [Query.runOn_bind, Query.runOn_outcome]
          cases checkCharacterMap found <;> rfl

theorem runOn_glyphOrder_named (found : List FontTable) (names : List String) :
    glyphOrder.runOn (.tables found (some names)) = (.ok names, .tables found (some names)) := rfl

theorem glyphOrder_steady : glyphOrder.Steady Alike where
  congr h := h.2
  kept {s names} h := by
    rcases s with font | ⟨found, _ | known⟩
    · exact alike_equivalence.refl _
    · rw [runOn_glyphOrder] at h
      unfold Alike
      rw [runOn_glyphOrder]
      cases hnames : glyphCount found >>= numberedNames with
      | error f =>
          rw [hnames] at h
          cases h
      | ok numbered =>
          rw [hnames] at h
          obtain ⟨_, hcheck, hsame⟩ := bind_eq_ok.mp h
          obtain rfl := Except.ok.inj hsame
          refine ⟨rfl, ?_⟩
          dsimp only
          rw [hcheck, runOn_glyphOrder_named]
          rfl
    · exact alike_equivalence.refl _
  foreign s := by
    rcases s with font | ⟨found, _ | known⟩
    · exact foreign_ok _
    · have hnames := (glyphCount_foreign found).bind numberedNames_foreign
      rw [runOn_glyphOrder]
      cases h : glyphCount found >>= numberedNames with
      | error f => rwa [h] at hnames
      | ok names => exact (checkCharacterMap_foreign found).bind fun _ => foreign_ok names
    · exact foreign_ok _

theorem Alike.cases {a b : OpenFont} (h : a.Alike b) :
    (∃ font, a = .whole font ∧ b = .whole font) ∨
      ∃ found names names', a = .tables found names ∧ b = .tables found names' := by
  obtain ⟨hfresh, -⟩ := h
  cases a <;> cases b <;> cases hfresh
  · exact .inl ⟨_, rfl, rfl⟩
  · exact .inr ⟨_, _, _, rfl, rfl⟩

theorem hasGlyph_steady (name : String) : (hasGlyph name).Steady Alike where
  congr h := by
    obtain ⟨font, rfl, rfl⟩ | ⟨found, names, names', rfl, rfl⟩ := h.cases <;> rfl
  kept {s _} _ := by
    cases s <;> exact alike_equivalence.refl _
  foreign s := by
    cases s with
    | whole font => exact foreign_ok _
    | tables found names => exact foreign_mishap nofun

theorem runOn_drawing_whole (name : String) (font : Font) :
    (drawing name).runOn (.whole font) =
      (match Font.glyph? font.glyphs name with
        | none => mishap (.missingKey (Text.quoted name))
        | some g =>
            if Font.meetsEmptyContour font.glyphs font.glyphs.length g.outline then
              mishap (.outOfRange "list")
            else .ok (Font.drawing g, Font.glyphSet font.glyphs),
        .whole font) := by
  unfold drawing
  rw [Query.runOn_bind, Query.runOn_get]
  dsimp only
  cases Font.glyph? font.glyphs name with
  | none => rfl
  | some g =>
      dsimp only
      split <;> rfl

theorem drawing_steady (name : String) : (drawing name).Steady Alike where
  congr h := by
    obtain ⟨font, rfl, rfl⟩ | ⟨found, names, names', rfl, rfl⟩ := h.cases <;> rfl
  kept {s _} _ := by
    cases s with
    | whole font =>
        rw [runOn_drawing_whole]
        exact alike_equivalence.refl _
    | tables found names => exact alike_equivalence.refl _
  foreign s := by
    cases s with
    | whole font =>
        rw [runOn_drawing_whole]
        dsimp only
        split
        · exact foreign_mishap nofun
        · split
          · exact foreign_mishap nofun
          · exact foreign_ok _
    | tables found names => exact foreign_mishap nofun

end OpenFont

theorem Font.library_lawful : Font.library.Lawful OpenFont.Alike where
  equivalence := OpenFont.alike_equivalence
  hasTable h := by
    obtain ⟨font, rfl, rfl⟩ | ⟨found, names, names', rfl, rfl⟩ := OpenFont.Alike.cases h <;> rfl
  glyphOrder := OpenFont.glyphOrder_steady
  hasGlyph := OpenFont.hasGlyph_steady
  drawing := OpenFont.drawing_steady

end VectorPath
