import VectorPath.Proofs.Font.Laws

/-!
# Uses of a reader

A reader is used in any order: it loads the font and closes it, it is asked for what needs a loaded
font, and it does all of this within scopes, which load the font where they begin and close it
where they end, whatever happened inside. What comes next may depend on every answer, failures
included. Whether the reader has a font is told by the loads and closings so far. What it answers is
told by the place alone as long as the library has not failed on the font that it has: a failure may
leave a font half read, and then the next answer may be another one.
-/

namespace VectorPath.OutlineReader

variable {L : FontLibrary}

inductive Access
  | format
  | glyphNames
  | outline (glyph : String)

def Access.request : Access → Request
  | format => .format
  | glyphNames => .glyphNames
  | outline glyph => .outline glyph

def Access.query [Depth] (L : FontLibrary) : Access → Query L.Open Answer
  | format => Answer.format <$> (do return L.format (← get))
  | glyphNames => Answer.names <$> L.glyphOrder
  | outline glyph => Answer.commands <$> L.outline glyph

inductive Operation
  | load
  | close
  | access (a : Access)

def Operation.request : Operation → Request
  | load => .load
  | close => .close
  | access a => a.request

section Answers

variable {files : Files} {r loaded : OutlineReader L} {font : L.Open} {f : Failure}

theorem load_eq_ok : r.load files = .ok loaded ↔
    ∃ font, L.load files r.place = .ok font ∧ loaded = ⟨r.place, some font⟩ := by
  unfold load
  rw [bind_eq_ok]
  constructor
  · rintro ⟨font, hfont, hloaded⟩
    exact ⟨font, hfont, (Except.ok.inj hloaded).symm⟩
  · rintro ⟨font, hfont, rfl⟩
    exact ⟨font, hfont, rfl⟩

/-- Loading depends on the place alone, not on what has been loaded. -/
theorem load_eq_start (r : OutlineReader L) : r.load files = (start r.place).load files := rfl

section Requests

variable [Depth]

theorem answer_load_ok (h : r.load files = .ok loaded) :
    r.answer files .load = (.ok .done, loaded) := by
  unfold answer
  rw [h]

theorem answer_load_error (h : r.load files = .error f) :
    r.answer files .load = (.error f, r) := by
  unfold answer
  rw [h]

/-- What needs a font is asked of the font. -/
theorem answer_access (a : Access) : r.answer files a.request = r.ask (a.query L) := by
  have hmap {α : Type} (q : Query L.Open α) (g : α → Answer) :
      (r.ask q).map (Except.map g) id = r.ask (g <$> q) := by
    cases hr : r.font? with
    | none =>
        rw [ask_unloaded hr, ask_unloaded hr]
        rfl
    | some font =>
        rw [ask_loaded hr, ask_loaded hr, Query.runOn_map]
        rfl
  cases a with
  | format => exact hmap (do return L.format (← get)) .format
  | glyphNames => exact hmap L.glyphOrder .names
  | outline glyph => exact hmap (L.outline glyph) .commands

theorem Access.sound {alike : L.Open → L.Open → Prop} (h : L.Lawful alike) (a : Access) :
    (a.query L).Sound alike := by
  cases a with
  | format => exact h.sound_format.map _
  | glyphNames => exact h.glyphOrder.sound.map _
  | outline glyph => exact (h.sound_outline glyph).map _

end Requests

end Answers

/-- A use of a reader. It goes on with whatever it is answered, and it ends with an answer or a
failure, which may be one that it did not catch. -/
inductive Use
  | finish (o : Outcome Answer)
  | ask (op : Operation) (next : Outcome Answer → Use)
  | scope (body : Use) (next : Outcome Answer → Use)

/-- What happens to a reader: an operation, the beginning of a scope with what came of loading the
font, or the end of a scope with what came of its body. -/
inductive Event
  | did (op : Operation) (o : Outcome Answer)
  | enter (o : Outcome Answer)
  | leave (o : Outcome Answer)

structure Step (L : FontLibrary) where
  event : Event
  before : OutlineReader L
  after : OutlineReader L

structure Run (L : FontLibrary) where
  steps : List (Step L)
  outcome : Outcome Answer
  reader : OutlineReader L

def Run.events (run : Run L) : List Event := run.steps.map Step.event

/-- Carries out a use. The body of a scope is reached only if the font can be loaded, and then so
is the end of the scope, whatever came of the body. -/
def Use.run [Depth] (files : Files) : Use → OutlineReader L → Run L
  | finish o, r => ⟨[], o, r⟩
  | ask op next, r =>
      let answered := r.answer files op.request
      let later := (next answered.1).run files answered.2
      { later with steps := ⟨.did op answered.1, r, answered.2⟩ :: later.steps }
  | scope body next, r =>
      match r.load files with
      | .ok entered =>
          let inside := body.run files entered
          let left := inside.reader.close
          let later := (next inside.outcome).run files left
          { later with
            steps := ⟨.enter (.ok .done), r, entered⟩ ::
              (inside.steps ++ ⟨.leave inside.outcome, inside.reader, left⟩ :: later.steps) }
      | .error f =>
          let later := (next (.error f)).run files r
          { later with steps := ⟨.enter (.error f), r, r⟩ :: later.steps }

def Request.use : Request → Use
  | .load => .ask .load .finish
  | .close => .ask .close .finish
  | .format => .ask (.access .format) .finish
  | .glyphNames => .ask (.access .glyphNames) .finish
  | .outline glyph => .ask (.access (.outline glyph)) .finish
  | .scoped glyph => .scope (.ask (.access (.outline glyph)) .finish) .finish

/-- A request is answered as the use that it stands for ends. -/
theorem answer_eq_run [Depth] (files : Files) (r : OutlineReader L) (q : Request) :
    r.answer files q = ((q.use.run files r).outcome, (q.use.run files r).reader) := by
  cases q with
  | «scoped» glyph =>
      unfold answer Request.use Use.run
      cases r.load files with
      | ok loaded => rfl
      | error f => rfl
  | load => rfl
  | close => rfl
  | format => rfl
  | glyphNames => rfl
  | outline glyph => rfl

namespace Event

inductive Loads : Event → Prop
  | load (a : Answer) : Loads (.did .load (.ok a))
  | enter (a : Answer) : Loads (.enter (.ok a))

inductive Closes : Event → Prop
  | close (o : Outcome Answer) : Closes (.did .close o)
  | leave (o : Outcome Answer) : Closes (.leave o)

inductive Refuses : Event → Prop
  | load (f : Failure) : Refuses (.did .load (.error f))
  | enter (f : Failure) : Refuses (.enter (.error f))

/-- Something that needs a font has been asked, and a mishap came of it. -/
inductive Disturbs : Event → Prop
  | access (a : Access) (m : Mishap) : Disturbs (.did (.access a) (mishap m))

theorem access_not_loads (a : Access) (o : Outcome Answer) : ¬ (did (.access a) o).Loads := nofun

theorem access_not_closes (a : Access) (o : Outcome Answer) : ¬ (did (.access a) o).Closes := nofun

theorem Closes.not_loads {e : Event} (h : e.Closes) : ¬ e.Loads := by
  cases h <;> nofun

end Event

/-- The font has been loaded, and everything after that is of a kind. -/
def Since (P : Event → Prop) (events : List Event) : Prop :=
  ∃ early e late, events = early ++ e :: late ∧ e.Loads ∧ ∀ l ∈ late, P l

/-- The font has been loaded, and the reader has not been closed since. -/
def LoadedBy (events : List Event) : Prop := Since (fun e => ¬ e.Closes) events

/-- The font has been loaded, and since then the reader has not been closed and no mishap came of
asking the font. -/
def IntactBy (events : List Event) : Prop := Since (fun e => ¬ e.Closes ∧ ¬ e.Disturbs) events

section Since

variable {P Q : Event → Prop} {events : List Event} {e : Event}

theorem not_since_nil : ¬ Since P [] := by
  rintro ⟨early, e, late, h, -, -⟩
  simp at h

theorem since_concat : Since P (events ++ [e]) ↔ e.Loads ∨ P e ∧ Since P events := by
  constructor
  · rintro ⟨early, d, late, h, hd, hlate⟩
    -- The last event is the load itself, or it comes after it.
    rcases List.eq_nil_or_concat late with rfl | ⟨late, l, rfl⟩
    · obtain ⟨-, hlast⟩ := List.append_inj' h rfl
      rw [List.singleton_inj.mp hlast]
      exact .inl hd
    · rw [List.concat_eq_append] at h hlate
      rw [← List.cons_append, ← List.append_assoc] at h
      obtain ⟨rfl, hlast⟩ := List.append_inj' h rfl
      rw [List.singleton_inj.mp hlast]
      refine .inr ⟨hlate l (by simp), early, d, late, rfl, hd, fun m hm => hlate m ?_⟩
      exact List.mem_append_left _ hm
  · rintro (he | ⟨he, early, d, late, rfl, hd, hlate⟩)
    · exact ⟨events, e, [], rfl, he, by simp⟩
    · refine ⟨early, d, late ++ [e], by simp, hd, ?_⟩
      intro l hl
      rcases List.mem_append.mp hl with hl | hl
      · exact hlate l hl
      · rwa [List.mem_singleton.mp hl]

theorem IntactBy.loadedBy (h : IntactBy events) : LoadedBy events := by
  obtain ⟨early, e, late, hevents, he, hlate⟩ := h
  exact ⟨early, e, late, hevents, he, fun l hl => (hlate l hl).1⟩

theorem Event.Loads.loadedBy (h : e.Loads) : LoadedBy (events ++ [e]) := since_concat.mpr (.inl h)

theorem Event.Closes.not_loadedBy (h : e.Closes) : ¬ LoadedBy (events ++ [e]) := by
  unfold LoadedBy
  rw [since_concat, not_or, not_and]
  exact ⟨h.not_loads, fun hopen => absurd h hopen⟩

/-- What neither loads nor closes a font leaves it loaded or not. -/
theorem loadedBy_concat_iff (hloads : ¬ e.Loads) (hcloses : ¬ e.Closes) :
    LoadedBy (events ++ [e]) ↔ LoadedBy events := by
  unfold LoadedBy
  rw [since_concat, or_iff_right hloads, and_iff_right hcloses]

theorem IntactBy.of_concat (h : IntactBy (events ++ [e])) (hloads : ¬ e.Loads) :
    ¬ e.Disturbs ∧ IntactBy events := by
  obtain ⟨⟨-, hdisturbs⟩, hevents⟩ := (since_concat.mp h).resolve_left hloads
  exact ⟨hdisturbs, hevents⟩

end Since

/-- How a reader stands after some events: whether it has a font, and that the font is as good as
new if it is intact. -/
structure Standing (alike : L.Open → L.Open → Prop) (files : Files) (place : Place)
    (events : List Event) (r : OutlineReader L) : Prop where
  place_eq : r.place = place
  loaded : r.font?.isSome ↔ LoadedBy events
  intact : IntactBy events → ∃ font fresh, r.font? = some font ∧
    L.load files place = .ok fresh ∧ alike font fresh

namespace Standing

variable {alike : L.Open → L.Open → Prop} {files : Files} {place : Place} {events : List Event}
  {r : OutlineReader L}

theorem start (h : ¬ LoadedBy events) :
    (OutlineReader.start place : OutlineReader L).Standing alike files place events where
  place_eq := rfl
  loaded := ⟨nofun, fun hloaded => absurd hloaded h⟩
  intact hintact := absurd hintact.loadedBy h

theorem of_load (halike : Equivalence alike)
    (h : (OutlineReader.start place).load files = .ok r) (hloaded : LoadedBy events) :
    r.Standing alike files place events := by
  obtain ⟨font, hfont, rfl⟩ := load_eq_ok.mp h
  exact ⟨rfl, ⟨fun _ => hloaded, fun _ => rfl⟩, fun _ => ⟨font, font, rfl, hfont, halike.refl font⟩⟩

theorem close_eq (h : r.Standing alike files place events) :
    r.close = OutlineReader.start place := by
  rw [← h.place_eq]
  rfl

/-- Loading again gives what loading for the first time gives. -/
theorem load_eq (h : r.Standing alike files place events) :
    r.load files = (OutlineReader.start place).load files := by
  rw [r.load_eq_start, h.place_eq]

/-- An event that changes nothing. -/
theorem concat {e : Event} (h : r.Standing alike files place events) (hloads : ¬ e.Loads)
    (hcloses : ¬ e.Closes) : r.Standing alike files place (events ++ [e]) where
  place_eq := h.place_eq
  loaded := h.loaded.trans (loadedBy_concat_iff hloads hcloses).symm
  intact hintact := h.intact (hintact.of_concat hloads).2

section Asked

variable [Depth] (hL : L.Lawful alike) (h : r.Standing alike files place events) (a : Access)

include hL h

/-- The font that has been asked stays, and it stays intact unless a mishap came of it. -/
theorem asked :
    (r.ask (a.query L)).2.Standing alike files place
      (events ++ [.did (.access a) (r.ask (a.query L)).1]) := by
  cases hr : r.font? with
  | none =>
      rw [ask_unloaded hr]
      exact h.concat (Event.access_not_loads a _) (Event.access_not_closes a _)
  | some font =>
      have hloaded : LoadedBy events := h.loaded.mp (by rw [hr]; rfl)
      rw [ask_loaded hr]
      refine ⟨h.place_eq, ?_, fun hintact => ?_⟩
      · rw [loadedBy_concat_iff (Event.access_not_loads a _) (Event.access_not_closes a _)]
        exact ⟨fun _ => hloaded, fun _ => rfl⟩
      · obtain ⟨hdisturbs, hevents⟩ := hintact.of_concat (Event.access_not_loads a _)
        obtain ⟨same, fresh, hsame, hfresh, halike⟩ := h.intact hevents
        obtain rfl := Option.some.inj (hr.symm.trans hsame)
        have hkept : alike ((a.query L).runOn font).2 font := by
          refine (Access.sound hL a).kept fun m hm => hdisturbs ?_
          rw [hm]
          exact .access a m
        exact ⟨_, fresh, rfl, hfresh, hL.equivalence.trans hkept halike⟩

theorem isSome_asked : (r.ask (a.query L)).2.font?.isSome ↔ r.font?.isSome := by
  rw [(h.asked hL a).loaded, h.loaded]
  exact loadedBy_concat_iff (Event.access_not_loads a _) (Event.access_not_closes a _)

theorem asked_eq_fontNotLoaded : (r.ask (a.query L)).1 = mishap .fontNotLoaded ↔
    ¬ LoadedBy events := by
  rw [← h.loaded]
  cases hr : r.font? with
  | none =>
      rw [ask_unloaded hr]
      exact ⟨fun _ => nofun, fun _ => rfl⟩
  | some font =>
      rw [ask_loaded hr]
      exact ⟨fun hnone => absurd hnone ((Access.sound hL a).needsNoFont font),
        fun hnot => absurd rfl hnot⟩

/-- An intact font answers as one that has just been loaded. -/
theorem asked_eq_fresh (hintact : IntactBy events) :
    ∃ fresh : OutlineReader L, (OutlineReader.start place).load files = .ok fresh ∧
      (r.ask (a.query L)).1 = (fresh.ask (a.query L)).1 := by
  obtain ⟨font, fresh, hr, hfresh, halike⟩ := h.intact hintact
  refine ⟨⟨place, some fresh⟩, load_eq_ok.mpr ⟨fresh, hfresh, rfl⟩, ?_⟩
  rw [ask_loaded hr, ask_loaded rfl]
  exact (Access.sound hL a).congr halike

end Asked

end Standing

/-- What a step does to a reader, given what happened before. -/
structure Step.Lawful [Depth] (alike : L.Open → L.Open → Prop) (files : Files) (place : Place)
    (earlier : List Event) (s : Step L) : Prop where
  before : s.before.Standing alike files place earlier
  after : s.after.Standing alike files place (earlier ++ [s.event])
  loads : s.event.Loads → (start place).load files = .ok s.after
  closes : s.event.Closes → s.after = start place
  /-- A font that cannot be loaded leaves everything as it was. -/
  refuses : s.event.Refuses → s.after = s.before
  /-- Asking for something leaves the reader with a font or without one, as it was. -/
  asks {a : Access} {o : Outcome Answer} : s.event = .did (.access a) o →
    (s.after.font?.isSome ↔ s.before.font?.isSome)
  /-- Closing succeeds. -/
  closed {o : Outcome Answer} : s.event = .did .close o → o = .ok .done
  /-- What needs a font fails for want of one just if none has been loaded. -/
  needsFont {a : Access} {o : Outcome Answer} : s.event = .did (.access a) o →
    (o = mishap .fontNotLoaded ↔ ¬ LoadedBy earlier)
  /-- Otherwise the answer is that of a reader that has just loaded the font, unless a mishap has
  come of asking the font before. -/
  answers {a : Access} {o : Outcome Answer} : s.event = .did (.access a) o → IntactBy earlier →
    ∃ fresh : OutlineReader L, (start place).load files = .ok fresh ∧
      o = (fresh.answer files a.request).1

namespace Standing

variable [Depth] {alike : L.Open → L.Open → Prop} {files : Files} {place : Place}
  {earlier : List Event} {r loaded : OutlineReader L}

theorem lawful_enter (halike : Equivalence alike) (h : r.Standing alike files place earlier)
    (hload : r.load files = .ok loaded) :
    Step.Lawful alike files place earlier ⟨.enter (.ok .done), r, loaded⟩ where
  before := h
  after := .of_load halike (h.load_eq ▸ hload) (Event.Loads.enter .done).loadedBy
  loads _ := h.load_eq ▸ hload
  closes := nofun
  refuses := nofun
  asks := nofun
  closed := nofun
  needsFont := nofun
  answers := nofun

theorem lawful_refusal (h : r.Standing alike files place earlier) (f : Failure) :
    Step.Lawful alike files place earlier ⟨.enter (.error f), r, r⟩ where
  before := h
  after := h.concat nofun nofun
  loads := nofun
  closes := nofun
  refuses _ := rfl
  asks := nofun
  closed := nofun
  needsFont := nofun
  answers := nofun

theorem lawful_leave (h : r.Standing alike files place earlier) (o : Outcome Answer) :
    Step.Lawful alike files place earlier ⟨.leave o, r, r.close⟩ where
  before := h
  after := h.close_eq ▸ .start (Event.Closes.leave o).not_loadedBy
  loads := nofun
  closes _ := h.close_eq
  refuses := nofun
  asks := nofun
  closed := nofun
  needsFont := nofun
  answers := nofun

theorem lawful_did (hL : L.Lawful alike) (h : r.Standing alike files place earlier)
    (op : Operation) :
    Step.Lawful alike files place earlier
      ⟨.did op (r.answer files op.request).1, r, (r.answer files op.request).2⟩ := by
  cases op with
  | load =>
      cases hload : r.load files with
      | ok loaded =>
          rw [Operation.request, answer_load_ok hload]
          have hstart := h.load_eq ▸ hload
          exact ⟨h, .of_load hL.equivalence hstart (Event.Loads.load .done).loadedBy,
            fun _ => hstart, nofun, nofun, nofun, nofun, nofun, nofun⟩
      | error f =>
          rw [Operation.request, answer_load_error hload]
          exact ⟨h, h.concat nofun nofun, nofun, nofun, fun _ => rfl, nofun, nofun, nofun, nofun⟩
  | close =>
      have hafter : r.close.Standing alike files place (earlier ++ [.did .close (.ok .done)]) :=
        h.close_eq ▸ .start (Event.Closes.close _).not_loadedBy
      refine ⟨h, hafter, nofun, fun _ => h.close_eq, nofun, nofun, ?_, nofun, nofun⟩
      rintro o ⟨⟩
      rfl
  | access a =>
      rw [Operation.request, answer_access]
      refine ⟨h, h.asked hL a, nofun, nofun, nofun, ?_, nofun, ?_, ?_⟩
      · rintro _ _ ⟨⟩
        exact h.isSome_asked hL a
      · rintro _ _ ⟨⟩
        exact h.asked_eq_fontNotLoaded hL a
      · rintro _ _ ⟨⟩ hintact
        obtain ⟨fresh, hfresh, hsame⟩ := h.asked_eq_fresh hL a hintact
        exact ⟨fresh, hfresh, hsame.trans (congrArg Prod.fst (answer_access a)).symm⟩

end Standing

/-- Steps lead from one reader to another, each of them lawful after those before it. -/
inductive Leads [Depth] (alike : L.Open → L.Open → Prop) (files : Files) (place : Place) :
    List Event → OutlineReader L → List (Step L) → OutlineReader L → Prop
  | nil {earlier : List Event} {r : OutlineReader L} :
      r.Standing alike files place earlier → Leads alike files place earlier r [] r
  | cons {earlier : List Event} {s : Step L} {rest : List (Step L)} {r : OutlineReader L} :
      s.Lawful alike files place earlier →
      Leads alike files place (earlier ++ [s.event]) s.after rest r →
      Leads alike files place earlier s.before (s :: rest) r

namespace Leads

variable [Depth] {alike : L.Open → L.Open → Prop} {files : Files} {place : Place}
  {earlier : List Event} {r r' r'' : OutlineReader L} {xs ys : List (Step L)}

theorem standing (h : Leads alike files place earlier r xs r') :
    r'.Standing alike files place (earlier ++ xs.map Step.event) := by
  induction h with
  | nil hr => rwa [List.map_nil, List.append_nil]
  | cons _ _ ih => rwa [List.map_cons, List.append_cons]

theorem append (hxs : Leads alike files place earlier r xs r')
    (hys : Leads alike files place (earlier ++ xs.map Step.event) r' ys r'') :
    Leads alike files place earlier r (xs ++ ys) r'' := by
  induction hxs with
  | nil _ => rwa [List.map_nil, List.append_nil] at hys
  | cons hs _ ih =>
      rw [List.map_cons, List.append_cons] at hys
      exact .cons hs (ih hys)

theorem lawful {s : Step L} (h : Leads alike files place earlier r (xs ++ s :: ys) r') :
    s.Lawful alike files place (earlier ++ xs.map Step.event) := by
  induction xs generalizing earlier r with
  | nil =>
      cases h with
      | cons hs _ => rwa [List.map_nil, List.append_nil]
  | cons x xs ih =>
      cases h with
      | cons _ hrest =>
          rw [List.map_cons, List.append_cons]
          exact ih hrest

end Leads

/-- Every scope that begins with a loaded font comes to its end. -/
inductive WellScoped : List Event → Prop
  | nil : WellScoped []
  | did {op : Operation} {o : Outcome Answer} {rest : List Event} :
      WellScoped rest → WellScoped (.did op o :: rest)
  | refused {f : Failure} {rest : List Event} :
      WellScoped rest → WellScoped (.enter (.error f) :: rest)
  | scope {a : Answer} {inside : List Event} {o : Outcome Answer} {rest : List Event} :
      WellScoped inside → WellScoped rest →
      WellScoped (.enter (.ok a) :: (inside ++ .leave o :: rest))

namespace Use

variable [Depth]

theorem leads {alike : L.Open → L.Open → Prop} (hL : L.Lawful alike) (files : Files)
    (place : Place) (use : Use) {earlier : List Event} {r : OutlineReader L}
    (h : r.Standing alike files place earlier) :
    Leads alike files place earlier r (use.run files r).steps (use.run files r).reader := by
  induction use generalizing earlier r with
  | finish o => exact .nil h
  | ask op next ih =>
      have hdid := h.lawful_did hL op
      exact .cons hdid (ih _ hdid.after)
  | scope body next ihbody ih =>
      unfold run
      cases hload : r.load files with
      | ok entered =>
          have henter := h.lawful_enter hL.equivalence hload
          have hinside := ihbody henter.after
          -- The body may have closed the reader, and it may have failed; neither matters here.
          have hleave := hinside.standing.lawful_leave (body.run files entered).outcome
          exact .cons henter (hinside.append (.cons hleave (ih _ hleave.after)))
      | error f =>
          have henter := h.lawful_refusal f
          exact .cons henter (ih _ henter.after)

theorem wellScoped (files : Files) (use : Use) (r : OutlineReader L) :
    WellScoped (use.run files r).events := by
  induction use generalizing r with
  | finish o => exact .nil
  | ask op next ih => exact .did (ih _ _)
  | scope body next ihbody ih =>
      unfold run
      cases r.load files with
      | ok entered =>
          unfold Run.events
          rw [List.map_cons, List.map_append, List.map_cons]
          exact .scope (ihbody _) (ih _ _)
      | error f => exact .refused (ih _ _)

end Use

/-- However a reader is used, what needs a font fails for want of one just if the font has not been
loaded since the reader was last closed. Otherwise it is answered as by a reader that has just
loaded the font, as long as no mishap has come of asking the font since it was loaded. A font that
cannot be loaded leaves the reader as it was, asking leaves it loaded or not, and closing it, where
a scope ends or by itself, always leads back to a reader that has loaded nothing. -/
theorem uses_are_lawful [Depth] {alike : L.Open → L.Open → Prop} (hL : L.Lawful alike)
    (files : Files) (place : Place) (use : Use) :
    WellScoped (use.run files (start place : OutlineReader L)).events ∧
      (∀ earlier s later,
        (use.run files (start place : OutlineReader L)).steps = earlier ++ s :: later →
        s.Lawful alike files place (earlier.map Step.event)) ∧
      (use.run files (start place : OutlineReader L)).reader.Standing alike files place
        (use.run files (start place : OutlineReader L)).events := by
  have hleads := use.leads hL files place (.start not_since_nil)
  refine ⟨use.wellScoped files (start place), ?_, hleads.standing⟩
  intro earlier s later hsteps
  rw [hsteps] at hleads
  exact hleads.lawful

/-- Within a scope a glyph is asked for that is not there; then the font is loaded twice and asked
for its names, once before the second time and once after it. -/
def sampleUse : Use :=
  .scope (.ask (.access (.outline "B")) .finish) fun _ => .ask .load fun _ =>
    .ask (.access .glyphNames) fun _ => .ask .load fun _ => .ask (.access .glyphNames) .finish

def dotFiles : Files :=
  ⟨[], [(["f"], .font ⟨.trueType, [⟨"dot", 0, 0, .contours [[⟨0, 0, true⟩]]⟩]⟩ [])]⟩

open scoped Depth in
theorem sampleUse_is_lawful :
    let run := sampleUse.run dotFiles (start ⟨"", ["f"]⟩ : OutlineReader Font.library)
    run.events = [.enter (.ok .done), .did (.access (.outline "B")) (fault (.glyph "B")),
      .leave (fault (.glyph "B")), .did .load (.ok .done),
      .did (.access .glyphNames) (.ok (.names ["dot"])), .did .load (.ok .done),
      .did (.access .glyphNames) (.ok (.names ["dot"]))] ∧
    (∀ earlier s later, run.steps = earlier ++ s :: later →
      s.Lawful OpenFont.Alike dotFiles ⟨"", ["f"]⟩ (earlier.map Step.event)) ∧
    run.reader.Standing OpenFont.Alike dotFiles ⟨"", ["f"]⟩ run.events := by
  obtain ⟨-, hsteps, hreader⟩ :=
    uses_are_lawful Font.library_lawful dotFiles ⟨"", ["f"]⟩ sampleUse
  exact ⟨rfl, hsteps, hreader⟩

/-- A font of two glyphs with a character map of one part, which breaks off after its header. -/
def brokenMap : List UInt8 :=
  [0, 1, 0, 0, 0, 2, 0, 0, 0, 0, 0, 0,
    0x63, 0x6d, 0x61, 0x70, 0, 0, 0, 0, 0, 0, 0, 44, 0, 0, 0, 18,
    0x6d, 0x61, 0x78, 0x70, 0, 0, 0, 0, 0, 0, 0, 62, 0, 0, 0, 6,
    0, 0, 0, 1, 0, 3, 0, 1, 0, 0, 0, 12, 0, 4, 0, 6, 0, 0,
    0, 0, 0x50, 0, 0, 2]

def brokenFiles : Files := ⟨[], [(["f"], .bytes brokenMap)]⟩

/-- The font is loaded and asked for its names twice. -/
def namesTwice : Use :=
  .ask .load fun _ => .ask (.access .glyphNames) fun _ => .ask (.access .glyphNames) .finish

open scoped Depth in
/-- A loaded font need not answer as one that has just been loaded: the names that the first request
has failed to give are there the second time. -/
theorem broken_map_answers_otherwise :
    ¬ ∀ (files : Files) (place : Place) (use : Use) (earlier later : List (Step Font.library))
        (s : Step Font.library) (a : Access) (o : Outcome Answer),
      (use.run files (start place)).steps = earlier ++ s :: later →
      s.event = .did (.access a) o → LoadedBy (earlier.map Step.event) →
      ∃ fresh : OutlineReader Font.library, (start place).load files = .ok fresh ∧
        o = (fresh.answer files a.request).1 := by
  intro h
  have hloaded : LoadedBy [.did .load (.ok .done),
      .did (.access .glyphNames) (mishap (.shortNumbers 8))] := by
    refine ⟨[], _, [_], rfl, .load .done, fun l hl => ?_⟩
    obtain rfl := List.mem_singleton.mp hl
    exact Event.access_not_closes _ _
  obtain ⟨fresh, hfresh, hsame⟩ := h brokenFiles ⟨"", ["f"]⟩ namesTwice [_, _] [] _ .glyphNames
    (.ok (.names [".notdef", "glyph00001"])) rfl rfl hloaded
  have hfirst : (OutlineReader.answer brokenFiles fresh .glyphNames).1 =
      mishap (.shortNumbers 8) := by
    obtain rfl := Except.ok.inj hfresh
    rfl
  cases hsame.trans hfirst

end VectorPath.OutlineReader
