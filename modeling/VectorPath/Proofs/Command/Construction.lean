import VectorPath.Command.Construct
import VectorPath.Proofs.Command.Refusal

/-!
# Building commands from arguments

Binding succeeds when every parameter gets exactly one of the arguments and none is left over, and
the values it gives are those of the parameters in order. A command is then built whenever the
values of its point fields are points or yield two items, and nothing but these values is changed.
It makes no difference which of the arguments were named, or whether the points among them were
made beforehand.
-/

namespace VectorPath

namespace Arguments

/-- The parameters have these values, in order: each of them is bound by exactly one argument, by
position or by name, and no other argument is given. -/
structure Binds (parameters : List String) (positional : List Value)
    (named : List (String × Value)) (values : List Value) : Prop where
  fits : positional.length ≤ parameters.length
  complete : values.length = parameters.length
  once : (parameters.zip positional ++ named).Perm (parameters.zip values)

variable {callee : String} {parameters : List String} {positional values : List Value}
  {named bound all : List (String × Value)}

theorem map_fst_zip_eq_take {α β : Type} (xs : List α) (ys : List β) :
    (xs.zip ys).map Prod.fst = xs.take ys.length := by
  induction xs generalizing ys with
  | nil => simp
  | cons x xs ih =>
      cases ys with
      | nil => rfl
      | cons y ys => simp [ih]

theorem nodup_map_fst_zip {α β : Type} {xs : List α} (h : xs.Nodup) (ys : List β) :
    ((xs.zip ys).map Prod.fst).Nodup := by
  rw [map_fst_zip_eq_take]
  exact h.sublist (List.take_sublist ..)

theorem bindNamed_eq_ok_iff (hreceiver : receiver ∉ parameters)
    (hbound : (bound.map Prod.fst).Nodup) :
    bindNamed callee parameters named bound = .ok all ↔
      all = bound ++ named ∧ (all.map Prod.fst).Nodup ∧
        ∀ entry ∈ named, entry.1 ∈ parameters := by
  induction named generalizing bound with
  | nil =>
      rw [bindNamed, List.append_nil, Except.ok.injEq]
      constructor
      · rintro rfl
        exact ⟨rfl, hbound, by simp⟩
      · rintro ⟨rfl, -, -⟩
        rfl
  | cons entry rest ih =>
      obtain ⟨name, v⟩ := entry
      rw [bindNamed]
      split_ifs with hself hknown hagain
      · refine ⟨nofun, fun ⟨_, _, hmem⟩ => absurd (hmem (name, v) (List.mem_cons_self ..)) ?_⟩
        rwa [hself]
      · refine ⟨nofun, fun ⟨_, _, hmem⟩ => ?_⟩
        simp [hmem (name, v) (List.mem_cons_self ..)] at hknown
      · refine ⟨nofun, ?_⟩
        rintro ⟨rfl, hnodup, -⟩
        have hname : name ∈ bound.map Prod.fst := by simpa using hagain
        rw [List.map_append, List.nodup_append] at hnodup
        exact absurd rfl (hnodup.2.2 name hname name (List.mem_cons_self ..))
      · have hname : name ∉ bound.map Prod.fst := by simpa using hagain
        have hparameter : name ∈ parameters := by simpa using hknown
        have hnodup : ((bound ++ [(name, v)]).map Prod.fst).Nodup := by
          rw [List.map_append, List.nodup_append]
          refine ⟨hbound, List.nodup_singleton name, ?_⟩
          rintro s hs t ht rfl
          obtain rfl := List.mem_singleton.mp ht
          exact hname hs
        rw [ih hnodup, List.append_assoc, List.singleton_append, List.forall_mem_cons]
        simp only [hparameter, true_and]

/-- Every item has an image, and these are the images. -/
theorem filter_isNone_filterMap_iff {α β : Type} {f : α → Option β} {xs : List α} {ys : List β} :
    (xs.filter fun x => (f x).isNone) = [] ∧ xs.filterMap f = ys ↔
      List.Forall₂ (fun x y => f x = some y) xs ys := by
  induction xs generalizing ys with
  | nil => simp [eq_comm]
  | cons x xs ih =>
      rw [List.forall₂_cons_left_iff]
      rcases hx : f x with _ | y
      · simp [hx]
      · simp only [List.filter_cons, List.filterMap_cons, hx, ← ih]
        grind

/-- What binding goes through: the names are known and distinct, the positions are not too many,
and every parameter is found under its name. -/
theorem bind_eq_ok_iff_lookup (hparameters : parameters.Nodup) (hreceiver : receiver ∉ parameters) :
    bind callee parameters positional named = .ok values ↔
      (((parameters.zip positional ++ named).map Prod.fst).Nodup ∧
        ∀ entry ∈ named, entry.1 ∈ parameters) ∧ positional.length ≤ parameters.length ∧
      List.Forall₂ (fun name v => Value.lookup name (parameters.zip positional ++ named) = some v)
        parameters values := by
  unfold bind
  rw [bind_eq_ok]
  simp only [bindNamed_eq_ok_iff hreceiver (nodup_map_fst_zip hparameters positional)]
  constructor
  · rintro ⟨_, ⟨rfl, hnames⟩, h⟩
    split_ifs at h with hfits
    · cases h
    · refine ⟨hnames, Nat.le_of_not_lt hfits, ?_⟩
      split at h
      next hnone => exact filter_isNone_filterMap_iff.mp ⟨hnone, Except.ok.inj h⟩
      next => cases h
  · rintro ⟨hnames, hfits, hvalues⟩
    obtain ⟨hnone, hvalues⟩ := filter_isNone_filterMap_iff.mpr hvalues
    refine ⟨_, ⟨rfl, hnames⟩, ?_⟩
    rw [if_neg (Nat.not_lt.mpr hfits), hnone, hvalues]
    rfl

/-- Binding succeeds exactly when every parameter is bound once and nothing else is passed. -/
theorem bind_eq_ok_iff (hparameters : parameters.Nodup) (hreceiver : receiver ∉ parameters) :
    bind callee parameters positional named = .ok values ↔
      Binds parameters positional named values := by
  rw [bind_eq_ok_iff_lookup hparameters hreceiver]
  constructor
  · rintro ⟨⟨hnodup, hnamed⟩, hfits, hvalues⟩
    have hlookup : ∀ {name v}, (name, v) ∈ parameters.zip values →
        Value.lookup name (parameters.zip positional ++ named) = some v :=
      fun h => List.forall₂_zip hvalues h
    refine ⟨hfits, hvalues.length_eq.symm, ?_⟩
    have hzip : (parameters.zip values).Nodup := (nodup_map_fst_zip hparameters values).of_map
    rw [List.perm_ext_iff_of_nodup hnodup.of_map hzip]
    rintro ⟨name, v⟩
    refine ⟨fun hmem => ?_, fun hmem => Value.mem_of_lookup (hlookup hmem)⟩
    have hname : name ∈ (parameters.zip values).map Prod.fst := by
      rw [List.map_fst_zip hvalues.length_eq.le]
      rcases List.mem_append.mp hmem with hmem | hmem
      · exact (List.of_mem_zip hmem).1
      · exact hnamed _ hmem
    obtain ⟨⟨_, w⟩, hw, rfl⟩ := List.mem_map.mp hname
    have hsame := hlookup hw
    rw [(Value.lookup_eq_some_iff hnodup).mpr hmem, Option.some.injEq] at hsame
    rwa [hsame]
  · intro h
    have hnames : ((parameters.zip positional ++ named).map Prod.fst).Perm parameters := by
      have := h.once.map Prod.fst
      rwa [List.map_fst_zip (Nat.le_of_eq h.complete.symm)] at this
    have hnodup := hnames.nodup_iff.mpr hparameters
    refine ⟨⟨hnodup, fun entry hentry => ?_⟩, h.fits, ?_⟩
    · exact hnames.subset (List.mem_map_of_mem (List.mem_append_right _ hentry))
    · refine List.forall₂_iff_zip.mpr ⟨h.complete.symm, fun {name v} hmem => ?_⟩
      exact (Value.lookup_eq_some_iff hnodup).mpr (h.once.symm.subset hmem)

/-- All of the values by position. -/
theorem Binds.byPosition (h : Binds parameters positional named values) :
    Binds parameters values [] values :=
  ⟨h.complete.le, h.complete, by rw [List.append_nil]⟩

theorem zip_zipWith {α β γ : Type} (f : α → β → γ) (xs : List α) (ys : List β) :
    xs.zip (List.zipWith f xs ys) = (xs.zip ys).map fun entry => (entry.1, f entry.1 entry.2) := by
  induction xs generalizing ys with
  | nil => rfl
  | cons x xs ih =>
      cases ys with
      | nil => rfl
      | cons y ys => simp [ih]

/-- A change of every argument that looks at nothing but its name changes the values alike. -/
theorem Binds.change (h : Binds parameters positional named values) (f : String → Value → Value) :
    Binds parameters (List.zipWith f parameters positional)
      (named.map fun entry => (entry.1, f entry.1 entry.2)) (List.zipWith f parameters values) := by
  refine ⟨?_, ?_, ?_⟩
  · rw [List.length_zipWith]
    exact min_le_left ..
  · rw [List.length_zipWith, h.complete, min_self]
  · rw [zip_zipWith, zip_zipWith, ← List.map_append]
    exact h.once.map _

end Arguments

/-- A point, or something that yields exactly two items. -/
inductive Value.GivesPoint : Value → Point → Prop
  | point (p : Point) : GivesPoint p.toValue p
  | pair {v x y : Value} : v.items? = some [x, y] → GivesPoint v ⟨x, y⟩

/-- What a field of a sort holds when it is given a value. -/
inductive Parameter.Takes : FieldSort → Value → Parameter → Prop
  | point {v : Value} {p : Point} : v.GivesPoint p → Takes .point v (.point p)
  | number (v : Value) : Takes .number v (.number v)
  | flag (v : Value) : Takes .flag v (.flag v)

theorem Value.pair_eq_ok_iff {v x y : Value} : v.pair = .ok (x, y) ↔ v.items? = some [x, y] := by
  unfold Value.pair
  split
  next h => simp [h, mishap]
  next h => simp [h]
  next items hne h =>
    rw [h]
    refine ⟨fun hpair => ?_, fun hitems => absurd (Option.some.inj hitems) (hne x y)⟩
    split_ifs at hpair <;> cases hpair

theorem Point.ofValue_eq_ok_iff {v : Value} {p : Point} :
    Point.ofValue v = .ok p ↔ v.GivesPoint p := by
  constructor
  · intro h
    unfold Point.ofValue at h
    split at h
    · obtain rfl := Except.ok.inj h
      exact .point ⟨_, _⟩
    · obtain ⟨⟨x, y⟩, hpair, h⟩ := bind_eq_ok.mp h
      obtain rfl := Except.ok.inj h
      exact .pair (Value.pair_eq_ok_iff.mp hpair)
  · rintro (p | h)
    · rfl
    · exact Point.ofValue_of_pair (Value.pair_eq_ok_iff.mpr h)

theorem Parameter.ofValue_eq_ok_iff {sort : FieldSort} {v : Value} {p : Parameter} :
    Parameter.ofValue sort v = .ok p ↔ Takes sort v p := by
  unfold Parameter.ofValue
  cases sort with
  | point =>
      rw [bind_pure_eq_ok]
      simp only [Point.ofValue_eq_ok_iff]
      constructor
      · rintro ⟨q, hq, rfl⟩
        exact .point hq
      · rintro ⟨hq⟩
        exact ⟨_, hq, rfl⟩
  | number | flag =>
      refine ⟨fun h => ?_, fun h => ?_⟩
      · obtain rfl := Except.ok.inj h
        constructor
      · cases h
        rfl

theorem Parameter.Takes.sort_eq {sort : FieldSort} {v : Value} {p : Parameter}
    (h : Takes sort v p) : p.sort = sort := by
  cases h <;> rfl

/-- A value for a field of a form: a pair given for a point is made a point, and everything else
stays as it is. -/
def Form.pointed (form : Form) (name : String) (v : Value) : Value :=
  if (name, FieldSort.point) ∈ form.fields then
    match Point.ofValue v with
    | .ok p => p.toValue
    | .error _ => v
  else v

namespace Command

variable {form : Form} {positional values : List Value} {named : List (String × Value)}
  {c : Command}

/-- A command of a form whose fields are what the values give, in order. -/
structure Holds (form : Form) (values : List Value) (c : Command) : Prop where
  form_eq : c.form = form
  takes : List.Forall₂ (fun entry p => Parameter.Takes entry.1.2 entry.2 p)
    (form.fields.zip values) c.parameters

theorem receiver_not_mem_fieldNames (form : Form) : Arguments.receiver ∉ form.fieldNames := by
  obtain ⟨kind, relative⟩ := form
  cases kind <;> simp [Form.fieldNames, Form.fields, Kind.fields, Arguments.receiver]

theorem bind_fieldNames_eq_ok_iff {callee : String} :
    Arguments.bind callee form.fieldNames positional named = .ok values ↔
      Arguments.Binds form.fieldNames positional named values :=
  Arguments.bind_eq_ok_iff (nodup_fieldNames form) (receiver_not_mem_fieldNames form)

theorem values_unique {values' : List Value}
    (h : Arguments.Binds form.fieldNames positional named values)
    (h' : Arguments.Binds form.fieldNames positional named values') : values = values' := by
  have hbind : Arguments.bind form.name form.fieldNames positional named = .ok values :=
    bind_fieldNames_eq_ok_iff.mpr h
  rw [bind_fieldNames_eq_ok_iff.mpr h', Except.ok.injEq] at hbind
  exact hbind.symm

theorem parametersOf_eq_ok_iff {ps : List Parameter} :
    parametersOf form values = .ok ps ↔
      List.Forall₂ (fun entry p => Parameter.Takes entry.1.2 entry.2 p)
        (form.fields.zip values) ps := by
  unfold parametersOf
  rw [mapM_eq_ok]
  simp only [Parameter.ofValue_eq_ok_iff]

theorem construct_eq_ok_iff :
    construct form positional named = .ok c ↔
      ∃ values, Arguments.Binds form.fieldNames positional named values ∧ Holds form values c := by
  unfold construct
  rw [bind_eq_ok]
  simp only [bind_fieldNames_eq_ok_iff, bind_eq_ok, parametersOf_eq_ok_iff]
  refine exists_congr fun values => and_congr_right fun _ => ⟨?_, fun h => ?_⟩
  · rintro ⟨ps, hps, h⟩
    split at h
    next d hd =>
      obtain rfl := Except.ok.inj h
      obtain ⟨hform, rfl⟩ := form_parameters_of_ofParameters? hd
      exact ⟨hform, hps⟩
    next => cases h
  · refine ⟨c.parameters, h.takes, ?_⟩
    rw [← h.form_eq, ofParameters?_parameters]
    rfl

/-- Binding the same values in another way builds the same command, or fails alike. -/
theorem construct_eq_of_binds (h : Arguments.Binds form.fieldNames positional named values) :
    construct form positional named = construct form values [] := by
  unfold construct
  rw [bind_fieldNames_eq_ok_iff.mpr h, bind_fieldNames_eq_ok_iff.mpr h.byPosition]

theorem sorts_of_takes {entries : List ((String × FieldSort) × Value)} {ps : List Parameter}
    (h : List.Forall₂ (fun entry p => Parameter.Takes entry.1.2 entry.2 p) entries ps) :
    ps.map Parameter.sort = (entries.map Prod.fst).map Prod.snd := by
  induction h with
  | nil => rfl
  | cons hp _ ih => rw [List.map_cons, ih, hp.sort_eq, List.map_cons, List.map_cons]

theorem exists_holds_iff (hlength : values.length = form.fieldNames.length) :
    (∃ c, Holds form values c) ↔
      List.Forall₂ (fun field v => field.2 = .point → ∃ p, v.GivesPoint p) form.fields values := by
  have hfields : form.fields.length = values.length := by
    rw [hlength, Form.fieldNames, List.length_map]
  constructor
  · rintro ⟨c, hc⟩
    refine List.forall₂_iff_zip.mpr ⟨hfields, fun {field v} hmem hpoint => ?_⟩
    obtain ⟨p, -, hp⟩ := exists_left_of_forall₂ hc.takes.flip _ hmem
    rw [hpoint] at hp
    obtain ⟨hp⟩ := hp
    exact ⟨_, hp⟩
  · intro h
    have hentry : ∀ entry ∈ form.fields.zip values,
        ∃ p, Parameter.Takes entry.1.2 entry.2 p := by
      rintro ⟨⟨name, sort⟩, v⟩ hmem
      cases sort with
      | point =>
          obtain ⟨p, hp⟩ := List.forall₂_zip h hmem rfl
          exact ⟨_, .point hp⟩
      | number => exact ⟨_, .number v⟩
      | flag => exact ⟨_, .flag v⟩
    obtain ⟨ps, hps⟩ := exists_forall₂ hentry
    have hsorts : ps.map Parameter.sort = form.fields.map Prod.snd := by
      rw [sorts_of_takes hps, List.map_fst_zip hfields.le]
    obtain ⟨shape, hshape⟩ := Shape.exists_ofParameters? hsorts
    have hc : ofParameters? form ps = some ⟨form.relative, shape⟩ := by
      unfold ofParameters?
      rw [hshape]
      rfl
    obtain ⟨hform, hparameters⟩ := form_parameters_of_ofParameters? hc
    exact ⟨_, hform, hparameters ▸ hps⟩

theorem sort_eq_of_mem {name : String} {sort sort' : FieldSort} (h : (name, sort) ∈ form.fields)
    (h' : (name, sort') ∈ form.fields) : sort = sort' :=
  congrArg Prod.snd (List.inj_on_of_nodup_map (nodup_fieldNames form) h h' rfl)

theorem ofValue_pointed {field : String × FieldSort} (hfield : field ∈ form.fields) (v : Value) :
    Parameter.ofValue field.2 (form.pointed field.1 v) = Parameter.ofValue field.2 v := by
  obtain ⟨name, sort⟩ := field
  unfold Form.pointed
  split_ifs with hpoint
  · obtain rfl := sort_eq_of_mem hpoint hfield
    split
    next p hp =>
      have hself : Point.ofValue p.toValue = .ok p := Point.ofValue_eq_ok_iff.mpr (.point p)
      simp only [Parameter.ofValue, hp, hself]
    next => rfl
  · rfl

theorem parametersOf_pointed (form : Form) (values : List Value) :
    parametersOf form (List.zipWith form.pointed form.fieldNames values) =
      parametersOf form values := by
  unfold parametersOf Form.fieldNames
  rw [List.zipWith_map_left, Arguments.zip_zipWith, List.mapM_map]
  exact mapM_congr fun entry hentry => ofValue_pointed (List.of_mem_zip hentry).1 entry.2

theorem construct_pointed (h : Arguments.Binds form.fieldNames positional named values) :
    construct form (List.zipWith form.pointed form.fieldNames positional)
        (named.map fun entry => (entry.1, form.pointed entry.1 entry.2)) =
      construct form positional named := by
  unfold construct
  rw [bind_fieldNames_eq_ok_iff.mpr h, bind_fieldNames_eq_ok_iff.mpr (h.change form.pointed)]
  simp only [bind, Except.bind, parametersOf_pointed]

/-- A command is built exactly when every field is bound once, nothing else is passed, and what is
bound to a point field is a point or yields two items. It then holds that point in the field and
every other value unchanged. The same values by position build the same command, and so do the
arguments with their points made beforehand. -/
theorem constructs_iff_bound_once (form : Form) (positional : List Value)
    (named : List (String × Value)) :
    ((∃ c, construct form positional named = .ok c) ↔
      ∃ values, Arguments.Binds form.fieldNames positional named values ∧
        List.Forall₂ (fun field v => field.2 = .point → ∃ p, v.GivesPoint p)
          form.fields values) ∧
    ∀ values, Arguments.Binds form.fieldNames positional named values →
      (∀ c, construct form positional named = .ok c ↔ Holds form values c) ∧
      construct form values [] = construct form positional named ∧
      construct form (List.zipWith form.pointed form.fieldNames positional)
          (named.map fun entry => (entry.1, form.pointed entry.1 entry.2)) =
        construct form positional named := by
  constructor
  · simp only [construct_eq_ok_iff]
    rw [exists_comm]
    refine exists_congr fun values => ?_
    rw [exists_and_left]
    exact and_congr_right fun h => exists_holds_iff h.complete
  · intro values h
    refine ⟨fun c => ?_, (construct_eq_of_binds h).symm, construct_pointed h⟩
    rw [construct_eq_ok_iff]
    constructor
    · rintro ⟨values', h', hc⟩
      rwa [values_unique h h']
    · intro hc
      exact ⟨values, h, hc⟩

/-- The radii of a relative arc as a text of two letters, and its end as a record of two keys. -/
def looseArc : List (String × Value) :=
  [("radii", .text "rs"), ("angle", .float .nan), ("large_arc", .null), ("sweep", .text "no"),
    ("end", .record [("y", .int 1), ("x", .int 2)])]

theorem looseArc_constructs :
    Arguments.Binds (Form.mk .arcTo true).fieldNames [.text "rs", .float .nan]
        (looseArc.reverse.take 3) (looseArc.map Prod.snd) ∧
      construct ⟨.arcTo, true⟩ [.text "rs", .float .nan] (looseArc.reverse.take 3) =
        .ok ⟨true, .arcTo ⟨.text "r", .text "s"⟩ (.float .nan) .null (.text "no")
          ⟨.text "y", .text "x"⟩⟩ := by
  have hbinds : Arguments.Binds (Form.mk .arcTo true).fieldNames [.text "rs", .float .nan]
      (looseArc.reverse.take 3) (looseArc.map Prod.snd) :=
    ⟨by decide, rfl, .cons _ (.cons _ (List.reverse_perm (looseArc.drop 2)))⟩
  refine ⟨hbinds, (((constructs_iff_bound_once ..).2 _ hbinds).1 _).mpr ⟨rfl, ?_⟩⟩
  exact .cons (.point (.pair rfl)) (.cons (.number _) (.cons (.flag _) (.cons (.flag _)
    (.cons (.point (.pair rfl)) .nil))))

end Command

end VectorPath
