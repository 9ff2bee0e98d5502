import Mathlib.Data.List.Induction
import Mathlib.Data.Nat.ModEq
import VectorPath.Command.Basic
import VectorPath.Proofs.Number.Nearest
import VectorPath.Value.Hash

/-!
# Points and commands as elements of a set

Two points, or two commands, are equal exactly when they are of the same form and the numbers in
them stand for the same, one by one; so equality is an equivalence, whatever the mixture of truth
values, integers and binary64 numbers. Equal numbers have one hash, hence equal points and commands
have, and a set that compares only values of one hash has as many elements as there are positions
with a new value.
-/

namespace VectorPath

namespace Number

theorem two_pow_modEq (k : ℕ) : 2 ^ k ≡ 2 ^ (k % 61) [MOD hashModulus] := by
  have hone : 2 ^ 61 ≡ 1 [MOD hashModulus] := by decide
  calc 2 ^ k = (2 ^ 61) ^ (k / 61) * 2 ^ (k % 61) := by rw [← pow_mul, ← pow_add, Nat.div_add_mod]
    _ ≡ 1 ^ (k / 61) * 2 ^ (k % 61) [MOD hashModulus] := (hone.pow _).mul_right _
    _ = 2 ^ (k % 61) := by rw [one_pow, one_mul]

theorem residue_shift (n : ℕ) (e : ℤ) (d : ℕ) : residue (n * 2 ^ d) e = residue n (e + d) := by
  have hexponent : (d + (e % 61).toNat) % 61 = ((e + d) % 61).toNat := by omega
  have h := (two_pow_modEq (d + (e % 61).toNat)).mul_left n
  rw [hexponent, pow_add, ← mul_assoc] at h
  exact h

theorem residue_eq_of_value {m n : ℕ} {e f : ℤ} (h : (m : ℚ) * 2 ^ e = n * 2 ^ f) :
    residue m e = residue n f := by
  wlog hle : e ≤ f generalizing m n e f
  · exact (this h.symm (le_of_not_ge hle)).symm
  obtain ⟨d, rfl⟩ := Int.le.dest hle
  have hm : (m : ℚ) = (n * 2 ^ d : ℕ) := by
    rw [zpow_add₀ two_ne_zero, mul_comm ((2 : ℚ) ^ e), ← mul_assoc, zpow_natCast] at h
    have hpower : (2 : ℚ) ^ e ≠ 0 := (two_zpow_pos e).ne'
    push_cast
    exact mul_right_cancel₀ hpower h
  rw [Nat.cast_injective hm, residue_shift]

theorem signed_residue_eq {s t : Bool} {m n : ℕ} {e f : ℤ}
    (h : (Binary64.signed s m : ℚ) * 2 ^ e = Binary64.signed t n * 2 ^ f) :
    Binary64.signed s (residue m e) = Binary64.signed t (residue n f) := by
  rw [Binary64.signed_cast_mul, Binary64.signed_cast_mul] at h
  have hvalue : (m : ℚ) * 2 ^ e = n * 2 ^ f ∧ (s = t ∨ n = 0) := by
    by_cases hst : s = t
    · rw [hst, Binary64.withSign_inj] at h
      exact ⟨h, .inl hst⟩
    · -- Numbers of different signs are equal only when both are zero.
      have hm : (0 : ℚ) ≤ m * 2 ^ e := by positivity
      have hn : (0 : ℚ) ≤ n * 2 ^ f := by positivity
      have hsum := Binary64.withSign_other hst hm hn
      rw [h, sub_self, abs_zero] at hsum
      have hzero : (n : ℚ) * 2 ^ f = 0 := by linarith
      refine ⟨by linarith, .inr ?_⟩
      exact Nat.cast_eq_zero.mp ((mul_eq_zero.mp hzero).resolve_right (two_zpow_pos f).ne')
  obtain ⟨hvalue, rfl | rfl⟩ := hvalue
  · rw [residue_eq_of_value hvalue]
  · have hzero : residue 0 f = 0 := by rw [residue, Nat.zero_mul, Nat.zero_mod]
    rw [residue_eq_of_value hvalue, hzero, (Binary64.signed_eq_zero_iff s 0).mpr rfl,
      (Binary64.signed_eq_zero_iff t 0).mpr rfl]

theorem sameValue_comm (a b : Number) : a.sameValue b = b.sameValue a := by
  rw [Bool.eq_iff_iff, sameValue_iff, sameValue_iff]
  constructor <;>
  · rintro ⟨h, hnan⟩
    exact ⟨h.symm, h ▸ hnan⟩

theorem exact_int (i : ℤ) :
    (int i).exact = .rational (Binary64.signed (i < 0) i.natAbs * 2 ^ (0 : ℤ)) := by
  rw [Binary64.signed_natAbs, zpow_zero, mul_one]
  rfl

/-- The hash of a number that stands for a rational comes from any way to write the rational. -/
theorem hash_of_exact {a : Number} {s : Bool} {m : ℕ} {e : ℤ}
    (h : a.exact = .rational (Binary64.signed s m * 2 ^ e)) :
    a.hash = withoutMinusOne (Binary64.signed s (residue m e)) := by
  rcases a with i | _ | t | ⟨t, n, f, hcanonical⟩
  · rw [← signed_residue_eq (Extended.rational.inj ((exact_int i).symm.trans h))]
    rfl
  · cases h
  · cases h
  · rw [← signed_residue_eq (Extended.rational.inj h)]
    rfl

/-- Numbers that stand for the same have one hash. -/
theorem hash_eq_of_exact {a b : Number} (h : a.exact = b.exact) : a.hash = b.hash := by
  rcases b with i | _ | s | ⟨s, m, e, hcanonical⟩
  · rw [hash_of_exact (exact_int i), hash_of_exact (h.trans (exact_int i))]
  · rw [(exact_eq_nan_iff a).mp h]
  · rcases a with i | _ | t | ⟨t, m, e, hcanonical⟩ <;> cases h
    rfl
  · rw [hash_of_exact h, hash_of_exact rfl]

end Number

namespace Value

/-- What a number or truth value stands for. -/
def exactValue (v : Value) : Option Extended := v.number?.map Number.exact

/-- A truth value, an integer or a binary64 number other than `nan`. -/
def IsExact (v : Value) : Prop := ∃ n, v.number? = some n ∧ n ≠ .float .nan

variable {v w : Value} {m n : Number}

theorem sameValue_of_number? (hv : v.number? = some m) (hw : w.number? = some n) :
    sameValue v w = m.sameValue n := by
  cases v <;> simp only [number?, Option.some.injEq, reduceCtorEq] at hv <;>
    cases w <;> simp only [number?, Option.some.injEq, reduceCtorEq] at hw
  all_goals
    subst hv hw
    rw [sameValue]
  case bool.bool b c => cases b <;> cases c <;> rfl
  case bool.number => rw [Number.sameValue_comm]

theorem IsExact.sameValue_iff (hv : v.IsExact) (hw : w.IsExact) :
    sameValue v w = true ↔ v.exactValue = w.exactValue := by
  obtain ⟨m, hm, hnan⟩ := hv
  obtain ⟨n, hn, -⟩ := hw
  rw [sameValue_of_number? hm hn, Number.sameValue_iff, ne_eq, Number.exact_eq_nan_iff, exactValue,
    exactValue, hm, hn, Option.map_some, Option.map_some, Option.some_inj]
  exact and_iff_left hnan

theorem hash_of_number? (h : Hashing) (hv : v.number? = some n) : h.hash v = n.hash := by
  cases v <;> simp only [number?, Option.some.injEq, reduceCtorEq] at hv
  all_goals
    subst hv
    rw [Hashing.hash]

theorem IsExact.hash_eq (h : Hashing) (hv : v.IsExact) (heq : v.exactValue = w.exactValue) :
    h.hash v = h.hash w := by
  obtain ⟨m, hm, -⟩ := hv
  rw [exactValue, exactValue, hm, Option.map_some, eq_comm, Option.map_eq_some_iff] at heq
  obtain ⟨n, hn, hexact⟩ := heq
  rw [hash_of_number? h hm, hash_of_number? h hn, Number.hash_eq_of_exact hexact]

end Value

namespace Parameter

/-- The coordinates of a point, or the value of any other field. -/
def scalars : Parameter → List Value
  | .point p => [p.x, p.y]
  | .number v => [v]
  | .flag v => [v]

variable {p q : Parameter} {ps qs : List Parameter}

theorem length_scalars (h : p.sort = q.sort) : p.scalars.length = q.scalars.length := by
  cases p <;> cases q <;> simp [sort] at h <;> rfl

theorem sameValue_iff (h : p.sort = q.sort) (hp : ∀ v ∈ p.scalars, v.IsExact)
    (hq : ∀ v ∈ q.scalars, v.IsExact) :
    Value.sameValue p.toValue q.toValue = true ↔
      p.scalars.map Value.exactValue = q.scalars.map Value.exactValue := by
  cases p <;> cases q <;> simp only [sort, reduceCtorEq] at h
  case point.point p q =>
    simp only [scalars, List.forall_mem_cons] at hp hq
    simp only [toValue, Point.toValue, Value.sameValue, Bool.and_eq_true, scalars, List.map_cons,
      List.map_nil, List.cons.injEq, and_true, hp.1.sameValue_iff hq.1,
      hp.2.1.sameValue_iff hq.2.1]
  case number.number v w | flag.flag v w =>
    simp only [scalars, List.forall_mem_cons] at hp hq
    simp only [toValue, hp.1.sameValue_iff hq.1, scalars, List.map_cons, List.map_nil,
      List.cons.injEq, and_true]

theorem hash_eq (h : Hashing) (hsort : p.sort = q.sort) (hp : ∀ v ∈ p.scalars, v.IsExact)
    (hscalars : p.scalars.map Value.exactValue = q.scalars.map Value.exactValue) :
    h.hash p.toValue = h.hash q.toValue := by
  cases p <;> cases q <;> simp only [sort, reduceCtorEq] at hsort
  case point.point p q =>
    simp only [scalars, List.forall_mem_cons, List.map_cons, List.map_nil, List.cons.injEq,
      and_true] at hp hscalars
    simp only [toValue, Point.toValue, Hashing.hash, hp.1.hash_eq h hscalars.1,
      hp.2.1.hash_eq h hscalars.2]
  case number.number v w | flag.flag v w =>
    simp only [scalars, List.forall_mem_cons, List.map_cons, List.map_nil, List.cons.injEq,
      and_true] at hp hscalars
    exact hp.1.hash_eq h hscalars

theorem scalars_append_iff (h : p.sort = q.sort) {vs ws : List Value} :
    (p.scalars ++ vs).map Value.exactValue = (q.scalars ++ ws).map Value.exactValue ↔
      p.scalars.map Value.exactValue = q.scalars.map Value.exactValue ∧
        vs.map Value.exactValue = ws.map Value.exactValue := by
  have hlength :
      (p.scalars.map Value.exactValue).length = (q.scalars.map Value.exactValue).length := by
    rw [List.length_map, List.length_map, length_scalars h]
  rw [List.map_append, List.map_append]
  constructor
  · exact fun heq => List.append_inj heq hlength
  · rintro ⟨hhead, htail⟩
    rw [hhead, htail]

/-- Fields of the same sorts are compared one by one. -/
theorem sameAll_iff (h : ps.map sort = qs.map sort) (hps : ∀ v ∈ ps.flatMap scalars, v.IsExact)
    (hqs : ∀ v ∈ qs.flatMap scalars, v.IsExact) :
    Value.sameAll (ps.map toValue) (qs.map toValue) = true ↔
      (ps.flatMap scalars).map Value.exactValue = (qs.flatMap scalars).map Value.exactValue := by
  induction ps generalizing qs with
  | nil =>
      obtain rfl := List.map_eq_nil_iff.mp h.symm
      simp [Value.sameAll]
  | cons p ps ih =>
      obtain ⟨q, qs, rfl, hpq, hrest⟩ := List.map_eq_cons_iff.mp h.symm
      rw [List.flatMap_cons, List.forall_mem_append] at hps hqs
      rw [List.flatMap_cons, List.flatMap_cons, scalars_append_iff hpq.symm, List.map_cons,
        List.map_cons, Value.sameAll, Bool.and_eq_true, sameValue_iff hpq.symm hps.1 hqs.1,
        ih hrest.symm hps.2 hqs.2]

theorem hashes_eq (h : Hashing) (hsorts : ps.map sort = qs.map sort)
    (hps : ∀ v ∈ ps.flatMap scalars, v.IsExact)
    (hscalars :
      (ps.flatMap scalars).map Value.exactValue = (qs.flatMap scalars).map Value.exactValue) :
    h.hashes (ps.map toValue) = h.hashes (qs.map toValue) := by
  induction ps generalizing qs with
  | nil =>
      obtain rfl := List.map_eq_nil_iff.mp hsorts.symm
      rfl
  | cons p ps ih =>
      obtain ⟨q, qs, rfl, hpq, hrest⟩ := List.map_eq_cons_iff.mp hsorts.symm
      rw [List.flatMap_cons, List.forall_mem_append] at hps
      rw [List.flatMap_cons, List.flatMap_cons, scalars_append_iff hpq.symm] at hscalars
      rw [List.map_cons, List.map_cons, Hashing.hashes, Hashing.hashes,
        hash_eq h hpq.symm hps.1 hscalars.1, ih hrest.symm hps.2 hscalars.2]

end Parameter

inductive Figure
  | point (point : Point)
  | command (command : Command)

namespace Figure

def toValue : Figure → Value
  | .point p => p.toValue
  | .command c => c.toValue

def form? : Figure → Option Form
  | .point _ => none
  | .command c => some c.form

/-- The coordinates, numbers and flags in order. -/
def scalars : Figure → List Value
  | .point p => (Parameter.point p).scalars
  | .command c => c.parameters.flatMap Parameter.scalars

/-- Every coordinate, number and flag is a truth value, an integer or a binary64 number other than
`nan`. -/
def IsExact (a : Figure) : Prop := ∀ v ∈ a.scalars, v.IsExact

/-- The form of a figure, and what its scalars stand for. -/
def identity (a : Figure) : Option Form × List (Option Extended) :=
  (a.form?, a.scalars.map Value.exactValue)

def Equals (a b : Figure) : Prop := Value.sameValue a.toValue b.toValue = true

variable {a b c : Figure}

theorem sorts_of_form {c d : Command} (h : c.form = d.form) :
    c.parameters.map Parameter.sort = d.parameters.map Parameter.sort := by
  rw [Command.parameters, Shape.parameters_sorts, Command.parameters, Shape.parameters_sorts]
  exact congrArg (fun form => form.kind.fields.map Prod.snd) h

/-- Figures are equal exactly when they are of one form and their scalars stand for the same. -/
theorem equals_iff (ha : a.IsExact) (hb : b.IsExact) : a.Equals b ↔ a.identity = b.identity := by
  unfold Equals identity
  rw [Prod.mk.injEq]
  cases a with
  | point p =>
      cases b with
      | point q =>
          rw [form?, form?, eq_self, true_and]
          exact Parameter.sameValue_iff (p := .point p) (q := .point q) rfl ha hb
      | command d => simp [form?, toValue, Point.toValue, Command.toValue, Value.sameValue]
  | command c =>
      cases b with
      | point q => simp [form?, toValue, Point.toValue, Command.toValue, Value.sameValue]
      | command d =>
          simp only [toValue, Command.toValue, Value.sameValue, form?, Bool.and_eq_true,
            beq_iff_eq, Option.some_inj]
          exact and_congr_right fun hform => Parameter.sameAll_iff (sorts_of_form hform) ha hb

theorem equals_refl (ha : a.IsExact) : a.Equals a := (equals_iff ha ha).mpr rfl

theorem equals_symm (ha : a.IsExact) (hb : b.IsExact) (h : a.Equals b) : b.Equals a :=
  (equals_iff hb ha).mpr ((equals_iff ha hb).mp h).symm

theorem equals_trans (ha : a.IsExact) (hb : b.IsExact) (hc : c.IsExact) (h : a.Equals b)
    (h' : b.Equals c) : a.Equals c :=
  (equals_iff ha hc).mpr (((equals_iff ha hb).mp h).trans ((equals_iff hb hc).mp h'))

/-- Equal figures have one hash, however the hashes of fields are joined. -/
theorem hash_eq (h : Hashing) (ha : a.IsExact) (hb : b.IsExact) (heq : a.Equals b) :
    h.hash a.toValue = h.hash b.toValue := by
  obtain ⟨hform, hscalars⟩ := Prod.mk.inj ((equals_iff ha hb).mp heq)
  cases a with
  | point p =>
      cases b with
      | point q => exact Parameter.hash_eq h (p := .point p) (q := .point q) rfl ha hscalars
      | command d => cases hform
  | command c =>
      cases b with
      | point q => cases hform
      | command d =>
          have hsorts := sorts_of_form (Option.some.inj hform)
          simp only [toValue, Command.toValue, Hashing.hash]
          rw [Parameter.hashes_eq h hsorts ha hscalars]

end Figure

namespace Value

/-- The number of positions whose value equals no value at an earlier position. -/
def newPositions (values : List Value) : ℕ :=
  values.zipIdx.countP fun entry => !(values.take entry.2).any fun u => sameValue u entry.1

variable {values : List Value} {u v : Value}

theorem newPositions_concat (values : List Value) (v : Value) :
    newPositions (values ++ [v]) =
      newPositions values + if values.any fun u => sameValue u v then 0 else 1 := by
  have hearlier : values.zipIdx.countP (fun entry =>
      !((values ++ [v]).take entry.2).any fun u => sameValue u entry.1) = newPositions values := by
    refine List.countP_congr fun entry hentry => ?_
    have hi : entry.2 < values.length := List.snd_lt_of_mem_zipIdx hentry
    rw [List.take_append_of_le_length hi.le]
  rw [newPositions, List.zipIdx_append, List.countP_append, hearlier, List.zipIdx_singleton,
    List.countP_singleton, Nat.zero_add, List.take_left]
  cases values.any fun u => sameValue u v <;> rfl

theorem distinct_concat (values : List Value) (v : Value) :
    distinct (values ++ [v]) = addNew (distinct values) v := by
  rw [distinct, List.foldl_append]
  rfl

theorem mem_of_mem_distinct (h : u ∈ distinct values) : u ∈ values := by
  induction values using List.reverseRecOn with
  | nil => simp [distinct] at h
  | append_singleton values v ih =>
      rw [distinct_concat, addNew] at h
      split_ifs at h
      · exact List.mem_append_left _ (ih h)
      · rcases List.mem_append.mp h with h | h
        · exact List.mem_append_left _ (ih h)
        · exact List.mem_append_right _ h

end Value

namespace Figure

variable {a b : Figure} {figures : List Figure}

theorem any_equals_iff :
    ((figures.map toValue).any fun u => Value.sameValue u b.toValue) = true ↔
      ∃ a ∈ figures, a.Equals b := by
  simp [Equals]

/-- A figure equals an element of the set exactly when it equals one of the values put into it. -/
theorem any_distinct (hfigures : ∀ a ∈ figures, a.IsExact) (hb : b.IsExact) :
    ((Value.distinct (figures.map toValue)).any fun u => Value.sameValue u b.toValue) =
      (figures.map toValue).any fun u => Value.sameValue u b.toValue := by
  induction figures using List.reverseRecOn generalizing b with
  | nil => rfl
  | append_singleton figures a ih =>
      rw [List.forall_mem_append, List.forall_mem_singleton] at hfigures
      obtain ⟨hfigures, ha⟩ := hfigures
      rw [List.map_append, List.map_singleton, Value.distinct_concat, Value.addNew, List.any_append,
        ih hfigures ha]
      split_ifs with hold
      · -- The element of the set that equals the new value stands for it.
        obtain ⟨g, hg, hga⟩ := any_equals_iff.mp hold
        rw [ih hfigures hb, List.any_cons, List.any_nil, Bool.or_false, Bool.eq_iff_iff,
          Bool.or_eq_true]
        refine ⟨.inl, ?_⟩
        rintro (h | h)
        · exact h
        · exact any_equals_iff.mpr ⟨g, hg, equals_trans (hfigures g hg) ha hb hga h⟩
      · rw [List.any_append, ih hfigures hb]

theorem distinctCount_eq (hfigures : ∀ a ∈ figures, a.IsExact) :
    Value.distinctCount (figures.map toValue) = Value.newPositions (figures.map toValue) := by
  unfold Value.distinctCount
  induction figures using List.reverseRecOn with
  | nil => rfl
  | append_singleton figures a ih =>
      rw [List.forall_mem_append, List.forall_mem_singleton] at hfigures
      obtain ⟨hfigures, ha⟩ := hfigures
      rw [List.map_append, List.map_singleton, Value.distinct_concat, Value.newPositions_concat,
        Value.addNew, any_distinct hfigures ha, ← ih hfigures]
      split_ifs
      · rfl
      · rw [List.length_append, List.length_singleton]

/-- Looking only among the values of the same hash misses no equal one. -/
theorem distinct_eq (h : Hashing) (hfigures : ∀ a ∈ figures, a.IsExact) :
    h.distinct (figures.map toValue) = Value.distinct (figures.map toValue) := by
  induction figures using List.reverseRecOn with
  | nil => rfl
  | append_singleton figures a ih =>
      rw [List.forall_mem_append, List.forall_mem_singleton] at hfigures
      obtain ⟨hfigures, ha⟩ := hfigures
      have hholds : h.holds (Value.distinct (figures.map toValue)) a.toValue =
          (Value.distinct (figures.map toValue)).any fun u => Value.sameValue u a.toValue := by
        unfold Hashing.holds
        rw [Bool.eq_iff_iff, List.any_eq_true, List.any_eq_true]
        refine exists_congr fun u => and_congr_right fun hu => ?_
        obtain ⟨b, hb, rfl⟩ := List.mem_map.mp (Value.mem_of_mem_distinct hu)
        rw [Bool.and_eq_true, beq_iff_eq]
        exact and_iff_right_of_imp fun heq => hash_eq h (hfigures b hb) ha heq
      rw [List.map_append, List.map_singleton, Value.distinct_concat, Value.addNew, ← hholds,
        ← ih hfigures, Hashing.distinct, List.foldl_append]
      rfl

/-- Equality of points and commands without `nan` is an equivalence: it holds exactly between those
of one form whose scalars stand for the same, one by one. Equal ones have one hash, and a set of
them has as many elements as there are positions whose value is new. -/
theorem equality_is_identity :
    (∀ a : Figure, a.IsExact → a.Equals a) ∧
    (∀ a b : Figure, a.IsExact → b.IsExact → a.Equals b → b.Equals a) ∧
    (∀ a b c : Figure, a.IsExact → b.IsExact → c.IsExact → a.Equals b → b.Equals c →
      a.Equals c) ∧
    (∀ a b : Figure, a.IsExact → b.IsExact →
      (a.Equals b ↔
        a.form? = b.form? ∧ a.scalars.map Value.exactValue = b.scalars.map Value.exactValue)) ∧
    ∀ (h : Hashing) (figures : List Figure), (∀ a ∈ figures, a.IsExact) →
      (∀ a ∈ figures, ∀ b ∈ figures, a.Equals b → h.hash a.toValue = h.hash b.toValue) ∧
      h.distinct (figures.map toValue) = Value.distinct (figures.map toValue) ∧
      Value.distinctCount (figures.map toValue) =
        Value.newPositions (figures.map toValue) := by
  refine ⟨fun a => equals_refl, fun a b => equals_symm, fun a b c => equals_trans, ?_, ?_⟩
  · intro a b ha hb
    rw [equals_iff ha hb, identity, identity, Prod.mk.injEq]
  · intro h figures hfigures
    refine ⟨?_, distinct_eq h hfigures, distinctCount_eq hfigures⟩
    exact fun a ha b hb => hash_eq h (hfigures a ha) (hfigures b hb)

/-- The least power of two from which on not every integer is a binary64 number. -/
def sparse : Binary64 := .finite false (2 ^ 52) 1 (by decide)

/-- Points and lines of which the second equals the first, the third is one off, and the last equals
the fourth. -/
def mixedFigures : List Figure :=
  [.point ⟨.bool true, .int (2 ^ 53)⟩, .point ⟨.int 1, .float sparse⟩,
    .point ⟨.int 1, .int (2 ^ 53 + 1)⟩, .command ⟨false, .lineTo ⟨.bool true, .int (2 ^ 53)⟩⟩,
    .command ⟨true, .lineTo ⟨.bool true, .int (2 ^ 53)⟩⟩,
    .command ⟨false, .lineTo ⟨.int 1, .float sparse⟩⟩]

/-- Hashes of fields joined by their sum. -/
def summing : Hashing := ⟨List.sum, fun _ => 0⟩

theorem mixedFigures_identity :
    (∀ a ∈ mixedFigures, a.IsExact) ∧ Value.distinctCount (mixedFigures.map toValue) = 4 ∧
      (summing.distinct (mixedFigures.map toValue)).length = 4 := by
  have hexact : ∀ a ∈ mixedFigures, a.IsExact := by
    simp [mixedFigures, IsExact, scalars, Parameter.scalars, Command.parameters, Shape.parameters,
      Value.IsExact, Value.number?, Value.int, Value.float, sparse]
  obtain ⟨-, hset, hcount⟩ := equality_is_identity.2.2.2.2 summing mixedFigures hexact
  have hnew : Value.newPositions (mixedFigures.map toValue) = 4 := by decide +kernel
  refine ⟨hexact, hcount.trans hnew, ?_⟩
  rw [hset]
  exact hcount.trans hnew

end Figure

end VectorPath
