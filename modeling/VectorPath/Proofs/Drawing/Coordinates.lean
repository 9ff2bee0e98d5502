import VectorPath.Drawing.Curve
import VectorPath.Drawing.Matrix
import VectorPath.Proofs.Number.Bounded

/-!
# Bounded points and matrices

Midpoints of bounded points exist, and bounded matrices can be composed and applied to them. The
entries of a matrix gain two bits with every level of composition, and its offset stays within a
fixed number of bits above the entries, so the bounds hold for hundreds of levels.
-/

namespace VectorPath

inductive Value.BoundedPair (bits : ℕ) : Value → Prop
  | tuple {x y : Value} : x.Bounded bits → y.Bounded bits → BoundedPair bits (.tuple [x, y])

theorem Value.BoundedPair.mono {a b : ℕ} {p : Value} (h : p.BoundedPair a) (hab : a ≤ b) :
    p.BoundedPair b := by
  cases h with
  | tuple hx hy => exact .tuple (hx.mono hab) (hy.mono hab)

namespace Curve

variable {bits : ℕ} {p q x y : Value}

theorem middle_bounded (hx : x.Bounded bits) (hy : y.Bounded bits) (hbits : bits < 999) :
    SucceedsWith (Value.Bounded (bits + 1)) (middle x y) := by
  have hhalf : half.Bounded 0 := .number trivial
  apply (Value.add_bounded hx hy (by omega)).bind
  intro sum hsum
  rw [← Nat.zero_add (bits + 1)]
  exact Value.mul_bounded hhalf hsum (by omega) (by omega)

theorem midpoint_bounded (hp : p.BoundedPair bits) (hq : q.BoundedPair bits) (hbits : bits < 999) :
    SucceedsWith (Value.BoundedPair (bits + 1)) (midpoint p q) := by
  cases hp with
  | tuple hx hy =>
      cases hq with
      | tuple hu hv =>
          apply (middle_bounded hx hu hbits).bind
          intro a ha
          apply (middle_bounded hy hv hbits).bind
          intro b hb
          exact succeedsWith_ok (.tuple ha hb)

def BoundedPieces (bits : ℕ) (pieces : List (Value × Value)) : Prop :=
  ∀ piece ∈ pieces, piece.1.BoundedPair bits ∧ piece.2.BoundedPair bits

theorem quadraticPieces_bounded {points : List Value} (h : ∀ p ∈ points, p.BoundedPair bits)
    (hbits : bits < 999) : SucceedsWith (BoundedPieces (bits + 1)) (quadraticPieces points) := by
  have hwider : ∀ p ∈ points, p.BoundedPair (bits + 1) := fun p hp => (h p hp).mono (by omega)
  fun_induction quadraticPieces points with
  | case1 p q r rest ih =>
      have hrest : ∀ s ∈ q :: r :: rest, s ∈ p :: q :: r :: rest := fun s hs =>
        List.mem_cons_of_mem p hs
      have hp : p ∈ p :: q :: r :: rest := List.mem_cons_self ..
      have hq : q ∈ q :: r :: rest := List.mem_cons_self ..
      apply (midpoint_bounded (h p hp) (h q (hrest q hq)) hbits).bind
      intro joint hjoint
      apply (ih (fun s hs => h s (hrest s hs)) fun s hs => hwider s (hrest s hs)).bind
      intro pieces hpieces
      exact succeedsWith_ok (List.forall_mem_cons.mpr ⟨⟨hwider p hp, hjoint⟩, hpieces⟩)
  | case2 p q =>
      have hp := hwider p (List.mem_cons_self ..)
      have hq := hwider q (List.mem_cons_of_mem p (List.mem_cons_self ..))
      exact succeedsWith_ok (List.forall_mem_singleton.mpr ⟨hp, hq⟩)
  | case3 => exact succeedsWith_ok (by simp [BoundedPieces])

end Curve

namespace Matrix

/-- The bits of an offset above those of the entries. -/
def offsetBits : ℕ := 33

structure Bounded (bits : ℕ) (m : Matrix) : Prop where
  a : m.a.Bounded bits
  b : m.b.Bounded bits
  c : m.c.Bounded bits
  d : m.d.Bounded bits
  e : m.e.Bounded (bits + offsetBits)
  f : m.f.Bounded (bits + offsetBits)

theorem Bounded.mono {a b : ℕ} {m : Matrix} (h : m.Bounded a) (hab : a ≤ b) : m.Bounded b :=
  ⟨h.a.mono hab, h.b.mono hab, h.c.mono hab, h.d.mono hab,
    h.e.mono (Nat.add_le_add_right hab _), h.f.mono (Nat.add_le_add_right hab _)⟩

/-- A matrix that is taken as a value and back is the same one. -/
theorem ofValue_toValue (m : Matrix) : ofValue m.toValue = .ok m := rfl

variable {k n bits : ℕ} {p q r x y : Value}

theorem dot_bounded (hp : p.Bounded k) (hx : x.Bounded n) (hq : q.Bounded k) (hy : y.Bounded n)
    (hbits : k + n ≤ 999) : SucceedsWith (Value.Bounded (k + n + 1)) (dot p x q y) := by
  apply (Value.mul_bounded hp hx (by omega) (by omega)).bind
  intro left hleft
  apply (Value.mul_bounded hq hy (by omega) (by omega)).bind
  intro right hright
  exact Value.add_bounded hleft hright hbits

theorem dotPlus_bounded (hp : p.Bounded k) (hx : x.Bounded n) (hq : q.Bounded k)
    (hy : y.Bounded n) (hr : r.Bounded (k + n + 1)) (hbits : k + n + 1 ≤ 999) :
    SucceedsWith (Value.Bounded (k + n + 2)) (dotPlus p x q y r) := by
  apply (dot_bounded hp hx hq hy (by omega)).bind
  intro sum hsum
  exact Value.add_bounded hsum hr hbits

/-- Numbers of 32 bits through a matrix gain the bits of its offset and one more. -/
theorem apply_bounded {m : Matrix} (hm : m.Bounded k) (hp : p.BoundedPair 32) (hk : k ≤ 960) :
    SucceedsWith (Value.BoundedPair (k + 34)) (m.apply p) := by
  cases hp with
  | tuple hx hy =>
      apply (dotPlus_bounded hm.a hx hm.c hy hm.e (by omega)).bind
      intro u hu
      apply (dotPlus_bounded hm.b hx hm.d hy hm.f (by omega)).bind
      intro v hv
      exact succeedsWith_ok (.tuple hu hv)

/-- The numbers of a matrix as fonts store it: entries of one bit and an offset of 32 bits. -/
inductive Stored : List Number → Prop
  | six {a b c d e f : Number} : a.Bounded 1 → b.Bounded 1 → c.Bounded 1 → d.Bounded 1 →
      e.Bounded 32 → f.Bounded 32 → Stored [a, b, c, d, e, f]

variable {entries : List Number}

theorem ofValue_stored (h : Stored entries) :
    SucceedsWith (Matrix.Bounded 1) (ofValue (.tuple (entries.map Value.number))) := by
  cases h with
  | six ha hb hc hd he hf =>
      exact succeedsWith_ok ⟨.number ha, .number hb, .number hc, .number hd,
        .number (he.mono (by decide)), .number (hf.mono (by decide))⟩

/-- Every level of composition adds two bits. -/
theorem compose_stored {m : Matrix} (hm : m.Bounded k) (h : Stored entries) (hk : k ≤ 960) :
    SucceedsWith (Matrix.Bounded (k + 2)) (m.compose (.tuple (entries.map Value.number))) := by
  have hentry : 1 + k + 1 ≤ k + 2 := by omega
  have hoffset : k + 32 + 2 ≤ k + 2 + offsetBits := by
    unfold offsetBits
    omega
  cases h with
  | six ha hb hc hd he hf =>
      apply (dot_bounded (.number ha) hm.a (.number hb) hm.c (by omega)).bind
      intro a' ha'
      apply (dot_bounded (.number ha) hm.b (.number hb) hm.d (by omega)).bind
      intro b' hb'
      apply (dot_bounded (.number hc) hm.a (.number hd) hm.c (by omega)).bind
      intro c' hc'
      apply (dot_bounded (.number hc) hm.b (.number hd) hm.d (by omega)).bind
      intro d' hd'
      apply (dotPlus_bounded hm.a (.number he) hm.c (.number hf) hm.e (by omega)).bind
      intro e' he'
      apply (dotPlus_bounded hm.b (.number he) hm.d (.number hf) hm.f (by omega)).bind
      intro f' hf'
      exact succeedsWith_ok ⟨ha'.mono hentry, hb'.mono hentry, hc'.mono hentry, hd'.mono hentry,
        he'.mono hoffset, hf'.mono hoffset⟩

end Matrix

end VectorPath
