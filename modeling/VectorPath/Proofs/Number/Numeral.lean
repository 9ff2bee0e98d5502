import Mathlib.Data.List.TakeWhile
import VectorPath.Number.Layout
import VectorPath.Number.Reading
import VectorPath.Proofs.Number.Shortest

/-!
# Numerals written and read

The text of a decimal in path text is the text of a numeral: a whole part, a fraction and an
exponent. The numeral has no superfluous zeros, has the value of the decimal, and is what reading
its text gives back. So the text of a number other than zero reads back as the number.
-/

namespace VectorPath

section Digits

theorem isDecimalDigit_eq (c : Char) : isDecimalDigit c = c.isDigit := by
  unfold isDecimalDigit Char.isDigit
  rfl

theorem isDecimalDigit_zero : isDecimalDigit '0' = true := by decide

theorem digitsValue_eq (cs : List Char) : digitsValue cs = Nat.ofDigitChars 10 cs 0 := rfl

@[simp] theorem digitsValue_natural (n : ℕ) : digitsValue (Layout.natural n) = n :=
  Nat.ofDigitChars_ten_toDigits

theorem digitsValue_append (xs ys : List Char) :
    digitsValue (xs ++ ys) = 10 ^ ys.length * digitsValue xs + digitsValue ys := by
  simp only [digitsValue_eq]
  rw [Nat.ofDigitChars_append, Nat.ofDigitChars_eq_ofDigitChars_zero]

@[simp] theorem digitsValue_replicate_zero (k : ℕ) :
    digitsValue (List.replicate k '0') = 0 := by
  rw [digitsValue_eq, Nat.ofDigitChars_replicate_zero, mul_zero]

theorem digitsValue_lt {cs : List Char} (h : ∀ c ∈ cs, isDecimalDigit c = true) :
    digitsValue cs < 10 ^ cs.length := by
  induction cs with
  | nil => decide
  | cons c cs ih =>
      have hc : digitsValue [c] ≤ 9 := by
        have hle : c.toNat ≤ 57 :=
          of_decide_eq_true (Bool.and_eq_true_iff.mp (h c (List.mem_cons_self ..))).2
        change 10 * 0 + (c.toNat - 48) ≤ 9
        omega
      have hrest := ih fun d hd => h d (List.mem_cons_of_mem c hd)
      have happend := digitsValue_append [c] cs
      rw [List.singleton_append] at happend
      rw [happend, List.length_cons, pow_succ]
      nlinarith

theorem isDecimalDigit_natural (n : ℕ) : ∀ c ∈ Layout.natural n, isDecimalDigit c = true := by
  intro c hc
  rw [isDecimalDigit_eq]
  exact Nat.isDigit_of_mem_toDigits (by norm_num) (by norm_num) hc

theorem natural_ne_nil (n : ℕ) : Layout.natural n ≠ [] := Nat.toDigits_ne_nil

theorem natural_length_pos (n : ℕ) : 0 < (Layout.natural n).length := Nat.length_toDigits_pos

theorem lt_ten_pow_length (n : ℕ) : n < 10 ^ (Layout.natural n).length :=
  (Nat.length_toDigits_le_iff (by norm_num) (natural_length_pos n)).mp le_rfl

theorem ten_pow_length_le {n : ℕ} (hn : n ≠ 0) : 10 ^ ((Layout.natural n).length - 1) ≤ n := by
  rcases Nat.eq_zero_or_pos ((Layout.natural n).length - 1) with h | h
  · rw [h, pow_zero]
    exact Nat.pos_of_ne_zero hn
  · by_contra hlt
    have := (Nat.length_toDigits_le_iff (b := 10) (by norm_num) h).mpr (not_le.mp hlt)
    have hpos := natural_length_pos n
    unfold Layout.natural at *
    omega

theorem natural_of_lt {n : ℕ} (h : n < 10) : Layout.natural n = [n.digitChar] :=
  Nat.toDigits_of_lt_base h

theorem natural_of_le {n : ℕ} (h : 10 ≤ n) :
    Layout.natural n = Layout.natural (n / 10) ++ [(n % 10).digitChar] :=
  Nat.toDigits_of_base_le (by norm_num) h

theorem digitChar_ne_zero {d : ℕ} (h : d ≠ 0) (hd : d < 10) : d.digitChar ≠ '0' := by
  intro heq
  have hval := congrArg Char.toNat heq
  rw [Nat.toNat_digitChar_of_lt_ten hd] at hval
  simp at hval
  omega

/-- The digits of a number other than zero do not begin with a zero. -/
theorem natural_head {n : ℕ} (hn : n ≠ 0) : (Layout.natural n).head? ≠ some '0' := by
  induction n using Nat.strong_induction_on with
  | _ n ih =>
      rcases Nat.lt_or_ge n 10 with h | h
      · rw [natural_of_lt h]
        simpa using digitChar_ne_zero hn h
      · rw [natural_of_le h, List.head?_append_of_ne_nil _ (natural_ne_nil _)]
        exact ih (n / 10) (by omega) (by omega)

/-- The digits of a number end in a zero only when it is a multiple of ten. -/
theorem natural_last {n : ℕ} (hn : n % 10 ≠ 0) : (Layout.natural n).getLast? ≠ some '0' := by
  have hlast := digitChar_ne_zero hn (Nat.mod_lt n (by norm_num))
  rcases Nat.lt_or_ge n 10 with h | h
  · rw [natural_of_lt h]
    rw [Nat.mod_eq_of_lt h] at hlast
    simpa using hlast
  · rw [natural_of_le h]
    simpa using hlast

end Digits

namespace Numeral

def fractionText : List Char → List Char
  | [] => []
  | cs => '.' :: cs

/-- The text of an exponent; zero is not written. -/
def exponentPart (e : ℤ) : List Char := if e = 0 then [] else 'e' :: Layout.exponentText e

def text (x : Numeral) : List Char :=
  x.whole ++ (fractionText x.fraction ++ exponentPart x.exponent)

/-- Whether a numeral has neither a fraction nor an exponent. -/
def isInteger (x : Numeral) : Bool := x.fraction.isEmpty && x.exponent == 0

/-- What a layout puts behind a numeral: its text for whole numbers. -/
def ending (whole : String) (x : Numeral) : List Char := if x.isInteger then whole.toList else []

def toDecimal (x : Numeral) : Decimal :=
  ⟨digitsValue (x.whole ++ x.fraction), x.exponent - x.fraction.length⟩

/-- No superfluous zeros: none before the whole part and none behind the fraction. -/
structure IsPlain (x : Numeral) : Prop where
  whole_ne : x.whole ≠ []
  whole_digits : ∀ c ∈ x.whole, isDecimalDigit c = true
  whole_head : x.whole.head? = some '0' → x.whole = ['0']
  fraction_digits : ∀ c ∈ x.fraction, isDecimalDigit c = true
  fraction_last : x.fraction.getLast? ≠ some '0'

theorem isDecimalDigit_exponentDigits (n : ℕ) :
    ∀ c ∈ Layout.exponentDigits n, isDecimalDigit c = true := by
  intro c hc
  unfold Layout.exponentDigits at hc
  split_ifs at hc
  · rcases List.mem_cons.mp hc with rfl | hc
    · exact isDecimalDigit_zero
    · exact isDecimalDigit_natural n c hc
  · exact isDecimalDigit_natural n c hc

theorem exponentDigits_ne_nil (n : ℕ) : Layout.exponentDigits n ≠ [] := by
  unfold Layout.exponentDigits
  split_ifs
  · exact List.cons_ne_nil _ _
  · exact natural_ne_nil n

theorem digitsValue_exponentDigits (n : ℕ) : digitsValue (Layout.exponentDigits n) = n := by
  unfold Layout.exponentDigits
  split_ifs
  · rw [← List.singleton_append, digitsValue_append, digitsValue_natural]
    simp [digitsValue, digitValue]
  · exact digitsValue_natural n

/-- Digits end where a text begins that has no digit in front. -/
theorem takeWhile_digits_append {xs ys : List Char} (h : ∀ c ∈ xs, isDecimalDigit c = true)
    (hy : ∀ c, ys.head? = some c → isDecimalDigit c = false) :
    (xs ++ ys).takeWhile isDecimalDigit = xs ∧ (xs ++ ys).dropWhile isDecimalDigit = ys := by
  rw [List.takeWhile_append_of_pos h, List.dropWhile_append_of_pos h]
  rcases ys with _ | ⟨y, ys⟩
  · simp
  · have hy' := hy y rfl
    simp [hy']

theorem exponentPart_head (e : ℤ) (c : Char) (h : (exponentPart e).head? = some c) : c = 'e' := by
  unfold exponentPart at h
  split_ifs at h
  · simp at h
  · simpa using h.symm

theorem scanExponent_append (e : ℤ) {rest : List Char}
    (hrest : ∀ c, rest.head? = some c → isDecimalDigit c = false) :
    scanExponent ('e' :: Layout.exponentText e ++ rest) =
      some (e, ('e' :: Layout.exponentText e).length) := by
  have htake := (takeWhile_digits_append (isDecimalDigit_exponentDigits e.natAbs) hrest).1
  have hne : (Layout.exponentDigits e.natAbs).isEmpty = false := by
    simpa using exponentDigits_ne_nil e.natAbs
  have hvalue := digitsValue_exponentDigits e.natAbs
  rcases lt_or_ge e 0 with he | he
  · simp only [scanExponent, Layout.exponentText, he, if_true, List.cons_append, List.head?_cons,
      true_or, List.drop_succ_cons, List.drop_zero, htake, hne, hvalue, Bool.false_eq_true,
      if_false, List.length_cons, Option.some.injEq, Prod.mk.injEq]
    constructor <;> omega
  · have he' : ¬ e < 0 := not_lt.mpr he
    simp only [scanExponent, Layout.exponentText, he', if_false, List.cons_append,
      List.head?_cons, true_or, Option.some.injEq, Char.reduceEq, Bool.false_eq_true, or_true,
      List.drop_succ_cons, List.drop_zero, htake, hne, hvalue, if_true, List.length_cons,
      Prod.mk.injEq]
    constructor <;> omega

theorem scanExponent_exponentText (e : ℤ) :
    scanExponent ('e' :: Layout.exponentText e) =
      some (e, ('e' :: Layout.exponentText e).length) := by
  have hscan := @scanExponent_append e [] (by simp)
  rwa [List.append_nil] at hscan

theorem scan_exponentPart (whole fraction : List Char) (exponent : ℤ) :
    (if (exponentPart exponent).isEmpty then some (Numeral.mk whole fraction 0)
      else match scanExponent (exponentPart exponent) with
        | some (e, taken) =>
            if taken = (exponentPart exponent).length then some ⟨whole, fraction, e⟩ else none
        | none => none) = some ⟨whole, fraction, exponent⟩ := by
  unfold exponentPart
  split_ifs with h₁ h₂ h₂
  · rw [h₁]
  · simp at h₂
  · simp at h₂
  · rw [scanExponent_exponentText]
    simp

theorem ofText?_text {x : Numeral} (h : x.IsPlain) : ofText? x.text = some x := by
  obtain ⟨whole, fraction, exponent⟩ := x
  obtain ⟨hne, hwhole, -, hfraction, -⟩ := h
  dsimp only at hne hwhole hfraction
  have hnotdigit (c : Char) (hc : (exponentPart exponent).head? = some c) :
      isDecimalDigit c = false := by
    rw [exponentPart_head exponent c hc]
    decide
  have hempty : whole.isEmpty = false := by simpa using hne
  unfold ofText? text
  rcases fraction with _ | ⟨f, fraction⟩
  · obtain ⟨htake, hdrop⟩ := takeWhile_digits_append hwhole hnotdigit
    have hpoint : ((exponentPart exponent).head? == some '.') = false := by
      rw [beq_eq_false_iff_ne]
      intro hc
      have := exponentPart_head exponent '.' hc
      simp at this
    simp only [fractionText, List.nil_append, htake, hdrop, hpoint, Bool.false_eq_true, if_false,
      hempty, Bool.false_and]
    exact scan_exponentPart ..
  · have hpoint (c : Char)
        (hc : ('.' :: (f :: fraction ++ exponentPart exponent)).head? = some c) :
        isDecimalDigit c = false := by
      obtain rfl : '.' = c := by simpa using hc
      decide
    obtain ⟨htake, hdrop⟩ := takeWhile_digits_append hwhole hpoint
    obtain ⟨htake', hdrop'⟩ := takeWhile_digits_append hfraction hnotdigit
    simp only [fractionText, List.cons_append] at htake hdrop htake' hdrop' ⊢
    simp only [htake, hdrop, List.head?_cons, beq_self_eq_true, if_true, List.drop_succ_cons,
      List.drop_zero, htake', hdrop', hempty, Bool.false_and, Bool.false_eq_true, if_false]
    exact scan_exponentPart ..

end Numeral

namespace Decimal

/-- The power of ten of the leading digit. -/
def order (x : Decimal) : ℤ := x.exponent + (Layout.natural x.digits).length - 1

/-- The numeral that is written for a decimal in path text. -/
def numeral (x : Decimal) : Numeral :=
  if -4 ≤ x.order ∧ x.order < 16 then
    if x.order < 0 then
      ⟨['0'], List.replicate (-x.order - 1).toNat '0' ++ Layout.natural x.digits, 0⟩
    else if (Layout.natural x.digits).length ≤ x.order.toNat + 1 then
      ⟨Layout.natural x.digits ++
        List.replicate (x.order.toNat + 1 - (Layout.natural x.digits).length) '0', [], 0⟩
    else
      ⟨(Layout.natural x.digits).take (x.order.toNat + 1),
        (Layout.natural x.digits).drop (x.order.toNat + 1), 0⟩
  else ⟨(Layout.natural x.digits).take 1, (Layout.natural x.digits).drop 1, x.order⟩

theorem fractionText_of_ne_nil {cs : List Char} (h : cs ≠ []) :
    Numeral.fractionText cs = '.' :: cs := by
  rcases cs with _ | ⟨c, cs⟩
  · exact absurd rfl h
  · rfl

theorem scientific_eq (cs : List Char) (hcs : cs ≠ []) {e : ℤ} (he : e ≠ 0) :
    Layout.scientific cs e = (Numeral.mk (cs.take 1) (cs.drop 1) e).text := by
  have hpart : Numeral.exponentPart e = 'e' :: Layout.exponentText e := by
    unfold Numeral.exponentPart
    rw [if_neg he]
  unfold Numeral.text
  rw [hpart]
  rcases cs with _ | ⟨c, _ | ⟨d, cs⟩⟩
  · exact absurd rfl hcs
  · rfl
  · rfl

/-- A layout adds to the numeral what it puts behind whole numbers, and nothing else. -/
theorem decimal_text (whole : String) (x : Decimal) :
    (Layout.mk (-4) 16 whole).decimal x = x.numeral.text ++ x.numeral.ending whole := by
  have hne := natural_ne_nil x.digits
  have hzero : Numeral.exponentPart 0 = [] := rfl
  unfold Layout.decimal numeral
  change (if -4 ≤ x.order ∧ x.order < 16 then _ else _) = _
  split_ifs with hplace hneg hlong
  · change Layout.positional _ (Layout.natural x.digits) x.order = _
    unfold Layout.positional Numeral.text
    rw [if_pos hneg, hzero, List.append_nil,
      fractionText_of_ne_nil (List.append_ne_nil_of_right_ne_nil _ hne)]
    simp [Numeral.ending, Numeral.isInteger, hne]
  · change Layout.positional _ (Layout.natural x.digits) x.order = _
    unfold Layout.positional Numeral.text
    rw [if_neg hneg, if_pos hlong, hzero]
    simp [Numeral.ending, Numeral.isInteger, Numeral.fractionText]
  · change Layout.positional _ (Layout.natural x.digits) x.order = _
    unfold Layout.positional Numeral.text
    have hrest : (Layout.natural x.digits).drop (x.order.toNat + 1) ≠ [] := by
      rw [ne_eq, List.drop_eq_nil_iff]
      exact hlong
    rw [if_neg hneg, if_neg hlong, hzero, List.append_nil, fractionText_of_ne_nil hrest]
    simp [Numeral.ending, Numeral.isInteger, hlong]
  · change Layout.scientific (Layout.natural x.digits) x.order = _
    have horder : x.order ≠ 0 := by omega
    rw [scientific_eq _ hne horder]
    simp [Numeral.ending, Numeral.isInteger, horder]

theorem numeral_text (x : Decimal) : Layout.path.decimal x = x.numeral.text := by
  have htext : Layout.path.decimal x = _ := decimal_text "" x
  rw [htext]
  simp [Numeral.ending]

/-- The digits of the numeral are the digits of the decimal, with zeros around them. -/
theorem numeral_toRat (x : Decimal) : x.numeral.toDecimal.toRat = x.toRat := by
  have hpos := natural_length_pos x.digits
  have horder : x.order = x.exponent + (Layout.natural x.digits).length - 1 := rfl
  unfold numeral Numeral.toDecimal
  split_ifs with hplace hneg hlong
  · have hvalue : digitsValue (['0'] ++ (List.replicate (-x.order - 1).toNat '0' ++
        Layout.natural x.digits)) = x.digits := by
      rw [← List.append_assoc, digitsValue_append, digitsValue_natural, ← List.replicate_one,
        List.replicate_append_replicate, digitsValue_replicate_zero]
      omega
    have hexp : 0 - ((List.replicate (-x.order - 1).toNat '0' ++
        Layout.natural x.digits).length : ℤ) = x.exponent := by
      rw [List.length_append, List.length_replicate]
      push_cast
      omega
    dsimp only
    rw [hvalue, hexp]
  · have hexp : x.exponent =
        ((x.order.toNat + 1 - (Layout.natural x.digits).length : ℕ) : ℤ) := by omega
    dsimp only
    rw [List.append_nil, digitsValue_append, digitsValue_natural, digitsValue_replicate_zero,
      List.length_replicate]
    unfold toRat
    rw [hexp, zpow_natCast]
    push_cast
    simp only [List.length_nil, Nat.cast_zero, sub_zero, zpow_zero]
    ring
  · have hexp : 0 - (((Layout.natural x.digits).drop (x.order.toNat + 1)).length : ℤ) =
        x.exponent := by
      rw [List.length_drop]
      omega
    dsimp only
    rw [List.take_append_drop, digitsValue_natural, hexp]
  · have hexp : x.order - (((Layout.natural x.digits).drop 1).length : ℤ) = x.exponent := by
      rw [List.length_drop]
      omega
    dsimp only
    rw [List.take_append_drop, digitsValue_natural, hexp]

theorem getLast?_drop_ne {xs : List Char} (k : ℕ) (h : xs.getLast? ≠ some '0') :
    (xs.drop k).getLast? ≠ some '0' := by
  rw [List.getLast?_drop]
  split_ifs
  · simp
  · exact h

/-- Digits that neither begin nor end with a zero, with a point behind some of them. -/
theorem isPlain_split {n : ℕ} (hn : n % 10 ≠ 0) (k : ℕ) (e : ℤ) :
    (Numeral.mk ((Layout.natural n).take (k + 1)) ((Layout.natural n).drop (k + 1)) e).IsPlain := by
  have hdigits := isDecimalDigit_natural n
  have hhead := natural_head (n := n) (by omega)
  refine ⟨?_, fun c hc => hdigits c (List.mem_of_mem_take hc), fun h => absurd h ?_,
    fun c hc => hdigits c (List.mem_of_mem_drop hc), getLast?_drop_ne _ (natural_last hn)⟩
  · rw [ne_eq, List.take_eq_nil_iff]
    simpa using natural_ne_nil n
  · rwa [List.head?_take, if_neg (by omega)]

/-- A decimal that does not end in a zero is written without superfluous zeros. -/
theorem numeral_isPlain {x : Decimal} (hx : x.digits % 10 ≠ 0) : x.numeral.IsPlain := by
  have hne := natural_ne_nil x.digits
  have hdigits := isDecimalDigit_natural x.digits
  have hzeros (k : ℕ) : ∀ c ∈ List.replicate k '0', isDecimalDigit c = true := by
    intro c hc
    rw [List.eq_of_mem_replicate hc]
    exact isDecimalDigit_zero
  unfold numeral
  split_ifs with hplace hneg hlong
  · refine ⟨List.cons_ne_nil _ _, hzeros 1, fun _ => rfl, ?_, ?_⟩
    · intro c hc
      rcases List.mem_append.mp hc with hc | hc
      · exact hzeros _ c hc
      · exact hdigits c hc
    · rw [List.getLast?_append_of_ne_nil _ hne]
      exact natural_last hx
  · refine ⟨List.append_ne_nil_of_left_ne_nil hne _, ?_, ?_, by simp, by simp⟩
    · intro c hc
      rcases List.mem_append.mp hc with hc | hc
      · exact hdigits c hc
      · exact hzeros _ c hc
    · intro h
      rw [List.head?_append_of_ne_nil _ hne] at h
      exact absurd h (natural_head (by omega))
  · exact isPlain_split hx x.order.toNat 0
  · exact isPlain_split hx 0 x.order

/-- A numeral without fraction and exponent is written for a whole number below `10 ^ 16`. -/
theorem numeral_whole {x : Decimal} (hf : x.numeral.fraction = []) (he : x.numeral.exponent = 0) :
    0 ≤ x.exponent ∧ x.toRat < 10 ^ 16 := by
  have hpos := natural_length_pos x.digits
  have horder : x.order = x.exponent + (Layout.natural x.digits).length - 1 := rfl
  unfold numeral at hf he
  split_ifs at hf he with hplace hneg hlong
  · simp at hf
    exact absurd hf.2 (natural_ne_nil _)
  · refine ⟨by omega, ?_⟩
    obtain ⟨k, hk⟩ : ∃ k : ℕ, x.exponent = k := ⟨x.exponent.toNat, by omega⟩
    have hlt := lt_ten_pow_length x.digits
    have hbound : x.digits * 10 ^ k < 10 ^ 16 :=
      calc x.digits * 10 ^ k < 10 ^ (Layout.natural x.digits).length * 10 ^ k := by gcongr
        _ = 10 ^ ((Layout.natural x.digits).length + k) := (pow_add _ _ _).symm
        _ ≤ 10 ^ 16 := Nat.pow_le_pow_right (by norm_num) (by omega)
    unfold toRat
    rw [hk, zpow_natCast]
    exact_mod_cast hbound
  · rw [List.drop_eq_nil_iff] at hf
    exact absurd hf hlong
  · dsimp only at he
    omega

theorem toRat_lt (x : Decimal) :
    x.toRat < 10 ^ (x.exponent + (Layout.natural x.digits).length) := by
  have hlt : (x.digits : ℚ) < 10 ^ (Layout.natural x.digits).length := by
    exact_mod_cast lt_ten_pow_length x.digits
  unfold toRat
  rw [zpow_add₀ (by norm_num), mul_comm, zpow_natCast]
  exact mul_lt_mul_of_pos_left hlt (ten_zpow_pos _)

theorem le_toRat {x : Decimal} (hx : x.digits ≠ 0) : (10 : ℚ) ^ x.order ≤ x.toRat := by
  have hpos := natural_length_pos x.digits
  have hle : (10 : ℚ) ^ ((Layout.natural x.digits).length - 1) ≤ x.digits := by
    exact_mod_cast ten_pow_length_le hx
  have hsplit : x.order = (((Layout.natural x.digits).length - 1 : ℕ) : ℤ) + x.exponent := by
    unfold order
    omega
  unfold toRat
  rw [hsplit, zpow_add₀ (by norm_num), zpow_natCast]
  exact mul_le_mul_of_nonneg_right hle (ten_zpow_pos _).le

end Decimal

section Reading

variable {m : ℕ} {e : ℤ} {x : Decimal}

theorem two_pow_lt_ten_pow : 2 ^ 1024 < 10 ^ 310 ∧ 2 ^ 1075 < 10 ^ 331 := by decide +kernel

theorem digits_ne_zero_of_rounds (hm : m ≠ 0) (hx : RoundsTo m e x.toRat) : x.digits ≠ 0 := by
  intro h₀
  have hpos := hx.pos hm
  unfold Decimal.toRat at hpos
  simp [h₀] at hpos

/-- No decimal that rounds to a number is settled from its size alone. -/
theorem order_of_rounds (h : Canonical m e) (hm : m ≠ 0) (hx : RoundsTo m e x.toRat) :
    -331 ≤ x.order ∧ x.order < 310 := by
  have hdigits := digits_ne_zero_of_rounds hm hx
  have he := two_zpow_pos e
  have hone : (1 : ℚ) ≤ m := by exact_mod_cast Nat.pos_of_ne_zero hm
  constructor
  · have hlow := (RoundsTo.lowerQuarters_ge m e).trans hx.low
    rw [mul_div_assoc', le_div_iff₀ he] at hlow
    have hleast : (2 : ℚ) ^ (-1074 : ℤ) ≤ 2 ^ e := zpow_le_zpow_right₀ (by norm_num) h.2.1
    have hhalf : (2 : ℚ) ^ (-1074 : ℤ) = 2 * 2 ^ (-1075 : ℤ) := by
      rw [← two_zpow_add_one]
      norm_num
    have hbound : (2 : ℚ) ^ (-1075 : ℤ) ≤ x.toRat := by nlinarith
    have hten : (10 : ℚ) ^ (-331 : ℤ) < 2 ^ (-1075 : ℤ) := by
      rw [zpow_neg, zpow_neg, inv_lt_inv₀ (ten_zpow_pos _) (two_zpow_pos _)]
      exact_mod_cast two_pow_lt_ten_pow.2
    have hlt := hten.trans_le (hbound.trans (Decimal.toRat_lt x).le)
    have := (zpow_lt_zpow_iff_right₀ (by norm_num : (1 : ℚ) < 10)).mp hlt
    unfold Decimal.order
    omega
  · have hhigh := hx.high
    rw [mul_div_assoc', div_le_iff₀ he] at hhigh
    have hmax : (m : ℚ) + 1 ≤ 2 ^ 53 := by exact_mod_cast h.1
    have hmost : (2 : ℚ) ^ e ≤ 2 ^ (971 : ℤ) := zpow_le_zpow_right₀ (by norm_num) h.2.2.1
    have hsplit : (2 : ℚ) ^ (1024 : ℤ) = 2 ^ 53 * 2 ^ (971 : ℤ) := by
      rw [← zpow_natCast, ← zpow_add₀ (by norm_num)]
      norm_num
    have hbound : x.toRat ≤ 2 ^ (1024 : ℤ) := by
      have hmantissa : (4 : ℚ) * m + 2 ≤ 4 * 2 ^ 53 := by linarith
      have hproduct := mul_le_mul hmantissa hmost he.le (by norm_num)
      rw [hsplit]
      linarith
    have hten : (2 : ℚ) ^ (1024 : ℤ) < 10 ^ (310 : ℤ) := by
      exact_mod_cast two_pow_lt_ten_pow.1
    have hlt := (Decimal.le_toRat hdigits).trans_lt (hbound.trans_lt hten)
    exact (zpow_lt_zpow_iff_right₀ (by norm_num : (1 : ℚ) < 10)).mp hlt

/-- A decimal that rounds to a number is read as that number. -/
theorem ofDecimal_eq (h : Canonical m e) (hm : m ≠ 0) (hx : RoundsTo m e x.toRat) (s : Bool) :
    Binary64.ofDecimal s x.digits x.exponent = .finite s m e h := by
  obtain ⟨hlow, hhigh⟩ := order_of_rounds h hm hx
  have hdigits := digits_ne_zero_of_rounds hm hx
  have hsize : ((Nat.toDigits 10 x.digits).length : ℤ) + x.exponent = x.order + 1 := by
    unfold Decimal.order Layout.natural
    omega
  unfold Binary64.ofDecimal
  simp only [hsize, hdigits, if_false]
  rw [if_neg (by omega), if_neg (by omega)]
  obtain ⟨digits, exponent⟩ := x
  unfold Decimal.toRat at hx
  rcases exponent with k | k
  · refine Binary64.ofRatio_eq h hm one_pos ?_ s
    simpa [zpow_natCast] using hx
  · refine Binary64.ofRatio_eq h hm (by positivity) ?_ s
    simpa [zpow_negSucc, div_eq_mul_inv] using hx

end Reading

end VectorPath
