import VectorPath.Proofs.Json.Spelling
import VectorPath.Text.Escaped

/-!
# Escaped texts are spellings

Escaping writes every character in one of the ways in which a reader takes it: as itself, by a
letter, by its unit, or by the two units of a character beyond the basic plane. So the escaped form
of any text is a spelling of that text.
-/

namespace VectorPath.Text

open Json

theorem hexValue?_hexDigit (n : ℕ) : hexValue? (hexDigit n) = some (n % 16) := by
  have hdigit : ∀ k < 16, hexValue? k.digitChar = some k := by decide
  exact hdigit (n % 16) (Nat.mod_lt n (by decide))

theorem unitText_hexDigits {n : ℕ} (h : n < 0x10000) : UnitText n (hexDigits 4 n) := by
  have hdigits := UnitText.mk (hexValue?_hexDigit (n / 16 / 16 / 16))
    (hexValue?_hexDigit (n / 16 / 16)) (hexValue?_hexDigit (n / 16)) (hexValue?_hexDigit n)
  have hn : n / 16 / 16 / 16 % 16 * 0x1000 + n / 16 / 16 % 16 * 0x100 + n / 16 % 16 * 0x10 +
      n % 16 = n := by omega
  rwa [hn] at hdigits

/-- The two units of a character beyond the basic plane make it again. -/
theorem charText_units {c : Char} (h : 0x10000 ≤ c.toNat) :
    CharText c ((utf16Units c.toNat).flatMap fun unit => '\\' :: 'u' :: hexDigits 4 unit) := by
  have hvalid : c.toNat < 0xd800 ∨ 0xdfff < c.toNat ∧ c.toNat < 0x110000 := c.valid
  have hchar : pairChar (0xd800 + (c.toNat - 0x10000) / 0x400)
      (0xdc00 + (c.toNat - 0x10000) % 0x400) = c := by
    have hcode : 0x10000 + (0xd800 + (c.toNat - 0x10000) / 0x400 - 0xd800) * 0x400 +
        (0xdc00 + (c.toNat - 0x10000) % 0x400 - 0xdc00) = c.toNat := by omega
    rw [pairChar, hcode, Char.ofNat_toNat]
  have hpair : CharText (pairChar (0xd800 + (c.toNat - 0x10000) / 0x400)
      (0xdc00 + (c.toNat - 0x10000) % 0x400)) _ :=
    .pair (unitText_hexDigits (by omega)) (unitText_hexDigits (by omega))
      (by simp [isHighUnit]; omega) (by simp [isLowUnit]; omega)
  rw [hchar] at hpair
  rw [utf16Units, if_neg (not_lt.mpr h), List.flatMap_cons, List.flatMap_singleton]
  exact hpair

theorem charText_escapeChar (c : Char) : CharText c (escapeChar c) := by
  unfold escapeChar
  split_ifs with hquote _ _ _ _ _ hplain
  · rcases hquote with rfl | rfl <;> exact .escape rfl
  · subst c
    exact .escape rfl
  · subst c
    exact .escape rfl
  · subst c
    exact .escape rfl
  · subst c
    exact .escape rfl
  · subst c
    exact .escape rfl
  · rw [not_or] at hquote
    exact .plain (by simp [isPlain, hquote, hplain.1])
  · by_cases hbasic : c.toNat < 0x10000
    · rw [utf16Units, if_pos hbasic, List.flatMap_singleton]
      exact .unit (unitText_hexDigits hbasic)
    · exact charText_units (not_lt.mp hbasic)

/-- The escaped form of a text is a spelling of the text, whatever characters it holds. -/
theorem quotedText_escaped (s : String) : QuotedText s (escaped s).toList := by
  have hchars : ∀ cs : List Char, CharsText cs (cs.flatMap escapeChar) := by
    intro cs
    induction cs with
    | nil => exact .nil
    | cons c cs ih => exact .cons (charText_escapeChar c) ih
  unfold escaped
  rw [String.toList_ofList]
  exact .mk (hchars s.toList)

end VectorPath.Text
