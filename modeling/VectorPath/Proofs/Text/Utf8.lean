import Mathlib.Data.Nat.Notation
import Mathlib.Tactic.SplitIfs
import VectorPath.Text.Utf8

/-!
# Decoding what has been encoded

Every text is decoded from its UTF-8 bytes. A character has one to four bytes; the first tells how
many follow, and the second is in the range that the first prescribes because a character is written
with as few bytes as possible, is no surrogate and is not past the last code point.
-/

namespace VectorPath.Text

theorem toList_loop (bs : ByteArray) (i : ℕ) (done : List UInt8) :
    ByteArray.toList.loop bs i done = done.reverse ++ bs.data.toList.drop i := by
  fun_induction ByteArray.toList.loop bs i done with
  | case1 i done hi ih =>
      have hget : bs.get! i = bs.data[i] := getElem!_pos bs.data i hi
      rw [ih, List.drop_eq_getElem_cons hi, hget, List.reverse_cons, List.append_assoc]
      rfl
  | case2 i done hi =>
      rw [List.drop_eq_nil_of_le (Nat.le_of_not_lt hi), List.append_nil]

theorem encodeUtf8_eq (s : String) : encodeUtf8 s = s.toList.flatMap String.utf8EncodeChar := by
  unfold encodeUtf8 String.toUTF8 ByteArray.toList
  rw [toList_loop, ← String.utf8Encode_toList]
  unfold List.utf8Encode
  rw [List.toList_data_toByteArray]
  rfl

section Tail

/-- A byte behind the first one of a character, with six bits of its code point. -/
def tailByte (k : ℕ) : UInt8 := UInt8.ofNat (k % 64 + 128)

theorem tailByte_toNat (k : ℕ) : (tailByte k).toNat = k % 64 + 128 := by
  unfold tailByte
  rw [UInt8.toNat_ofNat']
  omega

variable {follow code k : ℕ} {rest taken : List UInt8}

theorem takeFollow_second {range : UInt8 × UInt8} (hlow : range.1.toNat ≤ k % 64 + 128)
    (hhigh : k % 64 + 128 ≤ range.2.toNat) :
    takeFollow (follow + 1) range (tailByte k :: rest) taken code =
      takeFollow follow (0x80, 0xbf) rest (taken ++ [tailByte k]) (code * 64 + k % 64) := by
  have hrange : range.1 ≤ tailByte k ∧ tailByte k ≤ range.2 := by
    rw [UInt8.le_iff_toNat_le, UInt8.le_iff_toNat_le, tailByte_toNat]
    exact ⟨hlow, hhigh⟩
  rw [takeFollow, if_pos hrange, tailByte_toNat]
  congr 1
  omega

theorem takeFollow_tailByte :
    takeFollow (follow + 1) (0x80, 0xbf) (tailByte k :: rest) taken code =
      takeFollow follow (0x80, 0xbf) rest (taken ++ [tailByte k]) (code * 64 + k % 64) := by
  apply takeFollow_second
  · change 128 ≤ _
    omega
  · change _ ≤ 191
    omega

end Tail

section Lead

theorem followCount_eq (lead : UInt8) :
    followCount lead =
      if lead.toNat < 128 then some 0
      else if lead.toNat < 194 then none
      else if lead.toNat < 224 then some 1
      else if lead.toNat < 240 then some 2
      else if lead.toNat < 245 then some 3
      else none := by
  simp only [followCount, UInt8.lt_iff_toNat_lt]
  rfl

theorem secondRange_eq (lead : UInt8) :
    secondRange lead =
      if lead.toNat = 224 then (0xa0, 0xbf)
      else if lead.toNat = 237 then (0x80, 0x9f)
      else if lead.toNat = 240 then (0x90, 0xbf)
      else if lead.toNat = 244 then (0x80, 0x8f)
      else (0x80, 0xbf) := by
  simp only [secondRange, ← UInt8.toNat_inj]
  rfl

variable {lead : UInt8} {tail rest : List UInt8} {cs : List Char}

theorem decodeFrom_skip (position : ℕ) (h : ∀ position, decodeFrom position 0 rest = .ok cs) :
    decodeFrom position tail.length (tail ++ rest) = .ok cs := by
  induction tail generalizing position with
  | nil => exact h position
  | cons b tail ih => exact ih (position + 1)

theorem decodeFrom_character {code : ℕ} (hfollow : followCount lead = some tail.length)
    (htail : takeFollow tail.length (secondRange lead) (tail ++ rest) [lead]
      (leadBits lead tail.length) = .ok code)
    (h : ∀ position, decodeFrom position 0 rest = .ok cs) (position : ℕ) :
    decodeFrom position 0 (lead :: tail ++ rest) = .ok (Char.ofNat code :: cs) := by
  rw [List.cons_append, decodeFrom, hfollow]
  simp only [htail, decodeFrom_skip (position + 1) h]
  rfl

end Lead

section Sizes

variable {v : ℕ} {rest : List UInt8} {cs : List Char}
  (h : ∀ position, decodeFrom position 0 rest = .ok cs) (position : ℕ)

theorem ofNat_toNat {k : ℕ} (hk : k < 256) : (UInt8.ofNat k).toNat = k := by
  rw [UInt8.toNat_ofNat', Nat.mod_eq_of_lt hk]

include h

theorem decodeFrom_one (hv : v ≤ 127) :
    decodeFrom position 0 ([UInt8.ofNat v] ++ rest) = .ok (Char.ofNat v :: cs) := by
  have hlead := ofNat_toNat (k := v) (by omega)
  refine decodeFrom_character ?_ ?_ h position
  · rw [followCount_eq, hlead, if_pos (by omega)]
    rfl
  · change Except.ok (UInt8.ofNat v).toNat = _
    rw [hlead]

theorem decodeFrom_two (hmore : 127 < v) (hv : v ≤ 2047) :
    decodeFrom position 0 (UInt8.ofNat (v / 64 % 32 + 192) :: [tailByte v] ++ rest) =
      .ok (Char.ofNat v :: cs) := by
  have hlead := ofNat_toNat (k := v / 64 % 32 + 192) (by omega)
  generalize UInt8.ofNat (v / 64 % 32 + 192) = lead at hlead ⊢
  refine decodeFrom_character ?_ ?_ h position
  · rw [followCount_eq, hlead]
    split_ifs <;> first | omega | rfl
  · have hrange : secondRange lead = (0x80, 0xbf) := by
      rw [secondRange_eq, hlead]
      split_ifs <;> first | omega | rfl
    change takeFollow 1 _ (tailByte v :: rest) _ (lead.toNat % 32) = _
    rw [hrange, takeFollow_tailByte, takeFollow, hlead]
    congr 1
    omega

/-- The second byte rules out the numbers below the three-byte ones and the surrogates. -/
theorem decodeFrom_three (hmore : 2047 < v) (hv : v ≤ 65535) (hvalid : v < 0xd800 ∨ 0xdfff < v) :
    decodeFrom position 0
        (UInt8.ofNat (v / 4096 % 16 + 224) :: [tailByte (v / 64), tailByte v] ++ rest) =
      .ok (Char.ofNat v :: cs) := by
  have hlead := ofNat_toNat (k := v / 4096 % 16 + 224) (by omega)
  generalize UInt8.ofNat (v / 4096 % 16 + 224) = lead at hlead ⊢
  refine decodeFrom_character ?_ ?_ h position
  · rw [followCount_eq, hlead]
    split_ifs <;> first | omega | rfl
  · have hlow : (secondRange lead).1.toNat ≤ v / 64 % 64 + 128 := by
      rw [secondRange_eq, hlead]
      split_ifs <;> simp <;> omega
    have hhigh : v / 64 % 64 + 128 ≤ (secondRange lead).2.toNat := by
      rw [secondRange_eq, hlead]
      split_ifs <;> simp <;> omega
    change takeFollow 2 _ (tailByte (v / 64) :: tailByte v :: rest) _ (lead.toNat % 16) = _
    rw [takeFollow_second hlow hhigh, takeFollow_tailByte, takeFollow, hlead]
    congr 1
    omega

/-- The second byte rules out the numbers below the four-byte ones and past the last code point. -/
theorem decodeFrom_four (hmore : 65535 < v) (hvalid : v < 0x110000) :
    decodeFrom position 0
        (UInt8.ofNat (v / 262144 % 8 + 240) ::
          [tailByte (v / 4096), tailByte (v / 64), tailByte v] ++ rest) =
      .ok (Char.ofNat v :: cs) := by
  have hlead := ofNat_toNat (k := v / 262144 % 8 + 240) (by omega)
  generalize UInt8.ofNat (v / 262144 % 8 + 240) = lead at hlead ⊢
  refine decodeFrom_character ?_ ?_ h position
  · rw [followCount_eq, hlead]
    split_ifs <;> first | omega | rfl
  · have hlow : (secondRange lead).1.toNat ≤ v / 4096 % 64 + 128 := by
      rw [secondRange_eq, hlead]
      split_ifs <;> simp <;> omega
    have hhigh : v / 4096 % 64 + 128 ≤ (secondRange lead).2.toNat := by
      rw [secondRange_eq, hlead]
      split_ifs <;> simp <;> omega
    change takeFollow 3 _ (tailByte (v / 4096) :: tailByte (v / 64) :: tailByte v :: rest) _
      (lead.toNat % 8) = _
    rw [takeFollow_second hlow hhigh, takeFollow_tailByte, takeFollow_tailByte, takeFollow, hlead]
    congr 1
    omega

end Sizes

theorem decodeFrom_utf8EncodeChar (c : Char) {rest : List UInt8} {cs : List Char}
    (h : ∀ position, decodeFrom position 0 rest = .ok cs) (position : ℕ) :
    decodeFrom position 0 (String.utf8EncodeChar c ++ rest) = .ok (c :: cs) := by
  have hvalid : c.toNat < 0xd800 ∨ 0xdfff < c.toNat ∧ c.toNat < 0x110000 := c.valid
  have hencode : String.utf8EncodeChar c =
      if c.toNat ≤ 127 then [UInt8.ofNat c.toNat]
      else if c.toNat ≤ 2047 then UInt8.ofNat (c.toNat / 64 % 32 + 192) :: [tailByte c.toNat]
      else if c.toNat ≤ 65535 then
        UInt8.ofNat (c.toNat / 4096 % 16 + 224) :: [tailByte (c.toNat / 64), tailByte c.toNat]
      else
        UInt8.ofNat (c.toNat / 262144 % 8 + 240) ::
          [tailByte (c.toNat / 4096), tailByte (c.toNat / 64), tailByte c.toNat] := rfl
  have hc := Char.ofNat_toNat c
  generalize c.toNat = v at hvalid hencode hc
  rw [hencode, ← hc]
  split_ifs with hone htwo hthree
  · exact decodeFrom_one h position hone
  · exact decodeFrom_two h position (by omega) htwo
  · exact decodeFrom_three h position (by omega) hthree (by omega)
  · exact decodeFrom_four h position (by omega) (by omega)

theorem decodeUtf8_encodeUtf8 (s : String) : decodeUtf8 (encodeUtf8 s) = .ok s := by
  have hdecode : ∀ cs : List Char, ∀ position,
      decodeFrom position 0 (cs.flatMap String.utf8EncodeChar) = .ok cs := by
    intro cs
    induction cs with
    | nil => exact fun _ => rfl
    | cons c cs ih =>
        rw [List.flatMap_cons]
        exact decodeFrom_utf8EncodeChar c ih
  unfold decodeUtf8
  rw [encodeUtf8_eq, hdecode]
  change Except.ok (String.ofList s.toList) = _
  rw [String.ofList_toList]

end VectorPath.Text
