import BillOfMaterials.Text.Case

/-! # Letters and their small forms

    * `isUpper_iff` and `isLower_iff` say where the letters stand among the characters,
      `bounds_of_isAlphanum` where letters and digits do.
    * `toLower_eq_or`: only a capital letter has another small form, and that is a small
      letter.
    * `isUpper_toLower` and `lowered_lowered`: what is in small letters stays as it is. -/

namespace BillOfMaterials.Text

theorem isUpper_iff {c : Char} : c.isUpper ↔ 65 ≤ c.toNat ∧ c.toNat ≤ 90 :=
  decide_eq_true_iff.trans (and_congr UInt32.le_iff_toNat_le UInt32.le_iff_toNat_le)

theorem isLower_iff {c : Char} : c.isLower ↔ 97 ≤ c.toNat ∧ c.toNat ≤ 122 := by
  refine Bool.and_eq_true_iff.trans (and_congr ?_ ?_)
  · exact decide_eq_true_iff.trans UInt32.le_iff_toNat_le
  · exact decide_eq_true_iff.trans UInt32.le_iff_toNat_le

theorem isAlphanum_iff {c : Char} : c.isAlphanum ↔ (c.isUpper ∨ c.isLower) ∨ c.isDigit :=
  Bool.or_eq_true_iff.trans (or_congr_left Bool.or_eq_true_iff)

theorem bounds_of_isAlphanum {c : Char} (h : c.isAlphanum) : 48 ≤ c.toNat ∧ c.toNat ≤ 122 := by
  rw [isAlphanum_iff, isUpper_iff, isLower_iff] at h
  rcases h with (hupper | hlower) | hdigit
  · omega
  · omega
  · have hbounds : 48 ≤ c.toNat ∧ c.toNat ≤ 57 := Char.isDigit_iff_toNat.1 hdigit
    omega

theorem toLower_of_not_isUpper {c : Char} (h : c.isUpper = false) : c.toLower = c :=
  dif_neg (of_decide_eq_false h)

theorem toNat_toLower_of_isUpper {c : Char} (h : c.isUpper) : c.toLower.toNat = c.toNat + 32 := by
  have hbounds := isUpper_iff.1 h
  have hsum : c.toLower.toNat = (c.toNat + 32) % 2 ^ 32 :=
    congrArg Char.toNat (dif_pos (of_decide_eq_true h))
  -- The sum is too small to wrap around.
  rw [hsum, Nat.mod_eq_of_lt (by omega)]

theorem toLower_eq_or (c : Char) : c.toLower = c ∨ c.isUpper ∧ c.toLower.isLower := by
  cases h : c.isUpper with
  | false => exact .inl (toLower_of_not_isUpper h)
  | true =>
    have hbounds := isUpper_iff.1 h
    have hlower : c.toLower.isLower := by
      rw [isLower_iff, toNat_toLower_of_isUpper h]
      omega
    exact .inr ⟨rfl, hlower⟩

theorem isUpper_toLower (c : Char) : c.toLower.isUpper = false := by
  rw [Bool.eq_false_iff, ne_eq, isUpper_iff]
  cases h : c.isUpper with
  | false => rwa [toLower_of_not_isUpper h, ← isUpper_iff, Bool.not_eq_true]
  | true =>
    have hbounds := isUpper_iff.1 h
    rw [toNat_toLower_of_isUpper h]
    omega

theorem lowered_lowered (text : String) : lowered (lowered text) = lowered text := by
  have hsmall : ∀ c : Char, c.toLower.toLower = c.toLower := fun c =>
    toLower_of_not_isUpper (isUpper_toLower c)
  rw [← String.toList_inj]
  simp [hsmall]

end BillOfMaterials.Text
