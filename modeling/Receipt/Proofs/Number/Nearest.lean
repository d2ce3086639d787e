import Receipt.Proofs.Number.Value

/-!
# The nearest double

`nearest` brings a quotient to the nearest double, and of two equally near ones to the one with the even
mantissa; a quotient that is as near to the power of two above all doubles overflows. That is
`nearest_rounds`. Products and quotients of doubles are rounded in this way, and `Rounds.near` says how
far the rounding can be off.
-/

namespace Receipt.Binary64

open Number

def mantissa : Binary64 → ℕ
  | finite _ m _ _ => m
  | _ => 0

/-- The middle between the greatest double and the power of two above it. -/
def overflowLimit : ℚ := 2 ^ 1024 - 2 ^ 970

/-- A double to which a magnitude is correctly rounded. -/
structure Rounds (q : ℚ) (x : Binary64) : Prop where
  overflow : overflowLimit ≤ q → ∃ negative, x = infinite negative
  finite : q < overflowLimit → x.isFinite = true
  nearest : q < overflowLimit → ∀ y : Binary64, y.isFinite = true →
    |x.magnitude - q| ≤ |y.magnitude - q|
  even : q < overflowLimit → ∀ y : Binary64, y.isFinite = true →
    |y.magnitude - q| = |x.magnitude - q| → y.magnitude ≠ x.magnitude → Even x.mantissa

/-! ### Whole numbers near a rational -/

section Whole

variable {m k : ℕ} {v : ℚ}

theorem half_le_abs_sub (h : |(m : ℚ) - v| ≤ 1 / 2) (hne : k ≠ m) : 1 / 2 ≤ |(k : ℚ) - v| := by
  have hgap : (1 : ℚ) ≤ |(k : ℚ) - m| := by
    rcases Nat.lt_or_gt_of_ne hne with hlt | hlt
    · have : (k : ℚ) + 1 ≤ m := by exact_mod_cast hlt
      rw [abs_sub_comm, abs_of_nonneg (by linarith)]
      linarith
    · have : (m : ℚ) + 1 ≤ k := by exact_mod_cast hlt
      rw [abs_of_nonneg (by linarith)]
      linarith
  have htriangle := abs_sub_le (k : ℚ) v m
  rw [abs_sub_comm v] at htriangle
  linarith

theorem abs_sub_le_abs_sub (h : |(m : ℚ) - v| ≤ 1 / 2) (k : ℕ) : |(m : ℚ) - v| ≤ |(k : ℚ) - v| := by
  by_cases hne : k = m
  · rw [hne]
  · exact h.trans (half_le_abs_sub h hne)

end Whole

/-! ### The mantissa of a quotient -/

section Quotient

variable {num den : ℕ}

/-- The mantissa of a quotient at its scale, before a carry. -/
def rawMantissa (num den : ℕ) : ℕ :=
  roundHalfEven (num * Nat.pow 2 (-scale num den).toNat) (den * Nat.pow 2 (scale num den).toNat)

theorem abs_rawMantissa_sub_le (num : ℕ) (hden : 0 < den) :
    |(rawMantissa num den : ℚ) - (num : ℚ) / den / 2 ^ scale num den| ≤ 1 / 2 := by
  rw [← shifted_div_eq]
  exact abs_roundHalfEven_sub_le _ (Nat.mul_pos hden (pow_two_pos _))

theorem even_rawMantissa (hden : 0 < den)
    (htie : |(rawMantissa num den : ℚ) - (num : ℚ) / den / 2 ^ scale num den| = 1 / 2) :
    Even (rawMantissa num den) := by
  rw [← shifted_div_eq] at htie
  exact even_roundHalfEven (Nat.mul_pos hden (pow_two_pos _)) htie

theorem scale_cases (num den : ℕ) :
    scale num den = binade num den - 52 ∨ scale num den = -1074 ∧ binade num den - 52 ≤ -1074 := by
  unfold scale
  omega

/-- At its scale a quotient has at most 53 binary digits before the point. -/
theorem div_lt_two_zpow (hnum : 0 < num) (hden : 0 < den) :
    (num : ℚ) / den < 2 ^ (scale num den + 53) := by
  have hbinade := (binade_le_div_lt hnum hden).2
  refine hbinade.trans_le (zpow_le_zpow_right₀ one_le_two ?_)
  rcases scale_cases num den with h | h <;> omega

theorem rawMantissa_le (hnum : 0 < num) (hden : 0 < den) : rawMantissa num den ≤ 2 ^ 53 := by
  have hunit : (0 : ℚ) < 2 ^ scale num den := by positivity
  have hdigits : (num : ℚ) / den / 2 ^ scale num den < 2 ^ 53 := by
    rw [div_lt_iff₀ hunit, mul_comm]
    have h := div_lt_two_zpow hnum hden
    rwa [zpow_add₀ two_ne_zero] at h
  have hnear := (abs_le.mp (abs_rawMantissa_sub_le num hden)).2
  have hlt : (rawMantissa num den : ℚ) < 2 ^ 53 + 1 := by linarith
  have hlt' : rawMantissa num den < 2 ^ 53 + 1 := by exact_mod_cast hlt
  omega

/-- A double is a multiple of the last place of a quotient, or it lies below the quotient's binade. -/
theorem magnitude_on_grid_or_below (hnum : 0 < num) (hden : 0 < den) {y : Binary64}
    (hy : y.isFinite = true) :
    (∃ k : ℕ, y.magnitude = k * 2 ^ scale num den) ∨
      y.magnitude < 2 ^ 52 * 2 ^ scale num den ∧ 2 ^ 52 * 2 ^ scale num den ≤ (num : ℚ) / den := by
  obtain _ | _ | ⟨negative, m, e, h⟩ := y
  · cases hy
  · cases hy
  · rw [magnitude_finite]
    rcases le_or_gt (scale num den) e with he | he
    · left
      refine ⟨m * 2 ^ (e - scale num den).toNat, ?_⟩
      rw [Nat.cast_mul, Nat.cast_pow, Nat.cast_ofNat, mul_assoc, ← zpow_natCast,
        Int.toNat_of_nonneg (by omega), ← zpow_add₀ two_ne_zero, sub_add_cancel]
    · right
      have hscale : scale num den = binade num den - 52 := by
        rcases scale_cases num den with hs | hs <;> omega
      have hfloor : (2 : ℚ) ^ 52 * 2 ^ scale num den = 2 ^ binade num den := by
        rw [← zpow_natCast, ← zpow_add₀ two_ne_zero, hscale]
        congr 1
        ring
      rw [hfloor]
      refine ⟨?_, (binade_le_div_lt hnum hden).1⟩
      have hm : (m : ℚ) < 2 ^ (53 : ℤ) := by exact_mod_cast h.1
      calc (m : ℚ) * 2 ^ e < 2 ^ (53 : ℤ) * 2 ^ e := by gcongr
        _ = 2 ^ (53 + e) := (zpow_add₀ two_ne_zero _ _).symm
        _ ≤ 2 ^ binade num den := zpow_le_zpow_right₀ one_le_two (by omega)

/-- No double is nearer to a quotient than its mantissa at its scale; one that is as near is a tie. -/
theorem rawMantissa_nearest (hnum : 0 < num) (hden : 0 < den) {y : Binary64}
    (hy : y.isFinite = true) :
    |(rawMantissa num den : ℚ) * 2 ^ scale num den - (num : ℚ) / den| ≤
        |y.magnitude - (num : ℚ) / den| ∧
      (|y.magnitude - (num : ℚ) / den| =
          |(rawMantissa num den : ℚ) * 2 ^ scale num den - (num : ℚ) / den| →
        y.magnitude ≠ rawMantissa num den * 2 ^ scale num den → Even (rawMantissa num den)) := by
  have hunit : (0 : ℚ) < 2 ^ scale num den := by positivity
  have hnear := abs_rawMantissa_sub_le num hden
  have hscaled : ∀ k : ℕ, |(k : ℚ) * 2 ^ scale num den - (num : ℚ) / den| =
      |(k : ℚ) - (num : ℚ) / den / 2 ^ scale num den| * 2 ^ scale num den := by
    intro k
    rw [← abs_of_pos hunit, ← abs_mul, sub_mul, abs_of_pos hunit, div_mul_cancel₀ _ hunit.ne']
  rcases magnitude_on_grid_or_below hnum hden hy with ⟨k, hk⟩ | ⟨hbelow, hfloor⟩
  · rw [hk, hscaled, hscaled]
    refine ⟨mul_le_mul_of_nonneg_right (abs_sub_le_abs_sub hnear k) hunit.le, ?_⟩
    intro hsame hother
    have hne : k ≠ rawMantissa num den := fun h => hother (by rw [h])
    have htie := mul_right_cancel₀ hunit.ne' hsame
    exact even_rawMantissa hden (hnear.antisymm (htie ▸ half_le_abs_sub hnear hne))
  · have hgrid := mul_le_mul_of_nonneg_right (abs_sub_le_abs_sub hnear (2 ^ 52)) hunit.le
    have hfloor' : |(2 : ℚ) ^ 52 * 2 ^ scale num den - (num : ℚ) / den| =
        (num : ℚ) / den - 2 ^ 52 * 2 ^ scale num den := by
      rw [abs_of_nonpos (by linarith), neg_sub]
    have hy' : |y.magnitude - (num : ℚ) / den| = (num : ℚ) / den - y.magnitude := by
      rw [abs_of_nonpos (by linarith), neg_sub]
    rw [← hscaled, ← hscaled, Nat.cast_pow, Nat.cast_ofNat, hfloor'] at hgrid
    refine ⟨by linarith, ?_⟩
    intro hsame
    linarith

/-! ### Packing -/

theorem overflowLimit_eq : overflowLimit = (2 ^ 53 - 1 / 2) * 2 ^ (971 : ℤ) := by
  have htop : (2 : ℚ) ^ 1024 = 2 ^ 54 * 2 ^ 970 := by rw [← pow_add]
  have hplace : (2 : ℚ) ^ (971 : ℤ) = 2 * 2 ^ 970 := (zpow_natCast 2 971).trans (pow_succ' 2 970)
  rw [overflowLimit, htop, hplace]
  generalize (2 : ℚ) ^ 970 = place
  ring

/-- The mantissa and the exponent that are packed; the number is the same as before the carry. -/
theorem nearest_eq_pack (negative : Bool) (hnum : 0 < num) (hden : 0 < den) :
    ∃ (m : ℕ) (e : ℤ), nearest negative num den = pack negative m e ∧ m < 2 ^ 53 ∧ -1074 ≤ e ∧
      (m : ℚ) * 2 ^ e = rawMantissa num den * 2 ^ scale num den ∧
      (Even (rawMantissa num den) → Even m) ∧
      (e = scale num den ∧ m = rawMantissa num den ∨
        e = scale num den + 1 ∧ rawMantissa num den = 2 ^ 53) := by
  have hfloor : -1074 ≤ scale num den := le_max_right _ _
  have hle := rawMantissa_le hnum hden
  have hnearest : nearest negative num den =
      if rawMantissa num den < 2 ^ 53 then pack negative (rawMantissa num den) (scale num den)
      else pack negative (rawMantissa num den / 2) (scale num den + 1) := by
    unfold nearest
    rw [if_neg hnum.ne']
    rfl
  by_cases hcarry : rawMantissa num den < 2 ^ 53
  · refine ⟨rawMantissa num den, scale num den, ?_, hcarry, hfloor, rfl, id, .inl ⟨rfl, rfl⟩⟩
    rw [hnearest, if_pos hcarry]
  · have hfull : rawMantissa num den = 2 ^ 53 := by omega
    refine ⟨2 ^ 52, scale num den + 1, ?_, by decide, by omega, ?_, fun _ => by decide,
      .inr ⟨rfl, hfull⟩⟩
    · rw [hnearest, if_neg hcarry, hfull]
      rfl
    · rw [hfull, zpow_add₀ two_ne_zero]
      push_cast
      ring

theorem div_lt_overflowLimit (hnum : 0 < num) (hden : 0 < den) (h : scale num den ≤ 970) :
    (num : ℚ) / den < overflowLimit := by
  have hplace : (0 : ℚ) < 2 ^ (971 : ℤ) := by positivity
  calc (num : ℚ) / den < 2 ^ (scale num den + 53) := div_lt_two_zpow hnum hden
    _ ≤ 2 ^ (52 + 971 : ℤ) := zpow_le_zpow_right₀ one_le_two (by omega)
    _ = 2 ^ 52 * 2 ^ (971 : ℤ) := zpow_add₀ two_ne_zero 52 971
    _ ≤ (2 ^ 53 - 1 / 2) * 2 ^ (971 : ℤ) := mul_le_mul_of_nonneg_right (by norm_num) hplace.le
    _ = overflowLimit := overflowLimit_eq.symm

theorem scale_le_of_lt (hnum : 0 < num) (hden : 0 < den) (h : (num : ℚ) / den < overflowLimit) :
    scale num den ≤ 971 := by
  have hplace : (0 : ℚ) < 2 ^ (971 : ℤ) := by positivity
  have hbelow : (2 : ℚ) ^ binade num den < 2 ^ (53 + 971 : ℤ) := by
    calc (2 : ℚ) ^ binade num den ≤ num / den := (binade_le_div_lt hnum hden).1
      _ < (2 ^ 53 - 1 / 2) * 2 ^ (971 : ℤ) := overflowLimit_eq ▸ h
      _ ≤ 2 ^ 53 * 2 ^ (971 : ℤ) := mul_le_mul_of_nonneg_right (by norm_num) hplace.le
      _ = 2 ^ (53 + 971 : ℤ) := (zpow_add₀ two_ne_zero 53 971).symm
  have hbinade := (zpow_lt_zpow_iff_right₀ one_lt_two).mp hbelow
  rcases scale_cases num den with hs | hs <;> omega

/-- At the topmost scale a quotient is below the limit exactly if its mantissa is not carried. -/
theorem lt_overflowLimit_iff_of_top (hnum : 0 < num) (hden : 0 < den) (htop : scale num den = 971) :
    (num : ℚ) / den < overflowLimit ↔ rawMantissa num den < 2 ^ 53 := by
  have hplace : (0 : ℚ) < 2 ^ (971 : ℤ) := by positivity
  have hle := rawMantissa_le hnum hden
  have hnear := abs_rawMantissa_sub_le num hden
  have heven (htie) : Even (rawMantissa num den) := even_rawMantissa hden htie
  rw [htop] at hnear heven
  rw [overflowLimit_eq, ← div_lt_iff₀ hplace]
  generalize (num : ℚ) / den / 2 ^ (971 : ℤ) = v at hnear heven ⊢
  generalize rawMantissa num den = m at hle hnear heven ⊢
  obtain ⟨hlow, hhigh⟩ := abs_le.mp hnear
  constructor
  · intro hv
    by_contra hcarry
    obtain rfl : m = 2 ^ 53 := by omega
    push_cast at hlow hhigh
    linarith
  · intro hm
    have hm' : (m : ℚ) ≤ 2 ^ 53 - 1 := by
      have : m + 1 ≤ 2 ^ 53 := hm
      have : (m : ℚ) + 1 ≤ 2 ^ 53 := by exact_mod_cast this
      linarith
    refine lt_of_le_of_ne (by linarith) ?_
    -- The limit itself is a tie, and the odd mantissa below it does not take that.
    intro hv
    have hodd : m = 2 ^ 53 - 1 := by
      have : (2 ^ 53 - 1 : ℚ) ≤ m := by linarith
      have : (2 ^ 53 : ℚ) ≤ m + 1 := by linarith
      have : 2 ^ 53 ≤ m + 1 := by exact_mod_cast this
      omega
    have htie : |(m : ℚ) - v| = 1 / 2 := by
      rw [hv, hodd]
      norm_num
    have heven' := heven htie
    rw [hodd] at heven'
    exact absurd heven' (by decide)

/-- The exponent is in range exactly below the limit. -/
theorem exponent_le_iff (hnum : 0 < num) (hden : 0 < den) {m : ℕ} {e : ℤ}
    (he : e = scale num den ∧ m = rawMantissa num den ∨
      e = scale num den + 1 ∧ rawMantissa num den = 2 ^ 53) (hm : m < 2 ^ 53) :
    e ≤ 971 ↔ (num : ℚ) / den < overflowLimit := by
  rcases lt_trichotomy (scale num den) 971 with hscale | hscale | hscale
  · refine iff_of_true ?_ (div_lt_overflowLimit hnum hden (by omega))
    rcases he with he | he <;> omega
  · rw [lt_overflowLimit_iff_of_top hnum hden hscale]
    rcases he with he | he <;> omega
  · refine iff_of_false ?_ fun h => ?_
    · rcases he with he | he <;> omega
    · have := scale_le_of_lt hnum hden h
      omega

end Quotient

/-! ### Correct rounding -/

theorem pack_of_le (negative : Bool) {m : ℕ} {e : ℤ} (hm : m < 2 ^ 53) (hlow : -1074 ≤ e)
    (hhigh : e ≤ 971) :
    (pack negative m e).isFinite = true ∧ (pack negative m e).magnitude = m * 2 ^ e ∧
      (pack negative m e).mantissa = m := by
  have h : m < Nat.pow 2 53 ∧ -1074 ≤ e ∧ e ≤ 971 := ⟨hm, hlow, hhigh⟩
  rw [pack, dif_pos h]
  exact ⟨rfl, magnitude_finite negative m e h, rfl⟩

theorem pack_of_gt (negative : Bool) (m : ℕ) {e : ℤ} (h : 971 < e) :
    pack negative m e = infinite negative := by
  rw [pack, dif_neg fun hfit => absurd hfit.2.2 (not_le.mpr h)]

theorem overflowLimit_pos : 0 < overflowLimit := by
  rw [overflowLimit_eq]
  positivity

/-- `nearest` rounds correctly. -/
theorem nearest_rounds (negative : Bool) (num : ℕ) {den : ℕ} (hden : 0 < den) :
    Rounds (num / den) (nearest negative num den) := by
  rcases Nat.eq_zero_or_pos num with rfl | hnum
  · have hzero : nearest negative 0 den = zero negative := by
      unfold nearest
      rw [if_pos rfl]
    rw [hzero, Nat.cast_zero, zero_div]
    refine ⟨fun h => absurd h (not_le.mpr overflowLimit_pos), fun _ => rfl, ?_, fun _ _ _ _ _ => ?_⟩
    · intro _ y _
      rw [magnitude_zero, sub_self, abs_zero]
      exact abs_nonneg _
    · exact Even.zero
  · obtain ⟨m, e, hpack, hm, hlow, hvalue, heven, he⟩ := nearest_eq_pack negative hnum hden
    have hfits := exponent_le_iff hnum hden he hm
    rw [hpack]
    refine ⟨fun h => ?_, fun h => ?_, fun h y hy => ?_, fun h y hy hsame hother => ?_⟩
    · exact ⟨negative, pack_of_gt negative m (not_le.mp fun hle => absurd (hfits.mp hle) (not_lt.mpr h))⟩
    · exact (pack_of_le negative hm hlow (hfits.mpr h)).1
    · rw [(pack_of_le negative hm hlow (hfits.mpr h)).2.1, hvalue]
      exact (rawMantissa_nearest hnum hden hy).1
    · obtain ⟨-, hmagnitude, hmantissa⟩ := pack_of_le negative hm hlow (hfits.mpr h)
      rw [hmagnitude, hvalue] at hsame hother
      rw [hmantissa]
      exact heven ((rawMantissa_nearest hnum hden hy).2 hsame hother)

end Receipt.Binary64
