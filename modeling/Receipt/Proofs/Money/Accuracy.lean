import Receipt.Proofs.Money.Form

/-!
# Accuracy of amounts

An amount of up to ten trillions is written to the nearest cent, but for one part in `2 ^ 53` of itself:
the product with one hundred is rounded before its cents are. The roundings of the quotient and of the two
places change nothing then. So a double next to a whole number of cents is written as just that number.
-/

namespace Receipt.Money

open Binary64 Number

variable {x : Binary64} {cents : ℕ}

/-- A number of cents with the sign of an amount. -/
def signedAs (x : Binary64) (cents : ℕ) : ℤ :=
  if x.value < 0 then -cents else cents

theorem natAbs_signedAs (x : Binary64) (cents : ℕ) : (signedAs x cents).natAbs = cents := by
  unfold signedAs
  split <;> omega

theorem signedAs_neg_iff : signedAs x cents < 0 ↔ x.value < 0 ∧ 0 < cents := by
  unfold signedAs
  split
  case isTrue h =>
    rw [and_iff_right h]
    omega
  case isFalse h =>
    rw [iff_false_right fun hneg => h hneg.1]
    omega

theorem abs_signedAs_sub_value (x : Binary64) (cents : ℕ) :
    |(signedAs x cents : ℚ) / 100 - x.value| = |(cents : ℚ) / 100 - x.magnitude| := by
  unfold signedAs
  split
  case isTrue h =>
    rw [value_of_neg h, ← abs_neg]
    congr 1
    push_cast
    ring
  case isFalse h =>
    rw [value_of_nonneg h]
    rfl

/-- The text of an amount is that of its cents. -/
theorem text?_of_isCents (hx : x.isFinite = true) (h : IsCents (toCents x) cents)
    (hsmall : cents < 2 ^ 52) : text? x = some (ofCents (signedAs x cents)) := by
  rw [text?_of_finite hx, twoPlaces_of_finite h.finite h.signed, h.toHundredths hsmall, ofCents_eq,
    natAbs_signedAs]
  simp only [isNegative_iff hx, h.isPositive_iff, signedAs_neg_iff]

/-- Cents are off by one half at most and by the rounding of the product. Where that is the rounding of a
tiny number, there are no cents. -/
theorem abs_cents_sub_le {q product : ℚ} (hhalf : |(cents : ℚ) - product| ≤ 1 / 2)
    (hproduct : |product - q| ≤ max (q / 2 ^ 53) (2 ^ (-1075 : ℤ))) (hq : 0 ≤ q) :
    |(cents : ℚ) - q| ≤ 1 / 2 + q / 2 ^ 53 := by
  have htiny := half_least_lt
  rcases lt_or_ge q (1 / 4) with hsmall | hlarge
  · have hoff : max (q / 2 ^ 53) (2 ^ (-1075 : ℤ)) < 1 / 8 := by
      refine max_lt ?_ (htiny.trans (by norm_num))
      rw [div_lt_iff₀ (by positivity)]
      linarith
    have hlow := (abs_le.mp hhalf).2
    have hhigh := (abs_le.mp hproduct).2
    have hone : (cents : ℚ) < 1 := by linarith
    obtain rfl : cents = 0 := Nat.lt_one_iff.mp (by exact_mod_cast hone)
    have hpart : 0 ≤ q / 2 ^ 53 := by positivity
    rw [Nat.cast_zero, zero_sub, abs_neg, abs_of_nonneg hq]
    linarith
  · have hleast : (2 : ℚ) ^ (-1075 : ℤ) ≤ q / 2 ^ 53 := by
      have hle : (2 : ℚ) ^ (-1075 : ℤ) ≤ 2 ^ (-55 : ℤ) := zpow_le_zpow_right₀ one_le_two (by norm_num)
      refine hle.trans ?_
      rw [le_div_iff₀ (by positivity)]
      exact le_trans (by norm_num) hlarge
    rw [max_eq_left hleast] at hproduct
    calc |(cents : ℚ) - q| ≤ |(cents : ℚ) - product| + |product - q| := abs_sub_le _ _ _
      _ ≤ 1 / 2 + q / 2 ^ 53 := add_le_add hhalf hproduct

/-- An amount is written as a whole number of cents that is near it. -/
theorem text?_near (hx : x.isFinite = true) (h : |x.value| ≤ 10 ^ 13 + 1) :
    ∃ cents : ℤ, text? x = some (ofCents cents) ∧
      |(cents : ℚ) / 100 - x.value| ≤ 1 / 200 + |x.value| / 2 ^ 53 := by
  have hnonneg := x.magnitude_nonneg
  rw [abs_value] at h ⊢
  obtain ⟨product, cents, hcents, hhalf, hproduct⟩ :=
    toCents_of_lt hx (lt_overflowLimit (by linarith))
  have hnear := abs_cents_sub_le hhalf hproduct (by linarith)
  have hsmall : cents < 2 ^ 52 := by
    have hhigh := (abs_le.mp hnear).2
    have : (cents : ℚ) < 2 ^ 52 := by linarith
    exact_mod_cast this
  refine ⟨signedAs x cents, text?_of_isCents hx hcents hsmall, ?_⟩
  rw [abs_signedAs_sub_value]
  have hscale : (cents : ℚ) / 100 - x.magnitude = (cents - x.magnitude * 100) / 100 := by ring
  rw [hscale, abs_div, abs_of_pos (by norm_num : (0 : ℚ) < 100), div_le_iff₀ (by norm_num)]
  linarith

/-! ### Doubles next to cents -/

theorem abs_hundredths_le {n : ℤ} (h : |n| ≤ 10 ^ 15) : |(n : ℚ) / 100| ≤ 10 ^ 13 := by
  have hn : |(n : ℚ)| ≤ 10 ^ 15 := by exact_mod_cast h
  rw [abs_div, abs_of_pos (by norm_num : (0 : ℚ) < 100), div_le_iff₀ (by norm_num)]
  linarith

theorem nearest_hundredths_rounds (n : ℤ) :
    Rounds |(n : ℚ) / 100| (nearest (n < 0) n.natAbs 100) := by
  have hquotient : ((n.natAbs : ℕ) : ℚ) / ((100 : ℕ) : ℚ) = |(n : ℚ) / 100| := by
    rw [Nat.cast_natAbs, abs_div, Int.cast_abs]
    norm_num
  rw [← hquotient]
  exact nearest_rounds (n < 0) n.natAbs (by decide)

theorem signed_nearest_hundredths (n : ℤ) :
    (nearest (n < 0) n.natAbs 100).signed = true ↔ (n : ℚ) / 100 < 0 := by
  rw [signed_nearest, decide_eq_true_eq, div_lt_iff₀ (by norm_num), zero_mul, Int.cast_lt_zero]

/-- `nearest` gives the double next to a number of cents. -/
theorem isNearest_nearest {n : ℤ} (h : |n| ≤ 10 ^ 15) :
    (nearest (n < 0) n.natAbs 100).IsNearest (n / 100) :=
  (nearest_hundredths_rounds n).isNearest
    (lt_overflowLimit ((abs_hundredths_le h).trans (by norm_num))) (signed_nearest_hundredths n)

/-- The double next to a number of cents is off by a quarter of a cent at most. -/
theorem abs_value_sub_hundredths_le {n : ℤ} (hn : |n| ≤ 10 ^ 15) (h : x.IsNearest (n / 100)) :
    |x.value - n / 100| ≤ 1 / 400 := by
  have hle := abs_hundredths_le hn
  have hlimit : |(n : ℚ) / 100| < overflowLimit := lt_overflowLimit (hle.trans (by norm_num))
  have hnear := (nearest_hundredths_rounds n).near (abs_nonneg _) hlimit
  calc |x.value - n / 100| ≤ |(nearest (n < 0) n.natAbs 100).value - n / 100| :=
        h.nearest _ (isNearest_nearest hn).finite
    _ = |(nearest (n < 0) n.natAbs 100).magnitude - (|(n : ℚ) / 100|)| :=
        abs_value_sub_eq (signed_nearest_hundredths n)
    _ ≤ max (|(n : ℚ) / 100| / 2 ^ 53) (2 ^ (-1075 : ℤ)) := hnear
    _ ≤ 1 / 400 := by
      refine max_le ?_ half_least_lt.le
      rw [div_le_iff₀ (by positivity)]
      exact hle.trans (by norm_num)

/-- An amount next to a number of cents is written as that number. -/
theorem text?_of_isNearest {n : ℤ} (hn : |n| ≤ 10 ^ 15) (h : x.IsNearest (n / 100)) :
    text? x = some (ofCents n) := by
  have hsmall : |(n : ℚ)| ≤ 10 ^ 15 := by exact_mod_cast hn
  have hoff := abs_le.mp (abs_value_sub_hundredths_le hn h)
  have hn' := abs_le.mp hsmall
  have hx : |x.value| ≤ 10 ^ 13 + 1 := by
    rw [abs_le]
    constructor <;> linarith
  obtain ⟨cents, htext, hnear⟩ := text?_near h.finite hx
  have hpart : |x.value| / 2 ^ 53 ≤ 1 / 500 := by
    rw [div_le_iff₀ (by positivity)]
    linarith
  have hnear' := abs_le.mp hnear
  have hlow : (n : ℚ) - 1 < cents := by linarith
  have hhigh : (cents : ℚ) < n + 1 := by linarith
  have hlow' : n - 1 < cents := by exact_mod_cast hlow
  have hhigh' : cents < n + 1 := by exact_mod_cast hhigh
  obtain rfl : cents = n := by omega
  exact htext

/-- Every amount of up to ten trillions is written as a whole number of cents that is off by at most half
a cent and one part in `2 ^ 53` of the amount. There is a double next to every number of cents of up to
`10 ^ 15`, and each such double is written as just that number. -/
theorem amounts_are_accurate_to_the_cent :
    (∀ x : Binary64, x.isFinite = true → |x.value| ≤ 10 ^ 13 →
      ∃ (text : String) (cents : ℤ), text? x = some text ∧ Shows text cents ∧
        |(cents : ℚ) / 100 - x.value| ≤ 5 / 1000 + |x.value| / 2 ^ 53) ∧
    ∀ n : ℤ, |n| ≤ 10 ^ 15 →
      (nearest (n < 0) n.natAbs 100).IsNearest (n / 100) ∧
      ∀ x : Binary64, x.IsNearest (n / 100) → text? x = some (ofCents n) := by
  constructor
  · intro x hx hsmall
    obtain ⟨cents, htext, hnear⟩ := text?_near hx (by linarith)
    refine ⟨ofCents cents, cents, htext, shows_ofCents cents, ?_⟩
    linarith
  · intro n hn
    exact ⟨isNearest_nearest hn, fun x hx => text?_of_isNearest hn hx⟩

/-- The double next to 2.675 is less than that; its product with one hundred is rounded up to 267.5. -/
theorem half_a_cent_is_rounded_up :
    (ofDecimal false 2675 (-3)).isFinite = true ∧ |(ofDecimal false 2675 (-3)).value| ≤ 10 ^ 13 ∧
      text? (ofDecimal false 2675 (-3)) = some "$2.68" ∧
      (∃ (text : String) (cents : ℤ), text? (ofDecimal false 2675 (-3)) = some text ∧
        Shows text cents ∧ |(cents : ℚ) / 100 - (ofDecimal false 2675 (-3)).value| ≤
          5 / 1000 + |(ofDecimal false 2675 (-3)).value| / 2 ^ 53) ∧
      |(-1999 : ℤ)| ≤ 10 ^ 15 ∧ (nearest true 1999 100).IsNearest ((-1999 : ℤ) / 100) ∧
      text? (nearest true 1999 100) = some (ofCents (-1999)) ∧ ofCents (-1999) = "-$19.99" := by
  have hfinite : (ofDecimal false 2675 (-3)).isFinite = true := by decide +kernel
  have hle : (ofDecimal false 2675 (-3)).numerator ≤
      10 ^ 13 * (ofDecimal false 2675 (-3)).denominator := by decide +kernel
  have hsmall : |(ofDecimal false 2675 (-3)).value| ≤ 10 ^ 13 := by
    rw [abs_value]
    exact_mod_cast magnitude_le_of_numerator_le hle
  have hcents : |(-1999 : ℤ)| ≤ 10 ^ 15 := by decide
  have hnext := amounts_are_accurate_to_the_cent.2 (-1999) hcents
  exact ⟨hfinite, hsmall, by decide +kernel,
    amounts_are_accurate_to_the_cent.1 _ hfinite hsmall, hcents, hnext.1,
    hnext.2 _ hnext.1, by decide +kernel⟩

end Receipt.Money
