import Receipt.Money
import Receipt.Proofs.Number.Arithmetic

/-!
# Amounts in cents

An amount is brought to whole cents by a product, a rounding and a quotient of doubles. What comes of it
is the double next to a whole number of hundredths (`toCents_of_lt`), or an infinity where the product
overflows (`toCents_of_overflow`). The text of an amount is read off from that.
-/

namespace Receipt.Money

open Binary64 Number

/-- Half of the least double is next to nothing. -/
theorem half_least_lt : (2 : ℚ) ^ (-1075 : ℤ) < 1 / 400 := by
  have hle : (2 : ℚ) ^ (-1075 : ℤ) ≤ 2 ^ (-9 : ℤ) := zpow_le_zpow_right₀ one_le_two (by norm_num)
  exact hle.trans_lt (by norm_num)

/-- A double without a minus to which a whole number of hundredths is rounded. -/
structure IsCents (x : Binary64) (cents : ℕ) : Prop where
  signed : x.signed = false
  rounds : Rounds ((cents : ℚ) / 100) x
  inRange : (cents : ℚ) / 100 < overflowLimit

namespace IsCents

variable {x : Binary64} {cents : ℕ}

theorem finite (h : IsCents x cents) : x.isFinite = true :=
  h.rounds.finite h.inRange

theorem near (h : IsCents x cents) :
    |x.magnitude - cents / 100| ≤ max ((cents : ℚ) / 100 / 2 ^ 53) (2 ^ (-1075 : ℤ)) :=
  h.rounds.near (by positivity) h.inRange

/-- The double is zero exactly if there are no cents. -/
theorem isPositive_iff (h : IsCents x cents) : x.isPositive = true ↔ 0 < cents := by
  rw [Binary64.isPositive_iff h.finite h.signed]
  rcases Nat.eq_zero_or_pos cents with rfl | hcents
  · have hzero := h.rounds.nearest h.inRange (zero false) rfl
    rw [magnitude_zero, Nat.cast_zero, zero_div, sub_zero, sub_zero, abs_zero, abs_nonpos_iff] at hzero
    rw [hzero]
    exact iff_of_false (lt_irrefl _) (lt_irrefl _)
  · refine iff_of_true ?_ hcents
    have hone : (1 : ℚ) ≤ cents := by exact_mod_cast hcents
    have hoff : max ((cents : ℚ) / 100 / 2 ^ 53) (2 ^ (-1075 : ℤ)) < (cents : ℚ) / 100 := by
      refine max_lt (div_lt_self (by positivity) (by norm_num)) (half_least_lt.trans ?_)
      linarith
    have hnear := (abs_le.mp h.near).1
    linarith

end IsCents

/-! ### The steps to cents -/

theorem isFinite_hundred : (ofNat 100).isFinite = true := (nearest_whole false (by decide)).1

theorem magnitude_hundred : (ofNat 100).magnitude = 100 :=
  (nearest_whole false (show 100 < 2 ^ 53 by decide)).2

theorem signed_hundred : (ofNat 100).signed = false := signed_nearest false 100 1

theorem isZero_hundred : (ofNat 100).isZero = false := by
  rw [← magnitude_pos_iff isFinite_hundred, magnitude_hundred]
  norm_num

/-- The product with one hundred is rounded correctly. -/
theorem product_rounds {x : Binary64} (hx : x.isFinite = true) :
    Rounds (x.magnitude * 100) (x.abs * ofNat 100) := by
  rw [← magnitude_abs x, ← magnitude_hundred]
  exact mul_rounds (x.isFinite_abs.trans hx) isFinite_hundred

theorem signed_product {x : Binary64} (hx : x.isFinite = true) :
    (x.abs * ofNat 100).signed = false := by
  rw [mul_eq_nearest (x.isFinite_abs.trans hx) isFinite_hundred, signed_nearest, signed_abs,
    signed_hundred]
  rfl

/-- An amount whose product with one hundred overflows has infinitely many cents. -/
theorem toCents_of_overflow {x : Binary64} (hx : x.isFinite = true)
    (h : overflowLimit ≤ x.magnitude * 100) : toCents x = infinite false := by
  obtain ⟨negative, hproduct⟩ := (product_rounds hx).overflow h
  have hsigned := signed_product hx
  rw [hproduct] at hsigned
  obtain rfl : negative = false := hsigned
  unfold toCents
  rw [hproduct]
  rfl

/-- Any other amount is brought to a whole number of cents near the product. -/
theorem toCents_of_lt {x : Binary64} (hx : x.isFinite = true)
    (h : x.magnitude * 100 < overflowLimit) :
    ∃ (product : ℚ) (cents : ℕ), IsCents (toCents x) cents ∧ |cents - product| ≤ 1 / 2 ∧
      |product - x.magnitude * 100| ≤ max (x.magnitude * 100 / 2 ^ 53) (2 ^ (-1075 : ℤ)) := by
  have hrounds := product_rounds hx
  have hnear := hrounds.near (by have := x.magnitude_nonneg; positivity) h
  obtain ⟨cents, hfinite, hwhole, hsigned, hhalf⟩ := round_whole (hrounds.finite h)
  refine ⟨_, cents, ⟨?_, ?_, ?_⟩, hhalf, hnear⟩
  · unfold toCents
    rw [div_eq_nearest hfinite isFinite_hundred isZero_hundred, signed_nearest, hsigned,
      signed_product hx, signed_hundred]
    rfl
  · rw [← hwhole, ← magnitude_hundred]
    exact div_rounds hfinite isFinite_hundred isZero_hundred
  · have hcents : (cents : ℚ) < overflowLimit := hwhole ▸ magnitude_lt_overflowLimit _
    have hnonneg : (0 : ℚ) ≤ cents := Nat.cast_nonneg cents
    linarith

/-! ### Texts of cents -/

theorem twoPlaces_of_finite {x : Binary64} (hx : x.isFinite = true) (hsigned : x.signed = false) :
    twoPlaces x = hundredths (toHundredths x) := by
  obtain _ | _ | ⟨negative, m, e, h⟩ := x
  · cases hx
  · cases hx
  · obtain rfl : negative = false := hsigned
    exact String.empty_append

theorem hundred_magnitude (x : Binary64) :
    ((x.numerator * 100 : ℕ) : ℚ) / x.denominator = x.magnitude * 100 := by
  unfold magnitude
  rw [Nat.cast_mul, Nat.cast_ofNat, mul_div_right_comm]

/-- Two places are off by half of the last one at most. -/
theorem abs_toHundredths_sub_le (x : Binary64) :
    |(toHundredths x : ℚ) - x.magnitude * 100| ≤ 1 / 2 := by
  rw [← hundred_magnitude]
  exact abs_roundHalfEven_sub_le _ x.denominator_pos

/-- Halfway between two hundredths the even one is written. -/
theorem even_toHundredths {x : Binary64} (htie : |(toHundredths x : ℚ) - x.magnitude * 100| = 1 / 2) :
    Even (toHundredths x) := by
  rw [← hundred_magnitude] at htie
  exact even_roundHalfEven x.denominator_pos htie

/-- Cents of up to 52 binary digits are written as they are. -/
theorem IsCents.toHundredths {x : Binary64} {cents : ℕ} (h : IsCents x cents) (hsmall : cents < 2 ^ 52) :
    toHundredths x = cents := by
  have hsmall' : (cents : ℚ) < 2 ^ 52 := by exact_mod_cast hsmall
  have hnear := abs_le.mp h.near
  have hmax : max ((cents : ℚ) / 100 / 2 ^ 53) (2 ^ (-1075 : ℤ)) < 1 / 200 := by
    refine max_lt ?_ (half_least_lt.trans (by norm_num))
    rw [div_div, div_lt_iff₀ (by positivity)]
    linarith
  refine roundHalfEven_eq_of_near x.denominator_pos ?_
  rw [hundred_magnitude, abs_lt]
  constructor <;> linarith

theorem text?_eq_none_iff (x : Binary64) : text? x = none ↔ x.isFinite = false := by
  unfold text?
  cases x.isFinite <;> simp

theorem isFinite_of_text? {x : Binary64} {text : String} (h : text? x = some text) :
    x.isFinite = true := by
  cases hfinite : x.isFinite with
  | false => cases ((text?_eq_none_iff x).mpr hfinite).symm.trans h
  | true => rfl

theorem text?_of_finite {x : Binary64} (hx : x.isFinite = true) :
    text? x = some ((if x.isNegative ∧ (toCents x).isPositive then "-" else "") ++ "$" ++
      twoPlaces (toCents x)) := by
  unfold text?
  rw [if_pos hx]

/-- An amount of infinitely many cents is written as such. -/
theorem text?_of_overflow {x : Binary64} (hx : x.isFinite = true)
    (h : overflowLimit ≤ x.magnitude * 100) :
    text? x = some (if x.value < 0 then "-$inf" else "$inf") := by
  rw [text?_of_finite hx, toCents_of_overflow hx h]
  have hpositive : (infinite false).isPositive = true := rfl
  simp only [hpositive, and_true, isNegative_iff hx]
  split <;> rfl

end Receipt.Money
