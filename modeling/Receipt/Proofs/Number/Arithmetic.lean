import Receipt.Proofs.Number.Nearest

/-!
# Arithmetic of doubles

Products and quotients of finite doubles are the exact ones, correctly rounded. A rounded number is off
by at most one part in `2 ^ 53`, or by half of the least double where it is tiny, and it is not off at
all if it is a double. Rounding to a whole number moves a double by at most one half.
-/

namespace Receipt.Binary64

open Number

/-! ### How far rounding is off -/

/-- A rounded quotient is off by one part in `2 ^ 53` at most, or by half of the least double. -/
theorem nearest_near (negative : Bool) (num : ℕ) {den : ℕ} (hden : 0 < den)
    (h : (num : ℚ) / den < overflowLimit) :
    |(nearest negative num den).magnitude - num / den| ≤
      max ((num : ℚ) / den / 2 ^ 53) (2 ^ (-1075 : ℤ)) := by
  rcases Nat.eq_zero_or_pos num with rfl | hnum
  · have hnear := (nearest_rounds negative 0 hden).nearest h (zero false) rfl
    rw [Nat.cast_zero, zero_div, magnitude_zero, sub_self, abs_zero] at hnear
    rw [Nat.cast_zero, zero_div]
    exact hnear.trans (le_max_of_le_right (by positivity))
  · obtain ⟨m, e, hpack, hm, hlow, hvalue, -, he⟩ := nearest_eq_pack negative hnum hden
    have hhigh := (exponent_le_iff hnum hden he hm).mpr h
    have hunit : (0 : ℚ) < 2 ^ scale num den := by positivity
    have hlast : |(rawMantissa num den : ℚ) * 2 ^ scale num den - (num : ℚ) / den| ≤
        2 ^ (scale num den - 1) := by
      have hnear := mul_le_mul_of_nonneg_right (abs_rawMantissa_sub_le num hden) hunit.le
      rw [← abs_of_pos hunit, ← abs_mul, sub_mul, abs_of_pos hunit,
        div_mul_cancel₀ _ hunit.ne'] at hnear
      rw [zpow_sub₀ two_ne_zero, zpow_one]
      linarith
    rw [hpack, (pack_of_le negative hm hlow hhigh).2.1, hvalue]
    refine hlast.trans ?_
    rcases scale_cases num den with hscale | ⟨hscale, -⟩
    · refine le_max_of_le_left ?_
      rw [le_div_iff₀ (by positivity), ← zpow_natCast, ← zpow_add₀ two_ne_zero, hscale]
      have hbinade : binade num den - 52 - 1 + ((53 : ℕ) : ℤ) = binade num den := by push_cast; ring
      rw [hbinade]
      exact (binade_le_div_lt hnum hden).1
    · refine le_max_of_le_right ?_
      rw [hscale]
      norm_num

/-- So far off at most is a correctly rounded number. -/
theorem Rounds.near {q : ℚ} {x : Binary64} (h : Rounds q x) (hq : 0 ≤ q) (hlimit : q < overflowLimit) :
    |x.magnitude - q| ≤ max (q / 2 ^ 53) (2 ^ (-1075 : ℤ)) := by
  have hquotient : ((q.num.natAbs : ℕ) : ℚ) / q.den = q := by
    rw [Nat.cast_natAbs, abs_of_nonneg (Rat.num_nonneg.mpr hq), Rat.num_div_den]
  have hrounds := nearest_rounds false q.num.natAbs q.den_pos
  have hnear := nearest_near false q.num.natAbs q.den_pos (hquotient.symm ▸ hlimit)
  rw [hquotient] at hrounds hnear
  exact (h.nearest hlimit _ (hrounds.finite hlimit)).trans hnear

theorem magnitude_lt_overflowLimit (x : Binary64) : x.magnitude < overflowLimit := by
  obtain _ | _ | ⟨negative, m, e, h⟩ := x
  · exact (by norm_num [magnitude, numerator] : magnitude nan ≤ 0).trans_lt overflowLimit_pos
  · exact (by norm_num [magnitude, numerator] : magnitude (infinite _) ≤ 0).trans_lt overflowLimit_pos
  · have hm : (m : ℚ) ≤ 2 ^ 53 - 1 := by
      have hlt : m + 1 ≤ 2 ^ 53 := h.1
      have : (m : ℚ) + 1 ≤ 2 ^ 53 := by exact_mod_cast hlt
      linarith
    have hplace : (2 : ℚ) ^ e ≤ 2 ^ (971 : ℤ) := zpow_le_zpow_right₀ one_le_two h.2.2
    have htop : (0 : ℚ) < 2 ^ (971 : ℤ) := by positivity
    rw [magnitude_finite, overflowLimit_eq]
    calc (m : ℚ) * 2 ^ e ≤ (2 ^ 53 - 1) * 2 ^ (971 : ℤ) :=
          mul_le_mul hm hplace (by positivity) (by norm_num)
      _ < (2 ^ 53 - 1 / 2) * 2 ^ (971 : ℤ) := mul_lt_mul_of_pos_right (by norm_num) htop

theorem natCast_lt_overflowLimit {n : ℕ} (h : n + 2 ^ 970 < 2 ^ 1024) : (n : ℚ) < overflowLimit := by
  rw [overflowLimit, lt_sub_iff_add_lt]
  exact_mod_cast h

theorem lt_overflowLimit {q : ℚ} (h : q ≤ 2 ^ 52) : q < overflowLimit := by
  have htop : 2 ^ 52 + 2 ^ 970 < 2 ^ 1024 := by decide +kernel
  have hlimit := natCast_lt_overflowLimit htop
  rw [Nat.cast_pow, Nat.cast_ofNat] at hlimit
  exact h.trans_lt hlimit

/-- A quotient that is a double is not rounded. -/
theorem nearest_exact (negative : Bool) {num den : ℕ} (hden : 0 < den) {y : Binary64}
    (hy : y.isFinite = true) (h : (num : ℚ) / den = y.magnitude) :
    (nearest negative num den).isFinite = true ∧
      (nearest negative num den).magnitude = num / den := by
  have hrounds := nearest_rounds negative num hden
  have hlimit : (num : ℚ) / den < overflowLimit := h ▸ y.magnitude_lt_overflowLimit
  have hnear := hrounds.nearest hlimit y hy
  rw [← h, sub_self, abs_zero] at hnear
  exact ⟨hrounds.finite hlimit, sub_eq_zero.mp (abs_nonpos_iff.mp hnear)⟩

/-- Whole numbers of 53 bits are doubles. -/
theorem nearest_whole (negative : Bool) {n : ℕ} (h : n < 2 ^ 53) :
    (nearest negative n 1).isFinite = true ∧ (nearest negative n 1).magnitude = n := by
  have hmagnitude : (finite negative n 0 ⟨h, by decide, by decide⟩).magnitude = n := by
    rw [magnitude_finite, zpow_zero, mul_one]
  have hvalue : (n : ℚ) / (1 : ℕ) = (finite negative n 0 ⟨h, by decide, by decide⟩).magnitude := by
    rw [hmagnitude, Nat.cast_one, div_one]
  have hexact := nearest_exact negative Nat.one_pos rfl hvalue
  rwa [Nat.cast_one, div_one] at hexact

/-! ### Products and quotients -/

theorem mul_eq_nearest {x y : Binary64} (hx : x.isFinite = true) (hy : y.isFinite = true) :
    x * y = nearest (x.signed != y.signed) (x.numerator * y.numerator)
      (x.denominator * y.denominator) := by
  show Binary64.mul x y = _
  have hnan : ¬ (x = nan ∨ y = nan) := by
    rintro (rfl | rfl)
    · cases hx
    · cases hy
  unfold Binary64.mul
  rw [if_neg hnan, if_pos ⟨hx, hy⟩]

theorem div_eq_nearest {x y : Binary64} (hx : x.isFinite = true) (hy : y.isFinite = true)
    (hzero : y.isZero = false) :
    x / y = nearest (x.signed != y.signed) (x.numerator * y.denominator)
      (x.denominator * y.numerator) := by
  show Binary64.div x y = _
  have hnan : ¬ (x = nan ∨ y = nan) := by
    rintro (rfl | rfl)
    · cases hx
    · cases hy
  unfold Binary64.div
  rw [if_neg hnan, if_pos hy, if_pos hx, if_neg (by rw [hzero]; decide)]

theorem magnitude_mul (x y : Binary64) : ((x.numerator * y.numerator : ℕ) : ℚ) /
    (x.denominator * y.denominator : ℕ) = x.magnitude * y.magnitude := by
  rw [Nat.cast_mul, Nat.cast_mul, ← div_mul_div_comm]
  rfl

theorem magnitude_div (x y : Binary64) : ((x.numerator * y.denominator : ℕ) : ℚ) /
    (x.denominator * y.numerator : ℕ) = x.magnitude / y.magnitude := by
  unfold magnitude
  rw [Nat.cast_mul, Nat.cast_mul, div_div_div_eq]

/-- A product of doubles is the exact product, correctly rounded. -/
theorem mul_rounds {x y : Binary64} (hx : x.isFinite = true) (hy : y.isFinite = true) :
    Rounds (x.magnitude * y.magnitude) (x * y) := by
  rw [mul_eq_nearest hx hy, ← magnitude_mul]
  exact nearest_rounds _ _ (Nat.mul_pos x.denominator_pos y.denominator_pos)

theorem numerator_pos {y : Binary64} (hy : y.isFinite = true) (hzero : y.isZero = false) :
    0 < y.numerator := by
  obtain _ | _ | ⟨negative, m, e, h⟩ := y
  · cases hy
  · cases hy
  · have hm : m ≠ 0 := by
      rintro rfl
      cases hzero
    exact Nat.mul_pos (Nat.pos_of_ne_zero hm) (pow_two_pos _)

/-- A quotient of doubles is the exact quotient, correctly rounded. -/
theorem div_rounds {x y : Binary64} (hx : x.isFinite = true) (hy : y.isFinite = true)
    (hzero : y.isZero = false) : Rounds (x.magnitude / y.magnitude) (x / y) := by
  rw [div_eq_nearest hx hy hzero, ← magnitude_div]
  exact nearest_rounds _ _ (Nat.mul_pos x.denominator_pos (numerator_pos hy hzero))

/-! ### Whole numbers -/

/-- Rounding a double to a whole number gives the double of a whole number near it. -/
theorem round_whole {x : Binary64} (hx : x.isFinite = true) :
    ∃ n : ℕ, x.round.isFinite = true ∧ x.round.magnitude = n ∧ x.round.signed = x.signed ∧
      |(n : ℚ) - x.magnitude| ≤ 1 / 2 := by
  obtain _ | _ | ⟨negative, m, e, h⟩ := x
  · cases hx
  · cases hx
  · by_cases he : 0 ≤ e
    · have hround : (finite negative m e h).round = finite negative m e h := if_pos he
      have hwhole : (finite negative m e h).magnitude = (m * 2 ^ e.toNat : ℕ) := by
        rw [magnitude_finite, Nat.cast_mul, Nat.cast_pow, Nat.cast_ofNat, ← zpow_natCast,
          Int.toNat_of_nonneg he]
      refine ⟨m * 2 ^ e.toNat, ?_, ?_, ?_, ?_⟩
      · rw [hround]
        rfl
      · rw [hround, hwhole]
      · rw [hround]
      · rw [hwhole, sub_self, abs_zero]
        norm_num
    · have hround : (finite negative m e h).round =
          nearest negative (roundHalfUp m (Nat.pow 2 (-e).toNat)) 1 := if_neg he
      have hden : 2 ≤ Nat.pow 2 (-e).toNat := Nat.le_self_pow (by omega) 2
      have hdenPos : 0 < Nat.pow 2 (-e).toNat := pow_two_pos _
      have hmagnitude : (finite negative m e h).magnitude = (m : ℚ) / (Nat.pow 2 (-e).toNat : ℕ) := by
        have hnumerator : (finite negative m e h).numerator = m := by
          have hexponent : e.toNat = 0 := by omega
          simp only [numerator, hexponent]
          exact Nat.mul_one m
        rw [magnitude, hnumerator]
        rfl
      -- Where digits stand behind the point, at most half of the mantissa stands before it.
      have hsmall : roundHalfUp m (Nat.pow 2 (-e).toNat) < 2 ^ 53 := by
        have hm : m < 2 ^ 53 := h.1
        have hround := (roundHalfUp_near m _ hdenPos).2
        by_contra hlarge
        have hmul := Nat.mul_le_mul_right (Nat.pow 2 (-e).toNat) (not_lt.mp hlarge)
        omega
      have hnear := abs_roundHalfUp_sub_le m hdenPos
      have hwhole := nearest_whole negative hsmall
      refine ⟨roundHalfUp m (Nat.pow 2 (-e).toNat), ?_, ?_, ?_, ?_⟩
      · rw [hround]
        exact hwhole.1
      · rw [hround]
        exact hwhole.2
      · rw [hround, signed_nearest]
        rfl
      · rw [hmagnitude]
        exact hnear

/-! ### Doubles next to a number -/

/-- A double than which none is nearer to a number. -/
structure IsNearest (x : Binary64) (q : ℚ) : Prop where
  finite : x.isFinite = true
  nearest : ∀ y : Binary64, y.isFinite = true → |x.value - q| ≤ |y.value - q|

/-- No double is nearer to a number than to its magnitude. -/
theorem abs_magnitude_sub_le (x : Binary64) (q : ℚ) : |x.magnitude - (|q|)| ≤ |x.value - q| := by
  rw [← abs_value]
  exact abs_abs_sub_abs_le_abs_sub x.value q

/-- With the sign of the number it is just as near. -/
theorem abs_value_sub_eq {x : Binary64} {q : ℚ} (hsign : x.signed = true ↔ q < 0) :
    |x.value - q| = |x.magnitude - (|q|)| := by
  unfold value
  by_cases hq : q < 0
  · rw [if_pos (hsign.mpr hq), abs_of_neg hq, ← abs_neg]
    congr 1
    ring
  · rw [if_neg fun hs => hq (hsign.mp hs), abs_of_nonneg (not_lt.mp hq)]

/-- A correctly rounded magnitude with the sign of a number is next to the number. -/
theorem Rounds.isNearest {q : ℚ} {x : Binary64} (h : Rounds |q| x) (hlimit : |q| < overflowLimit)
    (hsign : x.signed = true ↔ q < 0) : x.IsNearest q := by
  refine ⟨h.finite hlimit, fun y hy => ?_⟩
  rw [abs_value_sub_eq hsign]
  exact (h.nearest hlimit y hy).trans (abs_magnitude_sub_le y q)

end Receipt.Binary64
