import Mathlib.Algebra.Order.Field.Power
import Mathlib.Data.Nat.Cast.Order.Field
import Mathlib.Data.Rat.Cast.Order
import Mathlib.Tactic.FieldSimp
import Mathlib.Tactic.Linarith
import Mathlib.Tactic.Positivity
import Mathlib.Tactic.Ring
import Receipt.Number.Binary64

/-!
# Doubles as rationals

A finite double is a rational number, its sign and its magnitude. This file gives both, the magnitude as
a multiple of a power of two, and says how near the two roundings of quotients come and in which binade
a quotient lies.
-/

namespace Receipt

namespace Number

/-! ### Rounded quotients -/

theorem abs_sub_div_eq (n a : ℕ) {d : ℕ} (h : 0 < d) :
    |(n : ℚ) - a / d| = |(n * d : ℚ) - a| / d := by
  have hd : (0 : ℚ) < d := by exact_mod_cast h
  have hsplit : (n : ℚ) - a / d = (n * d - a) / d := by field_simp
  rw [hsplit, abs_div, abs_of_pos hd]

theorem abs_sub_div_le_half {n a d : ℕ} (h : 0 < d)
    (hnear : 2 * a ≤ 2 * (n * d) + d ∧ 2 * (n * d) ≤ 2 * a + d) : |(n : ℚ) - a / d| ≤ 1 / 2 := by
  have hd : (0 : ℚ) < d := by exact_mod_cast h
  have hlow : (2 * a : ℚ) ≤ 2 * (n * d) + d := by exact_mod_cast hnear.1
  have hhigh : (2 * (n * d) : ℚ) ≤ 2 * a + d := by exact_mod_cast hnear.2
  rw [abs_sub_div_eq n a h, div_le_iff₀ hd, abs_le]
  constructor <;> linarith

theorem abs_roundHalfEven_sub_le (a : ℕ) {d : ℕ} (h : 0 < d) :
    |(roundHalfEven a d : ℚ) - a / d| ≤ 1 / 2 :=
  abs_sub_div_le_half h (roundHalfEven_near a d h)

theorem abs_roundHalfUp_sub_le (a : ℕ) {d : ℕ} (h : 0 < d) :
    |(roundHalfUp a d : ℚ) - a / d| ≤ 1 / 2 :=
  abs_sub_div_le_half h (roundHalfUp_near a d h)

/-- Halfway between two numbers the even one is taken. -/
theorem even_roundHalfEven {a d : ℕ} (h : 0 < d)
    (htie : |(roundHalfEven a d : ℚ) - a / d| = 1 / 2) : Even (roundHalfEven a d) := by
  have hd : (0 : ℚ) < d := by exact_mod_cast h
  have htie' : 2 * a = 2 * (roundHalfEven a d * d) + d ∨ 2 * (roundHalfEven a d * d) = 2 * a + d := by
    rw [abs_sub_div_eq _ a h, div_eq_iff hd.ne', abs_eq (by positivity)] at htie
    rcases htie with htie | htie
    · right
      have : (2 * (roundHalfEven a d * d) : ℚ) = 2 * a + d := by linarith
      exact_mod_cast this
    · left
      have : (2 * a : ℚ) = 2 * (roundHalfEven a d * d) + d := by linarith
      exact_mod_cast this
  have hsplit := Nat.div_add_mod a d
  have hsmall := Nat.mod_lt a h
  rw [Nat.mul_comm] at hsplit
  unfold roundHalfEven at htie' ⊢
  dsimp only at htie' ⊢
  rw [Nat.even_iff]
  split
  case isTrue hbelow =>
    rw [if_pos hbelow] at htie'
    omega
  case isFalse hbelow =>
    rw [if_neg hbelow, Nat.add_mul, Nat.one_mul] at htie'
    omega

/-- The nearest whole number is what a quotient close to it is rounded to. -/
theorem roundHalfEven_eq_of_near {n a d : ℕ} (h : 0 < d) (hnear : |(n : ℚ) - a / d| < 1 / 2) :
    roundHalfEven a d = n := by
  have hround := abs_le.mp (abs_roundHalfEven_sub_le a h)
  have hnear := abs_lt.mp hnear
  have hlow : (roundHalfEven a d : ℚ) < n + 1 := by linarith
  have hhigh : (n : ℚ) < roundHalfEven a d + 1 := by linarith
  have hlow' : roundHalfEven a d < n + 1 := by exact_mod_cast hlow
  have hhigh' : n < roundHalfEven a d + 1 := by exact_mod_cast hhigh
  omega

end Number

namespace Binary64

/-! ### Powers of two -/

theorem two_zpow_eq (e : ℤ) :
    (2 : ℚ) ^ e = (Nat.pow 2 e.toNat : ℕ) / (Nat.pow 2 (-e).toNat : ℕ) := by
  rw [Nat.pow_eq, Nat.pow_eq, Nat.cast_pow, Nat.cast_pow, Nat.cast_ofNat]
  rcases le_total 0 e with he | he
  · have hneg : (-e).toNat = 0 := by omega
    rw [hneg, pow_zero, div_one, ← zpow_natCast, Int.toNat_of_nonneg he]
  · have hpos : e.toNat = 0 := by omega
    rw [hpos, pow_zero, one_div, ← zpow_natCast, Int.toNat_of_nonneg (by omega), zpow_neg, inv_inv]

theorem pow_two_pos (n : ℕ) : 0 < Nat.pow 2 n := Nat.two_pow_pos n

/-- A comparison of two shifted numbers is one of their quotient with a power of two. -/
theorem shifted_lt_iff (num : ℕ) {den : ℕ} (h : 0 < den) (e : ℤ) :
    num * Nat.pow 2 (-e).toNat < den * Nat.pow 2 e.toNat ↔ (num : ℚ) / den < 2 ^ e := by
  have hden : (0 : ℚ) < den := by exact_mod_cast h
  have hlow : (0 : ℚ) < (Nat.pow 2 (-e).toNat : ℕ) := by exact_mod_cast pow_two_pos _
  rw [two_zpow_eq, div_lt_div_iff₀ hden hlow, ← Nat.cast_mul, ← Nat.cast_mul, Nat.cast_lt,
    Nat.mul_comm den]

/-- A number shifted to an exponent is divided by the power of two. -/
theorem shifted_div_eq (num den : ℕ) (e : ℤ) :
    ((num * Nat.pow 2 (-e).toNat : ℕ) : ℚ) / (den * Nat.pow 2 e.toNat : ℕ) =
      (num : ℚ) / den / 2 ^ e := by
  rw [two_zpow_eq, Nat.cast_mul, Nat.cast_mul, div_div_eq_mul_div, div_mul_eq_mul_div, div_div]

/-! ### Values -/

/-- The magnitude of a finite double. -/
def magnitude (x : Binary64) : ℚ :=
  x.numerator / x.denominator

/-- The number that a finite double is. -/
def value (x : Binary64) : ℚ :=
  if x.signed then -x.magnitude else x.magnitude

theorem magnitude_finite (negative : Bool) (m : ℕ) (e : ℤ)
    (h : m < Nat.pow 2 53 ∧ -1074 ≤ e ∧ e ≤ 971) :
    (finite negative m e h).magnitude = m * 2 ^ e := by
  rw [two_zpow_eq]
  simp only [magnitude, numerator, denominator, Nat.cast_mul, mul_div_assoc]

/-- The greatest double has a mantissa of 53 bits, shifted by 971. -/
theorem numerator_lt (x : Binary64) : x.numerator < 2 ^ (53 + 971) := by
  obtain _ | _ | ⟨negative, m, e, hm, -, he⟩ := x
  · exact pow_pos two_pos (53 + 971)
  · exact pow_pos two_pos (53 + 971)
  · have hshift : 2 ^ e.toNat ≤ 2 ^ 971 := pow_le_pow_right₀ one_le_two (by omega)
    calc m * 2 ^ e.toNat ≤ m * 2 ^ 971 := Nat.mul_le_mul_left m hshift
      _ < 2 ^ 53 * 2 ^ 971 := Nat.mul_lt_mul_of_pos_right hm (pow_pos two_pos 971)
      _ = 2 ^ (53 + 971) := (pow_add 2 53 971).symm

theorem magnitude_nonneg (x : Binary64) : 0 ≤ x.magnitude := by
  unfold magnitude
  positivity

theorem magnitude_le_of_numerator_le {x : Binary64} {n : ℕ} (h : x.numerator ≤ n * x.denominator) :
    x.magnitude ≤ n := by
  have hden : (0 : ℚ) < x.denominator := by exact_mod_cast x.denominator_pos
  rw [magnitude, div_le_iff₀ hden]
  exact_mod_cast h

theorem abs_value (x : Binary64) : |x.value| = x.magnitude := by
  unfold value
  split
  · rw [abs_neg, abs_of_nonneg x.magnitude_nonneg]
  · exact abs_of_nonneg x.magnitude_nonneg

theorem value_of_neg {x : Binary64} (h : x.value < 0) : x.value = -x.magnitude := by
  rw [← abs_value, abs_of_neg h, neg_neg]

theorem value_of_nonneg {x : Binary64} (h : ¬ x.value < 0) : x.value = x.magnitude := by
  rw [← abs_value, abs_of_nonneg (not_lt.mp h)]

@[simp] theorem magnitude_zero (negative : Bool) : (zero negative).magnitude = 0 := by
  unfold zero
  rw [magnitude_finite, Nat.cast_zero, zero_mul]

/-! ### Signs -/

theorem isFinite_abs (x : Binary64) : x.abs.isFinite = x.isFinite := by
  cases x <;> rfl

theorem magnitude_abs (x : Binary64) : x.abs.magnitude = x.magnitude := by
  cases x <;> rfl

theorem signed_abs (x : Binary64) : x.abs.signed = false := by
  cases x <;> rfl

theorem isFinite_neg (x : Binary64) : (-x).isFinite = x.isFinite := by
  cases x <;> rfl

theorem abs_opposite (x : Binary64) : (-x).abs = x.abs := by
  cases x <;> rfl

theorem value_neg {x : Binary64} (hx : x.isFinite = true) : (-x).value = -x.value := by
  have hmagnitude : (-x).magnitude = x.magnitude := by
    rw [← magnitude_abs, abs_opposite, magnitude_abs]
  unfold value
  rw [hmagnitude]
  obtain _ | _ | ⟨negative, m, e, h⟩ := x
  · cases hx
  · cases hx
  · cases negative with
    | false => rfl
    | true => exact (neg_neg _).symm

theorem isZero_iff {x : Binary64} (hx : x.isFinite = true) : x.isZero = true ↔ x.magnitude = 0 := by
  obtain _ | _ | ⟨negative, m, e, h⟩ := x
  · cases hx
  · cases hx
  · have hunit : (2 : ℚ) ^ e ≠ 0 := by positivity
    rw [magnitude_finite, mul_eq_zero, or_iff_left hunit, Nat.cast_eq_zero]
    exact beq_iff_eq

theorem magnitude_pos_iff {x : Binary64} (hx : x.isFinite = true) :
    0 < x.magnitude ↔ x.isZero = false := by
  rw [← Bool.not_eq_true, isZero_iff hx, x.magnitude_nonneg.lt_iff_ne, ne_comm]

theorem isNegative_iff {x : Binary64} (hx : x.isFinite = true) : x.isNegative = true ↔ x.value < 0 := by
  unfold isNegative value
  rw [Bool.and_eq_true, Bool.not_eq_true', ← magnitude_pos_iff hx]
  cases x.signed with
  | false => exact iff_of_false (fun h => Bool.false_ne_true h.1) (not_lt.mpr x.magnitude_nonneg)
  | true =>
    rw [if_pos rfl, neg_lt_zero]
    exact and_iff_right rfl

theorem isPositive_iff {x : Binary64} (hx : x.isFinite = true) (hsigned : x.signed = false) :
    x.isPositive = true ↔ 0 < x.magnitude := by
  rw [magnitude_pos_iff hx]
  obtain _ | _ | ⟨negative, m, e, h⟩ := x
  · cases hx
  · cases hx
  · obtain rfl : negative = false := hsigned
    show (!false && !(m == 0)) = true ↔ (m == 0) = false
    rw [Bool.not_false, Bool.true_and, Bool.not_eq_true']

theorem value_pos_iff {x : Binary64} (hx : x.isFinite = true) : 0 < x.value ↔ x.isPositive = true := by
  unfold value
  cases hsigned : x.signed with
  | false => rw [if_neg Bool.false_ne_true, isPositive_iff hx hsigned]
  | true =>
    have hnot : x.isPositive = false := by
      obtain _ | _ | ⟨negative, m, e, h⟩ := x
      · rfl
      · cases hx
      · obtain rfl : negative = true := hsigned
        rfl
    rw [if_pos rfl, neg_pos, hnot]
    exact iff_of_false (not_lt.mpr x.magnitude_nonneg) Bool.false_ne_true

/-! ### Binades -/

theorem log2_quotient {num den : ℕ} (hnum : 0 < num) (hden : 0 < den) :
    (2 : ℚ) ^ ((num.log2 : ℤ) - den.log2 - 1) < num / den ∧
      (num : ℚ) / den < 2 ^ ((num.log2 : ℤ) - den.log2 + 1) := by
  have hden' : (0 : ℚ) < den := by exact_mod_cast hden
  have hnumLow : (2 : ℚ) ^ (num.log2 : ℤ) ≤ num := by
    exact_mod_cast Nat.log2_self_le hnum.ne'
  have hnumHigh : (num : ℚ) < 2 ^ ((num.log2 : ℤ) + 1) := by
    exact_mod_cast Nat.lt_log2_self
  have hdenLow : (2 : ℚ) ^ (den.log2 : ℤ) ≤ den := by
    exact_mod_cast Nat.log2_self_le hden.ne'
  have hdenHigh : (den : ℚ) < 2 ^ ((den.log2 : ℤ) + 1) := by
    exact_mod_cast Nat.lt_log2_self
  rw [lt_div_iff₀ hden', div_lt_iff₀ hden']
  constructor
  · calc (2 : ℚ) ^ ((num.log2 : ℤ) - den.log2 - 1) * den
        < 2 ^ ((num.log2 : ℤ) - den.log2 - 1) * 2 ^ ((den.log2 : ℤ) + 1) := by gcongr
      _ = 2 ^ (num.log2 : ℤ) := by rw [← zpow_add₀ two_ne_zero]; congr 1; ring
      _ ≤ num := hnumLow
  · calc (num : ℚ) < 2 ^ ((num.log2 : ℤ) + 1) := hnumHigh
      _ = 2 ^ ((num.log2 : ℤ) - den.log2 + 1) * 2 ^ (den.log2 : ℤ) := by
        rw [← zpow_add₀ two_ne_zero]; congr 1; ring
      _ ≤ 2 ^ ((num.log2 : ℤ) - den.log2 + 1) * den := by gcongr

/-- A quotient lies between the power of two of its binade and the next one. -/
theorem binade_le_div_lt {num den : ℕ} (hnum : 0 < num) (hden : 0 < den) :
    (2 : ℚ) ^ binade num den ≤ num / den ∧ (num : ℚ) / den < 2 ^ (binade num den + 1) := by
  have hguess := log2_quotient hnum hden
  unfold binade
  dsimp only
  split
  case isTrue hbelow =>
    rw [shifted_lt_iff num hden] at hbelow
    rw [sub_add_cancel]
    exact ⟨hguess.1.le, hbelow⟩
  case isFalse hbelow =>
    rw [shifted_lt_iff num hden] at hbelow
    exact ⟨not_lt.mp hbelow, hguess.2⟩

end Binary64

end Receipt
