/-!
# Rounding quotients

A quotient of natural numbers brought to the nearest natural number. The two functions differ only on
ties. All other rounding of this library goes through them.
-/

namespace Receipt.Number

/-- The natural number nearest to `num / den`; a tie goes to the even neighbour. -/
def roundHalfEven (num den : Nat) : Nat :=
  let below := num / den
  let doubled := 2 * (num % den)
  if doubled < den ∨ (doubled = den ∧ below % 2 = 0) then below else below + 1

/-- The natural number nearest to `num / den`; a tie goes up. -/
def roundHalfUp (num den : Nat) : Nat :=
  (2 * num + den) / (2 * den)

/-- Twice the distance to the result is at most the divisor. -/
theorem roundHalfEven_near (num den : Nat) (h : 0 < den) :
    2 * num ≤ 2 * (roundHalfEven num den * den) + den ∧
      2 * (roundHalfEven num den * den) ≤ 2 * num + den := by
  have split := Nat.div_add_mod num den
  have small := Nat.mod_lt num h
  rw [Nat.mul_comm] at split
  unfold roundHalfEven
  dsimp only
  split
  · omega
  · rw [Nat.add_mul, Nat.one_mul]
    omega

/-- Twice the distance to the result is at most the divisor. -/
theorem roundHalfUp_near (num den : Nat) (h : 0 < den) :
    2 * num ≤ 2 * (roundHalfUp num den * den) + den ∧
      2 * (roundHalfUp num den * den) ≤ 2 * num + den := by
  have split := Nat.div_add_mod (2 * num + den) (2 * den)
  have small := Nat.mod_lt (2 * num + den) (show 0 < 2 * den by omega)
  unfold roundHalfUp
  have : 2 * den * ((2 * num + den) / (2 * den)) = 2 * ((2 * num + den) / (2 * den) * den) := by
    rw [Nat.mul_assoc, Nat.mul_comm den]
  omega

theorem roundHalfEven_le (num den : Nat) : roundHalfEven num den ≤ num + 1 := by
  have below := Nat.div_le_self num den
  unfold roundHalfEven
  dsimp only
  split <;> omega

end Receipt.Number
