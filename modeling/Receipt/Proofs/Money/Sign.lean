import Receipt.Proofs.Money.Accuracy

/-!
# Signs of amounts

An amount and its opposite are brought to the same cents, so that their texts differ in the minus alone.
Whether there is a minus hangs on the double that the cents are rounded to, and the digits are the
hundredths of that double; the two agree at every magnitude, since a double with cents has hundredths
(`IsCents.toHundredths_eq_zero_iff`). A minus therefore stands before every negative amount that is not
written as zero, and before no zero.
-/

namespace Receipt.Money

open Binary64 Number

variable {x : Binary64} {cents : ℕ} {text : String}

/-! ### Cents and digits -/

/-- The text of hundredths tells their number. -/
theorem hundredths_injective : Function.Injective hundredths := by
  intro m n h
  have hchars := congrArg String.toList h
  rw [toList_hundredths, toList_hundredths] at hchars
  obtain ⟨hwhole, hbehind⟩ := List.append_inj' hchars rfl
  have hplaces := (List.cons.inj hbehind).2
  rw [← ofDigitChars_hundredths m, hwhole, hplaces, ofDigitChars_hundredths]

/-- However many cents there are, the double next to them keeps three quarters of them. -/
theorem IsCents.toHundredths_pos (h : IsCents x cents) (hcents : 0 < cents) :
    0 < Number.toHundredths x := by
  have hone : (1 : ℚ) ≤ cents := by exact_mod_cast hcents
  have hoff : max ((cents : ℚ) / 100 / 2 ^ 53) (2 ^ (-1075 : ℤ)) ≤ (cents : ℚ) / 400 := by
    refine max_le ?_ (half_least_lt.le.trans ?_)
    · rw [div_div]
      exact div_le_div_of_nonneg_left (by positivity) (by norm_num) (by norm_num)
    · linarith
  have hmagnitude : 3 / 4 * (cents : ℚ) ≤ x.magnitude * 100 := by
    have hnear := (abs_le.mp (h.near.trans hoff)).1
    linarith
  have hround := (abs_le.mp (abs_toHundredths_sub_le x)).1
  have hpos : (0 : ℚ) < Number.toHundredths x := by linarith
  exact_mod_cast hpos

theorem IsCents.toHundredths_eq_zero_iff (h : IsCents x cents) :
    Number.toHundredths x = 0 ↔ cents = 0 := by
  constructor
  · intro hzero
    by_contra hcents
    have hpos := h.toHundredths_pos (Nat.pos_of_ne_zero hcents)
    omega
  · rintro rfl
    exact h.toHundredths (by norm_num)

/-! ### The text without the sign -/

/-- The text of the magnitude of an amount. -/
def unsignedText (x : Binary64) : String :=
  "$" ++ twoPlaces (toCents x)

theorem unsignedText_neg (x : Binary64) : unsignedText (-x) = unsignedText x := by
  unfold unsignedText toCents
  rw [abs_opposite]

theorem head?_unsignedText (x : Binary64) : (unsignedText x).toList.head? = some '$' := by
  unfold unsignedText
  rw [String.toList_append]
  rfl

/-- There are cents in an amount exactly if it is not written as zero. -/
theorem isPositive_toCents_iff (hx : x.isFinite = true) :
    (toCents x).isPositive = true ↔ unsignedText x ≠ "$0.00" := by
  unfold unsignedText
  rcases lt_or_ge (x.magnitude * 100) overflowLimit with h | h
  · obtain ⟨product, cents, hcents, -, -⟩ := toCents_of_lt hx h
    have hzero : "$0.00" = "$" ++ hundredths 0 := by decide +kernel
    rw [hcents.isPositive_iff, twoPlaces_of_finite hcents.finite hcents.signed, hzero, Ne,
      String.append_right_inj, hundredths_injective.eq_iff, hcents.toHundredths_eq_zero_iff,
      Nat.pos_iff_ne_zero]
  · rw [toCents_of_overflow hx h]
    exact iff_of_true rfl (by decide)

/-- A minus stands before the magnitude of a negative amount, unless that is written as zero. -/
theorem text?_eq_unsignedText (hx : x.isFinite = true) :
    text? x = some ((if x.value < 0 ∧ unsignedText x ≠ "$0.00" then "-" else "") ++ unsignedText x) := by
  rw [text?_of_finite hx, String.append_assoc]
  simp only [isNegative_iff hx, isPositive_toCents_iff hx]
  rfl

theorem text?_of_minus (hx : x.isFinite = true) (hneg : x.value < 0)
    (hcents : unsignedText x ≠ "$0.00") : text? x = some ("-" ++ unsignedText x) := by
  rw [text?_eq_unsignedText hx, if_pos ⟨hneg, hcents⟩]

theorem text?_of_no_minus (hx : x.isFinite = true)
    (h : ¬ (x.value < 0 ∧ unsignedText x ≠ "$0.00")) : text? x = some (unsignedText x) := by
  rw [text?_eq_unsignedText hx, if_neg h, String.empty_append]

/-- A zero of either sign has no cents. -/
theorem text?_of_isZero (h : x.isZero = true) : text? x = some "$0.00" := by
  have hx : x.isFinite = true := by
    cases x with
    | nan => cases h
    | infinite negative => cases h
    | finite negative m e bounded => rfl
  have hvalue : |x.value| = 0 := by rw [abs_value, (isZero_iff hx).mp h]
  obtain ⟨cents, htext, hnear⟩ := text?_near hx (by rw [hvalue]; positivity)
  rw [hvalue, abs_eq_zero.mp hvalue, sub_zero, zero_div, add_zero] at hnear
  have hsmall := abs_le.mp hnear
  have hlow : (-1 : ℚ) < cents := by linarith
  have hhigh : (cents : ℚ) < 1 := by linarith
  have hlow' : -1 < cents := by exact_mod_cast hlow
  have hhigh' : cents < 1 := by exact_mod_cast hhigh
  obtain rfl : cents = 0 := by omega
  rw [htext]
  decide +kernel

/-- A text begins with a minus exactly if its amount is negative and not written as zero. -/
theorem head?_text?_iff (h : text? x = some text) :
    text.toList.head? = some '-' ↔ x.value < 0 ∧ text ≠ "$0.00" := by
  have hx := isFinite_of_text? h
  by_cases hminus : x.value < 0 ∧ unsignedText x ≠ "$0.00"
  · obtain rfl := Option.some.inj (h.symm.trans (text?_of_minus hx hminus.1 hminus.2))
    have hhead : ("-" ++ unsignedText x).toList.head? = some '-' := by
      rw [String.toList_append]
      rfl
    refine iff_of_true hhead ⟨hminus.1, fun hzero => ?_⟩
    rw [hzero] at hhead
    exact absurd hhead (by decide)
  · obtain rfl := Option.some.inj (h.symm.trans (text?_of_no_minus hx hminus))
    rw [head?_unsignedText]
    exact iff_of_false (by decide) hminus

/-- No minus stands before a zero. -/
theorem text?_ne_minus_zero (x : Binary64) : text? x ≠ some "-$0.00" := by
  intro h
  have hx := isFinite_of_text? h
  obtain ⟨hneg, -⟩ := (head?_text?_iff h).mp rfl
  by_cases hzero : unsignedText x = "$0.00"
  · rw [text?_of_no_minus hx fun hminus => hminus.2 hzero, Option.some.injEq] at h
    exact absurd (hzero.symm.trans h) (by decide)
  · have hsplit : "-$0.00" = "-" ++ "$0.00" := rfl
    rw [text?_of_minus hx hneg hzero, Option.some.injEq, hsplit, String.append_right_inj] at h
    exact hzero h

/-- A positive amount is written without a sign, and its opposite as a zero or with a minus. -/
theorem text?_of_pos (hx : x.isFinite = true) (hpos : 0 < x.value) :
    text? x = some (unsignedText x) ∧
      (unsignedText x = "$0.00" → text? (-x) = some "$0.00") ∧
      (unsignedText x ≠ "$0.00" → text? (-x) = some ("-" ++ unsignedText x)) := by
  have hx' : (-x).isFinite = true := (isFinite_neg x).trans hx
  have hneg : (-x).value < 0 := by
    rw [value_neg hx]
    exact neg_lt_zero.mpr hpos
  refine ⟨text?_of_no_minus hx fun hminus => hpos.not_gt hminus.1, fun hzero => ?_, fun hcents => ?_⟩
  · have hzero' : unsignedText (-x) = "$0.00" := (unsignedText_neg x).trans hzero
    rw [text?_of_no_minus hx' fun hminus => hminus.2 hzero', hzero']
  · rw [← unsignedText_neg] at hcents ⊢
    exact text?_of_minus hx' hneg hcents

/-- A positive amount and its opposite are both written as zero, or the opposite is written as the amount
with a minus before it. Both zeros are written alike. No text is a zero with a minus, and a text other than
that of zero has a minus exactly if the amount is negative. -/
theorem opposite_amounts_differ_by_minus :
    (∀ x : Binary64, x.isFinite = true → 0 < x.value → ∃ text, text? x = some text ∧
      (text = "$0.00" → text? (-x) = some "$0.00") ∧
      (text ≠ "$0.00" → text? (-x) = some ("-" ++ text))) ∧
    (∀ x : Binary64, x.isZero = true → text? x = some "$0.00") ∧
    (∀ x : Binary64, text? x ≠ some "-$0.00") ∧
    ∀ (x : Binary64) (text : String), text? x = some text → text ≠ "$0.00" →
      (text.toList.head? = some '-' ↔ x.value < 0) := by
  refine ⟨?opposite, fun x => text?_of_isZero, text?_ne_minus_zero, ?kept⟩
  case opposite => exact fun x hx hpos => ⟨unsignedText x, text?_of_pos hx hpos⟩
  case kept =>
    intro x text h htext
    rw [head?_text?_iff h]
    exact and_iff_left htext

/-- Half a cent is the least amount whose opposite has a minus; the double below it is written as zero, and
so is the opposite of that. -/
theorem half_a_cent_gets_minus :
    let half := ofDecimal false 5 (-3)
    let below := ofDecimal false 4999999999999999 (-18)
    half.isFinite = true ∧ 0 < half.value ∧ text? half = some "$0.01" ∧ text? (-half) = some "-$0.01" ∧
      below.isFinite = true ∧ 0 < below.value ∧ text? below = some "$0.00" ∧
      text? (-below) = some "$0.00" ∧
      (zero true).isZero = true ∧ text? (zero true) = some "$0.00" ∧
      text? (-half) ≠ some "-$0.00" ∧ "-$0.01".toList.head? = some '-' ∧ (-half).value < 0 := by
  intro half below
  obtain ⟨hopposite, hzero, hnone, hkept⟩ := opposite_amounts_differ_by_minus
  have hhalf : half.isFinite = true := by decide +kernel
  have hhalfPos : 0 < half.value := (value_pos_iff hhalf).mpr (by decide +kernel)
  have hbelow : below.isFinite = true := by decide +kernel
  have hbelowPos : 0 < below.value := (value_pos_iff hbelow).mpr (by decide +kernel)
  have hcent : text? half = some "$0.01" := by decide +kernel
  have hnothing : text? below = some "$0.00" := by decide +kernel
  obtain ⟨text, htext, -, hminus⟩ := hopposite half hhalf hhalfPos
  obtain rfl := Option.some.inj (hcent.symm.trans htext)
  obtain ⟨text', htext', hplain, -⟩ := hopposite below hbelow hbelowPos
  obtain rfl := Option.some.inj (hnothing.symm.trans htext')
  have hsigned : text? (-half) = some "-$0.01" := hminus (by decide)
  exact ⟨hhalf, hhalfPos, hcent, hsigned, hbelow, hbelowPos, hnothing, hplain rfl, rfl,
    hzero (zero true) rfl, hnone (-half), rfl, (hkept _ _ hsigned (by decide)).mp rfl⟩

end Receipt.Money
