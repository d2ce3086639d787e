import Receipt.Proofs.Money.Cents
import Receipt.Text

/-!
# The form of an amount

An amount is written as a minus or nothing, the currency sign, digits, a point, and two more digits.
`Shows` reads such a text as a number of cents, and `ofCents` writes one. No amount has a blank in it, and
none is longer than a line may be.
-/

namespace Receipt.Money

open Binary64 Number Text

/-- The parts of the text of an amount. -/
structure Written (minus whole places : List Char) (text : String) : Prop where
  chars : text.toList = minus ++ '$' :: whole ++ '.' :: places
  whole_ne_nil : whole ≠ []
  length_places : places.length = 2
  digits : ∀ c ∈ whole ++ places, c.isDigit = true

def IsAmount (text : String) : Prop :=
  ∃ minus whole places, (minus = [] ∨ minus = ['-']) ∧ Written minus whole places text

/-- A text shows a number of cents: its digits without the point are the decimal digits of the number,
and a minus stands before a negative one. -/
def Shows (text : String) (cents : ℤ) : Prop :=
  ∃ whole places, Written (if cents < 0 then ['-'] else []) whole places text ∧
    Nat.ofDigitChars 10 (whole ++ places) 0 = cents.natAbs

/-- The text of a number of cents: the sign, the whole units, a point, and the two digits of the rest. -/
def ofCents (cents : ℤ) : String :=
  (if cents < 0 then "-" else "") ++ "$" ++ toString (cents.natAbs / 100) ++ "." ++
    ((if cents.natAbs % 100 < 10 then "0" else "") ++ toString (cents.natAbs % 100))

/-! ### Hundredths -/

theorem toList_toString (n : ℕ) : (toString n).toList = Nat.toDigits 10 n := by
  rw [Nat.toString_eq_ofList_toDigits, String.toList_ofList]

theorem toList_hundredths (n : ℕ) :
    (hundredths n).toList =
      Nat.toDigits 10 (n / 100) ++ ['.', Nat.digitChar (n % 100 / 10), Nat.digitChar (n % 10)] := by
  have htens : n % 100 / 10 < 10 := by omega
  have hones : n % 10 < 10 := by omega
  unfold hundredths
  simp only [String.toList_append, toList_toString, Nat.toDigits_of_lt_base htens,
    Nat.toDigits_of_lt_base hones, List.append_assoc]
  rfl

theorem isDigit_digitChar {d : ℕ} (h : d < 10) : (Nat.digitChar d).isDigit = true := by
  have hall : ∀ d < 10, (Nat.digitChar d).isDigit = true := by decide
  exact hall d h

/-- Hundredths behind a currency sign are an amount. -/
theorem written_hundredths (minus : String) (n : ℕ) :
    Written minus.toList (Nat.toDigits 10 (n / 100))
      [Nat.digitChar (n % 100 / 10), Nat.digitChar (n % 10)] (minus ++ "$" ++ hundredths n) := by
  refine ⟨?_, Nat.toDigits_ne_nil, rfl, ?_⟩
  · rw [String.toList_append, String.toList_append, toList_hundredths, List.append_assoc,
      List.append_assoc]
    rfl
  · intro c hc
    simp only [List.mem_append, List.mem_cons, List.not_mem_nil, or_false] at hc
    rcases hc with hc | rfl | rfl
    · exact Nat.isDigit_of_mem_toDigits (by decide) (by decide) hc
    · exact isDigit_digitChar (by omega)
    · exact isDigit_digitChar (by omega)

theorem ofDigitChars_hundredths (n : ℕ) :
    Nat.ofDigitChars 10 (Nat.toDigits 10 (n / 100) ++
      [Nat.digitChar (n % 100 / 10), Nat.digitChar (n % 10)]) 0 = n := by
  rw [Nat.ofDigitChars_append, Nat.ofDigitChars_ten_toDigits,
    Nat.ofDigitChars_cons_digitChar_of_lt_ten (by omega),
    Nat.ofDigitChars_cons_digitChar_of_lt_ten (by omega), Nat.ofDigitChars_nil]
  omega

theorem padded_eq {k : ℕ} (h : k < 100) :
    (if k < 10 then "0" else "") ++ toString k = toString (k / 10) ++ toString (k % 10) := by
  have hall : ∀ k < 100,
      (if k < 10 then "0" else "") ++ toString k = toString (k / 10) ++ toString (k % 10) := by
    decide +kernel
  exact hall k h

theorem ofCents_eq (cents : ℤ) :
    ofCents cents = (if cents < 0 then "-" else "") ++ "$" ++ hundredths cents.natAbs := by
  have hones : cents.natAbs % 10 = cents.natAbs % 100 % 10 := by omega
  unfold ofCents hundredths
  rw [padded_eq (Nat.mod_lt _ (by decide)), hones]
  simp only [String.append_assoc]

theorem shows_ofCents (cents : ℤ) : Shows (ofCents cents) cents := by
  refine ⟨_, _, ?_, ofDigitChars_hundredths cents.natAbs⟩
  have hwritten := written_hundredths (if cents < 0 then "-" else "") cents.natAbs
  have hminus : (if cents < 0 then "-" else "").toList = if cents < 0 then ['-'] else [] := by
    split <;> rfl
  rw [ofCents_eq, ← hminus]
  exact hwritten

/-! ### Amounts -/

/-- An amount whose product with one hundred does not overflow is written as one. -/
theorem text?_isAmount {x : Binary64} (hx : x.isFinite = true)
    (h : x.magnitude * 100 < overflowLimit) : ∃ text, text? x = some text ∧ IsAmount text := by
  obtain ⟨product, cents, hcents, -, -⟩ := toCents_of_lt hx h
  refine ⟨_, text?_of_finite hx, ?_⟩
  rw [twoPlaces_of_finite hcents.finite hcents.signed]
  refine ⟨_, _, _, ?_, written_hundredths _ _⟩
  split
  · exact .inr rfl
  · exact .inl rfl

/-- An infinity has no point. -/
theorem not_isAmount_of_no_point {text : String} (h : '.' ∉ text.toList) : ¬ IsAmount text := by
  rintro ⟨minus, whole, places, -, hwritten⟩
  rw [hwritten.chars] at h
  exact h (List.mem_append_right _ List.mem_cons_self)

/-! ### Rates -/

/-- Hundredths with one digit behind the point, and a second one unless it is a zero. -/
def shortHundredths (n : ℕ) : String :=
  toString (n / 100) ++ "." ++ toString (n % 100 / 10) ++ (if n % 10 = 0 then "" else toString (n % 10))

theorem toList_shortHundredths (n : ℕ) :
    (shortHundredths n).toList = Nat.toDigits 10 (n / 100) ++ ['.', Nat.digitChar (n % 100 / 10)] ++
      if n % 10 = 0 then [] else [Nat.digitChar (n % 10)] := by
  have htens : n % 100 / 10 < 10 := by omega
  have hones : n % 10 < 10 := by omega
  unfold shortHundredths
  simp only [String.toList_append, toList_toString, Nat.toDigits_of_lt_base htens, List.append_assoc]
  split
  case isTrue => rfl
  case isFalse =>
    rw [toList_toString, Nat.toDigits_of_lt_base hones]
    rfl

theorem digitChar_eq_zero_iff {d : ℕ} (h : d < 10) : Nat.digitChar d = '0' ↔ d = 0 := by
  have hall : ∀ d < 10, Nat.digitChar d = '0' ↔ d = 0 := by decide
  exact hall d h

/-- A finite rate is written to the nearest hundredth, with a minus wherever its sign bit is set. -/
theorem rateText_of_finite {rate : Binary64} (hrate : rate.isFinite = true) :
    rateText rate = (if rate.signed then "-" else "") ++ shortHundredths (toHundredths rate) := by
  have hplaces : twoPlaces rate =
      (if rate.signed then "-" else "") ++ hundredths (toHundredths rate) := by
    cases rate with
    | nan => cases hrate
    | infinite negative => cases hrate
    | finite negative m e h => rfl
  generalize (if rate.signed then "-" else "") = minus at hplaces ⊢
  generalize toHundredths rate = n at hplaces ⊢
  have hchars : (twoPlaces rate).toList =
      (minus.toList ++ (Nat.toDigits 10 (n / 100) ++ ['.', Nat.digitChar (n % 100 / 10)])) ++
        [Nat.digitChar (n % 10)] := by
    rw [hplaces, String.toList_append, toList_hundredths]
    simp only [List.append_assoc, List.cons_append, List.nil_append]
  have hzero : Nat.digitChar (n % 10) = '0' ↔ n % 10 = 0 :=
    digitChar_eq_zero_iff (Nat.mod_lt n (by decide))
  unfold rateText
  rw [← String.toList_inj, String.toList_ofList, String.toList_append, toList_shortHundredths, hchars]
  simp only [List.getLast?_concat, Option.some.injEq, hzero, List.dropLast_concat]
  split
  case isTrue => rw [List.append_nil]
  case isFalse => rw [List.append_assoc]

/-! ### Lengths -/

theorem length_toDigits_le {n k : ℕ} (hk : 0 < k) (h : n < 2 ^ k) :
    (Nat.toDigits 10 n).length ≤ k := by
  rw [Nat.length_toDigits_le_iff (by decide) hk]
  exact h.trans_le (Nat.pow_le_pow_left (by decide) k)

/-- One hundred takes seven bits more. -/
theorem toHundredths_lt (x : Binary64) : toHundredths x < 2 ^ (53 + 971 + 7) := by
  have hnumerator := x.numerator_lt
  have hround : toHundredths x ≤ x.numerator * 100 + 1 := roundHalfEven_le _ _
  rw [pow_add]
  generalize 2 ^ (53 + 971) = limit at hnumerator ⊢
  omega

theorem length_minus_le (p : Prop) [Decidable p] : (if p then "-" else "").length ≤ 1 := by
  split <;> decide

theorem length_hundredths_le (x : Binary64) : (hundredths (toHundredths x)).length ≤ 1034 := by
  have hwhole : (Nat.toDigits 10 (toHundredths x / 100)).length ≤ 53 + 971 + 7 :=
    length_toDigits_le (by decide) ((Nat.div_le_self _ 100).trans_lt (toHundredths_lt x))
  rw [← String.length_toList, toList_hundredths]
  simp only [List.length_append, List.length_cons, List.length_nil]
  omega

/-- A double has no more digits than its bits; the bound is far from sharp. -/
theorem length_twoPlaces_le (x : Binary64) : (twoPlaces x).length ≤ 1035 := by
  obtain _ | ⟨_ | _⟩ | ⟨negative, m, e, h⟩ := x
  · decide
  · decide
  · decide
  · have hminus := length_minus_le (finite negative m e h).signed
    have hdigits := length_hundredths_le (finite negative m e h)
    show (_ ++ hundredths _).length ≤ 1035
    rw [String.length_append]
    omega

theorem length_text?_le {x : Binary64} {text : String} (h : text? x = some text) :
    text.length ≤ 1037 := by
  rw [text?_of_finite (isFinite_of_text? h), Option.some.injEq] at h
  subst h
  have hminus := length_minus_le (x.isNegative ∧ (toCents x).isPositive)
  have hplaces := length_twoPlaces_le (toCents x)
  rw [String.length_append, String.length_append]
  have hsign : "$".length = 1 := by decide
  omega

theorem length_rateText_le (rate : Binary64) : (rateText rate).length ≤ 1035 := by
  have hplaces := length_twoPlaces_le rate
  rw [← String.length_toList] at hplaces
  rw [rateText, String.length_ofList]
  split
  · rw [List.length_dropLast]
    omega
  · exact hplaces

/-! ### Blanks -/

/-- A text in which no character is blank. -/
def Solid (text : String) : Prop :=
  ∀ c ∈ text.toList, isBlank c = false

instance (text : String) : Decidable (Solid text) :=
  List.decidableBAll (fun c => isBlank c = false) text.toList

theorem Solid.append {s t : String} (hs : Solid s) (ht : Solid t) : Solid (s ++ t) := by
  intro c hc
  rw [String.toList_append, List.mem_append] at hc
  exact hc.elim (hs c) (ht c)

theorem Solid.lineFeed_not_mem {text : String} (h : Solid text) : '\n' ∉ text.toList := by
  intro hmem
  exact absurd (h _ hmem) (by decide)

theorem Solid.space_not_mem {text : String} (h : Solid text) : ' ' ∉ text.toList := by
  intro hmem
  exact absurd (h _ hmem) (by decide)

theorem isBlank_of_isDigit {c : Char} (h : c.isDigit = true) : isBlank c = false := by
  simp only [Char.isDigit, Bool.and_eq_true, decide_eq_true_eq, ge_iff_le, UInt32.le_iff_toNat_le] at h
  have hc : 48 ≤ c.toNat ∧ c.toNat ≤ 57 := h
  simp only [isBlank, Bool.or_eq_false_iff, Bool.and_eq_false_iff, decide_eq_false_iff_not,
    beq_eq_false_iff_ne]
  omega

theorem solid_minus (p : Prop) [Decidable p] : Solid (if p then "-" else "") := by
  split <;> decide

theorem solid_hundredths (n : ℕ) : Solid (hundredths n) := by
  intro c hc
  rw [toList_hundredths] at hc
  simp only [List.mem_append, List.mem_cons, List.not_mem_nil, or_false] at hc
  rcases hc with hc | rfl | rfl | rfl
  · exact isBlank_of_isDigit (Nat.isDigit_of_mem_toDigits (by decide) (by decide) hc)
  · decide
  · exact isBlank_of_isDigit (isDigit_digitChar (by omega))
  · exact isBlank_of_isDigit (isDigit_digitChar (by omega))

theorem solid_twoPlaces (x : Binary64) : Solid (twoPlaces x) := by
  obtain _ | ⟨_ | _⟩ | ⟨negative, m, e, h⟩ := x
  · decide
  · decide
  · decide
  · exact Solid.append (solid_minus _) (solid_hundredths _)

theorem solid_rateText (rate : Binary64) : Solid (rateText rate) := by
  intro c hc
  rw [rateText, String.toList_ofList] at hc
  refine solid_twoPlaces rate c ?_
  split at hc
  · exact List.mem_of_mem_dropLast hc
  · exact hc

/-- The text of an amount has characters, and none of them is blank. -/
theorem solid_text? {x : Binary64} {text : String} (h : text? x = some text) :
    text.toList ≠ [] ∧ Solid text := by
  rw [text?_of_finite (isFinite_of_text? h), Option.some.injEq] at h
  subst h
  exact ⟨by simp, Solid.append (Solid.append (solid_minus _) (by decide)) (solid_twoPlaces _)⟩

/-- The text of an amount begins with a minus or with the currency sign. -/
theorem exists_text?_eq_cons {x : Binary64} {text : String} (h : text? x = some text) :
    ∃ c rest, text.toList = c :: rest ∧ (c = '-' ∨ c = '$') := by
  rw [text?_of_finite (isFinite_of_text? h), Option.some.injEq] at h
  subst h
  rw [String.append_assoc, String.toList_append, String.toList_append]
  split
  · exact ⟨'-', _, rfl, .inl rfl⟩
  · exact ⟨'$', _, rfl, .inr rfl⟩

end Receipt.Money
