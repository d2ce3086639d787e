import Receipt.Proofs.Delimiter
import Receipt.Proofs.Order.Widths

/-!
# Labels and amounts

The line of a single amount is its label, a gap of spaces and the text of the amount. Nothing of it is cut
off and no amount has a space in it, so that the amount is what stands behind the last space. A figure that
is missing or not finite is noticed before the line is laid out (`amountLine_of_unwritten`): all that the
width decides is the gap, and whether it makes the line longer than any text can be.
-/

namespace Receipt.Order

open Money (shortHundredths solid_text?)

variable {o : Order} {part : Part} {label amount line : String} {figure : Option Binary64} {width : Nat}

/-! ### Lines -/

theorem one_le_gap (label amount : String) (width : Nat) : 1 ≤ gap label amount width :=
  Nat.le_max_right _ 1

/-- The amount stands behind the last space, since it has none itself. -/
theorem rtakeWhile_columns (label : String) (width : Nat) (h : ' ' ∉ amount.toList) :
    (columns label amount width).toList.rtakeWhile (· ≠ ' ') = amount.toList := by
  obtain ⟨spaces, hspaces⟩ : ∃ spaces, gap label amount width = spaces + 1 :=
    ⟨_, (Nat.sub_add_cancel (one_le_gap label amount width)).symm⟩
  rw [toList_columns, hspaces, List.replicate_succ', ← List.append_assoc, List.append_assoc,
    List.singleton_append]
  exact rtakeWhile_append_cons h

theorem refusal_ne_gapTooWide (part : Part) (figure : Option Binary64) :
    refusal part figure ≠ .gapTooWide := by
  cases figure <;> nofun

/-- Only a line of `2 ^ 63` characters or more is too long. -/
theorem maxLength_lt_lineLength_iff :
    maxLength < lineLength label amount width ↔ 2 ^ 63 ≤ max width (label.length + amount.length + 1) := by
  have hmax : maxLength + 1 = 2 ^ 63 := by decide
  rw [lineLength_eq_max]
  omega

/-! ### Parts with a single amount -/

theorem Labelled.text_of_written (h : Labelled o part label figure)
    (hamount : figure.bind Money.text? = some amount) (width : Nat) :
    o.text part width =
      if 2 ^ 63 ≤ max width (label.length + amount.length + 1) then .error .gapTooWide
      else .ok (columns label amount width) := by
  rw [h.text_eq, amountLine_of_written part label hamount]
  simp only [maxLength_lt_lineLength_iff]

theorem Labelled.text_eq_gapTooWide_iff (h : Labelled o part label figure) :
    o.text part width = .error .gapTooWide ↔ ∃ amount, figure.bind Money.text? = some amount ∧
      2 ^ 63 ≤ max width (label.length + amount.length + 1) := by
  cases hamount : figure.bind Money.text? with
  | none =>
    rw [h.text_eq, amountLine_of_unwritten part label hamount, Except.error.injEq]
    refine iff_of_false (refusal_ne_gapTooWide part figure) ?_
    rintro ⟨amount, ⟨⟩, -⟩
  | some amount =>
    rw [h.text_of_written hamount]
    simp only [Option.some.injEq, exists_eq_left']
    split
    case isTrue hwide => exact iff_of_true rfl hwide
    case isFalse hroom => exact iff_of_false nofun hroom

/-- Label and amount with one space between them always fit, so that only the width makes a line too long. -/
theorem Labelled.parts_lt (h : Labelled o part label figure)
    (hamount : figure.bind Money.text? = some amount) : label.length + amount.length + 1 < 2 ^ 63 := by
  have hparts := h.parts_le hamount
  omega

/-- Where a part can be printed at some width, it can be at every width that has room. -/
theorem Labelled.ok_or_gapTooWide (h : Labelled o part label figure)
    (hline : o.text part width = .ok line) (width' : Nat) :
    (∃ line', o.text part width' = .ok line') ∨ o.text part width' = .error .gapTooWide := by
  obtain ⟨amount, hamount, -⟩ := h.exists_of_text_eq_ok hline
  rw [h.text_of_written hamount]
  split
  · exact .inr rfl
  · exact .inl ⟨_, rfl⟩

theorem Labelled.same_fault (h : Labelled o part label figure) {f : Fault}
    (hfault : o.text part width = .error f) (hf : f ≠ .gapTooWide) (width' : Nat) :
    o.text part width' = .error f := by
  cases hamount : figure.bind Money.text? with
  | none =>
    rw [h.text_eq, amountLine_of_unwritten part label hamount] at hfault ⊢
    exact hfault
  | some amount =>
    rw [h.text_of_written hamount] at hfault
    split at hfault
    · exact absurd (Except.error.inj hfault).symm hf
    · cases hfault

/-- A label with a finite rate shows it in percent. -/
theorem Labelled.label_of_rate (h : Labelled o .tax label figure) {rate : Binary64}
    (hrate : o.taxRate = some rate) (hfinite : rate.isFinite = true) :
    label = "Tax (" ++ ((if rate.signed then "-" else "") ++
      shortHundredths (Number.toHundredths rate)) ++ "%):" := by
  cases h
  rw [hrate, taxLabel, Money.rateText_of_finite hfinite]

/-- Wherever a part with a single amount is printed, its line is the label, one space or more and the text of
the amount. It has the columns of the paper, or as many as the parts take with one space between them, and
the amount can be read off behind the last space. Whether there is a line, and what is wrong where there is
none, is the same at every width, but for a line that would have `2 ^ 63` characters or more, which no text
can have; label and amount alone never take as many, so that only such a width brings it about. The label of
the tax shows a finite rate to the nearest hundredth, a tie to the even one, with the sign bit as a minus and
one digit behind the point, or two if the second is not a zero. -/
theorem amount_lines_can_be_read_back {o : Order} {part : Part} {label : String}
    {figure : Option Binary64} (hpart : Labelled o part label figure) :
    (∀ width line, o.text part width = .ok line → ∃ amount spaces,
      figure.bind Money.text? = some amount ∧ 1 ≤ spaces ∧
      line.toList = label.toList ++ List.replicate spaces ' ' ++ amount.toList ∧
      line.length = max width (label.length + amount.length + 1) ∧
      line.toList.rtakeWhile (· ≠ ' ') = amount.toList) ∧
    (∀ width width' line, o.text part width = .ok line →
      (∃ line', o.text part width' = .ok line') ∨ o.text part width' = .error .gapTooWide) ∧
    (∀ width width' f, o.text part width = .error f → f ≠ .gapTooWide →
      o.text part width' = .error f) ∧
    (∀ width, o.text part width = .error .gapTooWide ↔ ∃ amount,
      figure.bind Money.text? = some amount ∧ 2 ^ 63 ≤ max width (label.length + amount.length + 1)) ∧
    (∀ amount, figure.bind Money.text? = some amount → label.length + amount.length + 1 < 2 ^ 63) ∧
    (part = .tax → ∀ rate, o.taxRate = some rate → rate.isFinite = true → ∃ n : ℕ,
      |(n : ℚ) - |rate.value| * 100| ≤ 1 / 2 ∧
      (|(n : ℚ) - |rate.value| * 100| = 1 / 2 → Even n) ∧
      label = "Tax (" ++ ((if rate.signed then "-" else "") ++ shortHundredths n) ++ "%):") := by
  refine ⟨?line, fun width width' line hline => hpart.ok_or_gapTooWide hline width',
    fun width width' f hfault hf => hpart.same_fault hfault hf width',
    fun width => hpart.text_eq_gapTooWide_iff, fun amount hamount => hpart.parts_lt hamount, ?rate⟩
  case line =>
    intro width line hline
    obtain ⟨amount, hamount, rfl⟩ := hpart.exists_of_text_eq_ok hline
    obtain ⟨x, -, htext⟩ := Option.bind_eq_some_iff.mp hamount
    have hspace : ' ' ∉ amount.toList := (solid_text? htext).2.space_not_mem
    exact ⟨amount, gap label amount width, hamount, one_le_gap label amount width,
      toList_columns label amount width, length_columns_eq_max label amount width,
      rtakeWhile_columns label width hspace⟩
  case rate =>
    rintro rfl rate hrate hfinite
    rw [Binary64.abs_value]
    exact ⟨Number.toHundredths rate, Money.abs_toHundredths_sub_le rate, Money.even_toHundredths,
      hpart.label_of_rate hrate hfinite⟩

/-- A rate that is rounded to zero keeps its minus. Of its tax line 5 columns take as much as is needed, and
as many columns as a text can have leave it a line, one more do not; a missing total is missed at every
width. -/
theorem tax_at_rate_below_zero :
    let rate := Binary64.ofDecimal true 1 (-3)
    let o : Order := { taxRate := some rate, taxAmount := some (cents 224) }
    Labelled o .tax "Tax (-0.0%):" (some (cents 224)) ∧
      o.text .tax 5 = .ok "Tax (-0.0%): $2.24" ∧
      "Tax (-0.0%): $2.24".length = max 5 ("Tax (-0.0%):".length + "$2.24".length + 1) ∧
      "Tax (-0.0%): $2.24".toList.rtakeWhile (· ≠ ' ') = "$2.24".toList ∧
      (∃ line, o.text .tax (2 ^ 63 - 1) = .ok line) ∧
      o.text .tax (2 ^ 63) = .error .gapTooWide ∧
      rate.isFinite = true ∧
      (∃ n : ℕ, |(n : ℚ) - |rate.value| * 100| ≤ 1 / 2 ∧
        "Tax (-0.0%):" = "Tax (" ++ ((if rate.signed then "-" else "") ++ shortHundredths n) ++ "%):") ∧
      Labelled {} .total "TOTAL:" none ∧
      text {} .total 5 = .error (.missing .total) ∧ text {} .total 100 = .error (.missing .total) := by
  intro rate o
  have hlabel : taxLabel o.taxRate = "Tax (-0.0%):" := by decide +kernel
  have hpart : Labelled o .tax "Tax (-0.0%):" (some (cents 224)) := hlabel ▸ .tax
  have hamount : (some (cents 224)).bind Money.text? = some "$2.24" := by decide +kernel
  have hshort : o.text .tax 5 = .ok "Tax (-0.0%): $2.24" := toOption_eq_some_iff.mp (by decide +kernel)
  have hfinite : rate.isFinite = true := by decide +kernel
  have hblank : Labelled {} .total "TOTAL:" none := .total
  obtain ⟨hline, hroom, -, hwide, -, hrate⟩ := amount_lines_can_be_read_back hpart
  obtain ⟨-, -, hfault, -⟩ := amount_lines_can_be_read_back hblank
  obtain ⟨amount, -, hwritten, -, -, hlength, hread⟩ := hline 5 _ hshort
  obtain rfl := Option.some.inj (hamount.symm.trans hwritten)
  obtain ⟨n, hnear, -, hn⟩ := hrate rfl rate rfl hfinite
  have hlongest : o.text .tax (2 ^ 63 - 1) ≠ .error .gapTooWide := by
    rintro hwidest
    obtain ⟨amount, hwritten, hlong⟩ := (hwide (2 ^ 63 - 1)).mp hwidest
    obtain rfl := Option.some.inj (hamount.symm.trans hwritten)
    exact absurd hlong (by decide)
  exact ⟨hpart, hshort, hlength, hread, (hroom 5 (2 ^ 63 - 1) _ hshort).resolve_right hlongest,
    (hwide (2 ^ 63)).mpr ⟨"$2.24", hamount, by decide⟩, hfinite, ⟨n, hnear, hn⟩, hblank, rfl,
    hfault 5 100 _ rfl nofun⟩

/-- The total of the sample order has a line of 32 columns, and none of as many as a word can count. -/
theorem widest_line_is_refused :
    sample.text .total 32 = .ok "TOTAL:                    $30.19" ∧
      sample.text .total (2 ^ 64 - 1) = .error .gapTooWide := by
  have htotal : Labelled sample .total "TOTAL:" (some (cents 3019)) := .total
  have hamount : (some (cents 3019)).bind Money.text? = some "$30.19" := by decide +kernel
  exact ⟨toOption_eq_some_iff.mp (by decide +kernel),
    htotal.text_eq_gapTooWide_iff.mpr ⟨"$30.19", hamount, by decide⟩⟩

end Receipt.Order
