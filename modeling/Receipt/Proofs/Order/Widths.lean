import Receipt.Proofs.Order.Written
import Receipt.Proofs.Preview.Wrapping

/-!
# Widths of order lines

The line of a single amount fills the line width if label and amount leave room between them. The row of
an item is made of the name column, a cross, the quantity and seven columns for the price: with a quantity
of one digit it is one column wider than the line, so that paper of that width wraps it.
-/

namespace Receipt.Order

open Money (Solid solid_text? solid_rateText)
open Preview (Fills)
open Text

variable {label amount name price : String} {quantity : UInt32} {width : Nat}

/-! ### Labels and amounts -/

theorem toList_columns (label amount : String) (width : Nat) :
    (columns label amount width).toList =
      label.toList ++ List.replicate (gap label amount width) ' ' ++ amount.toList := by
  rw [columns, String.toList_append, String.toList_append, String.toList_ofList]

theorem length_columns_eq_max (label amount : String) (width : Nat) :
    (columns label amount width).length = max width (label.length + amount.length + 1) := by
  rw [← lineLength_eq_max, ← String.length_toList, toList_columns, List.length_append,
    List.length_append, List.length_replicate, lineLength]

theorem length_columns (h : label.length + amount.length < width) :
    (columns label amount width).length = width := by
  rw [length_columns_eq_max]
  omega

/-- The last column of a line that ends with a solid text is not blank. -/
theorem isBlank_of_getLast?_append {front : List Char} {text : String} (hne : text.toList ≠ [])
    (h : Solid text) : ∀ c, (front ++ text.toList).getLast? = some c → isBlank c = false := by
  intro c hc
  rw [List.getLast?_append_of_ne_nil _ hne] at hc
  exact h c (List.mem_of_getLast? hc)

theorem Labelled.lineFeed_not_mem {o : Order} {part : Part} {x : Option Binary64}
    (h : Labelled o part label x) : '\n' ∉ label.toList := by
  cases h with
  | subtotal => decide
  | total => decide
  | tax =>
    unfold taxLabel
    split
    case h_1 rate _ =>
      have hrate := (solid_rateText rate).lineFeed_not_mem
      simp only [String.toList_append, List.mem_append, not_or]
      exact ⟨⟨by decide, hrate⟩, by decide⟩
    case h_2 => decide

theorem fills_columns {o : Order} {part : Part} {x : Binary64} (hpart : Labelled o part label (some x))
    (hamount : Money.text? x = some amount) (h : label.length + amount.length < width) :
    Fills width (columns label amount width) := by
  obtain ⟨hne, hsolid⟩ := solid_text? hamount
  refine ⟨length_columns h, ?_, ?_⟩
  · rw [toList_columns]
    simp only [List.mem_append, List.mem_replicate, not_or]
    exact ⟨⟨hpart.lineFeed_not_mem, by simp⟩, hsolid.lineFeed_not_mem⟩
  · rw [toList_columns]
    exact isBlank_of_getLast?_append hne hsolid

/-! ### Rows -/

theorem toList_itemRow :
    (itemRow name quantity price width).toList =
      name.toList.take (nameColumns width - 1) ++
        List.replicate (nameColumns width - (name.toList.take (nameColumns width - 1)).length) ' ' ++
          'x' :: Nat.toDigits 10 quantity.toNat ++ List.replicate (7 - price.toList.length) ' ' ++
            price.toList := by
  rw [itemRow, String.toList_ofList]
  simp only [List.rightpad, List.leftpad, List.append_assoc, List.cons_append]

/-- The columns of name, cross, quantity and price come to one more than the line has. -/
theorem length_itemRow (hwidth : 9 ≤ width) (hquantity : quantity < 10) (hprice : price.length ≤ 7) :
    (itemRow name quantity price width).length = width + 1 := by
  have hcolumn : nameColumns width = width - 8 := by
    unfold nameColumns figureColumns
    omega
  have hdigit : Nat.toDigits 10 quantity.toNat = [Nat.digitChar quantity.toNat] :=
    Nat.toDigits_of_lt_base hquantity
  rw [← String.length_toList, toList_itemRow, hdigit]
  simp only [List.length_append, List.length_replicate, List.length_take, List.length_cons,
    List.length_nil, String.length_toList, hcolumn]
  omega

/-- Only the name can bring a line feed into a row, and only with the part of it that is printed. -/
theorem lineFeed_mem_itemRow_iff (hprice : Solid price) :
    '\n' ∈ (itemRow name quantity price width).toList ↔
      '\n' ∈ name.toList.take (nameColumns width - 1) := by
  rw [toList_itemRow]
  simp [lineFeed_not_mem_decimal quantity.toNat, hprice.lineFeed_not_mem]

theorem isBlank_of_getLast?_itemRow (hne : price.toList ≠ []) (hprice : Solid price) :
    ∀ c, (itemRow name quantity price width).toList.getLast? = some c → isBlank c = false := by
  rw [toList_itemRow]
  exact isBlank_of_getLast?_append hne hprice

theorem fills_itemRow {x : Binary64} (hwidth : 9 ≤ width) (hname : '\n' ∉ name.toList)
    (hquantity : quantity < 10) (hprice : Money.text? x = some price) (hcolumns : price.length ≤ 7) :
    Fills (width + 1) (itemRow name quantity price width) := by
  obtain ⟨hne, hsolid⟩ := solid_text? hprice
  refine ⟨length_itemRow hwidth hquantity hcolumns, ?_, isBlank_of_getLast?_itemRow hne hsolid⟩
  rw [lineFeed_mem_itemRow_iff hsolid]
  exact fun hmem => hname (List.mem_of_mem_take hmem)

/-- A row ends with its price, and so with no carriage return. -/
theorem getLast?_rows_ne {items : List Item} {prices : List String} (h : Priced items prices) :
    ∀ row ∈ rows items prices width, row.toList.getLast? ≠ some '\r' := by
  induction h with
  | nil => exact fun _ hrow => absurd hrow List.not_mem_nil
  | cons hprice _ ih =>
    refine List.forall_mem_cons.mpr ⟨fun hreturn => ?_, ih⟩
    obtain ⟨hne, hsolid⟩ := solid_text? hprice
    exact absurd (isBlank_of_getLast?_itemRow hne hsolid _ hreturn) (by decide)

theorem lineFeed_not_mem_rows_iff {items : List Item} {prices : List String}
    (h : Priced items prices) :
    (∀ row ∈ rows items prices width, '\n' ∉ row.toList) ↔
      ∀ item ∈ items, '\n' ∉ item.name.toList.take (nameColumns width - 1) := by
  induction h with
  | nil => exact iff_of_true (List.forall_mem_nil _) (List.forall_mem_nil _)
  | cons hprice _ ih =>
    obtain ⟨-, hsolid⟩ := solid_text? hprice
    rw [rows, List.zipWith_cons_cons, List.forall_mem_cons, List.forall_mem_cons,
      lineFeed_mem_itemRow_iff hsolid]
    exact and_congr_right fun _ => ih

/-! ### Lines on paper -/

/-- On lines of 10 to 65535 columns, a row with a quantity of one digit and a price of up to seven columns
has one column more than the line. Paper of the line width wraps it into two lines, and paper of one
column more shows it as it is. A line with a single amount has all columns of the line if label and amount
have fewer, and paper of the line width shows it as it is. -/
theorem amount_lines_fill_and_item_rows_overrun (o : Order) {width : Nat} (hlow : 10 ≤ width)
    (hhigh : width ≤ maxColumn) :
    (∀ prices, Priced o.items prices →
      o.text .items width = .ok ("\n".intercalate (rows o.items prices width)) ∧
      (o.items ≠ [] → ∀ paper a style,
        Preview.drawn paper a (.text ("\n".intercalate (rows o.items prices width)) style) =
          (rows o.items prices width).flatMap fun row => Preview.drawn paper a (.text row style)) ∧
      ∀ item price, (item, price) ∈ o.items.zip prices → '\n' ∉ item.name.toList →
        item.quantity < 10 → price.length ≤ 7 →
          let row := itemRow item.name item.quantity price width
          row.length = width + 1 ∧ ∀ a style, (style.getD .plain).size = .normal →
            (Preview.drawn width a (.text row style)).length = 2 ∧
              Preview.drawn (width + 1) a (.text row style) = [row]) ∧
    ∀ part label x amount, Labelled o part label (some x) → Money.text? x = some amount →
      label.length + amount.length < width →
        let line := columns label amount width
        o.text part width = .ok line ∧ line.length = width ∧
          ∀ a style, (style.getD .plain).size = .normal →
            Preview.drawn width a (.text line style) = [line] := by
  constructor
  · intro prices hprices
    refine ⟨?text, ?drawn, ?row⟩
    case text =>
      exact items_eq_ok_iff.mpr ⟨prices, hprices, fun _ => nameColumns_le_maxColumn hhigh, rfl⟩
    case drawn =>
      intro hitems paper a style
      exact Preview.drawn_intercalate a paper (rows_ne_nil hprices hitems) style
    case row =>
      intro item price hmem hname hquantity hcolumns
      have hprice : Money.text? item.totalPrice = some price := hprices.of_mem_zip hmem
      have hfills : Fills (width + 1) (itemRow item.name item.quantity price width) :=
        fills_itemRow (by omega) hname hquantity hprice hcolumns
      exact ⟨hfills.length, fun a style hstyle =>
        ⟨hfills.length_drawn a hstyle (by omega) rfl, hfills.drawn_eq a hstyle⟩⟩
  · intro part label x amount hpart hamount hfit
    have hfills := fills_columns hpart hamount hfit
    exact ⟨hpart.text_of_room hamount hhigh, hfills.length,
      fun a style hstyle => hfills.drawn_eq a hstyle⟩

/-- On 32 columns the first row of the sample order overruns, and its total fills the line. -/
theorem sample_rows_overrun :
    10 ≤ 32 ∧ 32 ≤ maxColumn ∧ Priced sample.items ["$17.98", "$3.99", "$5.98"] ∧
      (⟨"Cheeseburger", 2, cents 899, cents 1798⟩, "$17.98") ∈
        sample.items.zip ["$17.98", "$3.99", "$5.98"] ∧
      '\n' ∉ "Cheeseburger".toList ∧ (2 : UInt32) < 10 ∧ "$17.98".length ≤ 7 ∧
      (itemRow "Cheeseburger" 2 "$17.98" 32).length = 33 ∧
      (Preview.drawn 32 .left (.text (itemRow "Cheeseburger" 2 "$17.98" 32) none)).length = 2 ∧
      Money.text? (cents 3019) = some "$30.19" ∧ "TOTAL:".length + "$30.19".length < 32 ∧
      sample.text .total 32 = .ok (columns "TOTAL:" "$30.19" 32) ∧
      Preview.drawn 32 .right (.text (columns "TOTAL:" "$30.19" 32) none) =
        [columns "TOTAL:" "$30.19" 32] := by
  have hwidth : 10 ≤ 32 ∧ 32 ≤ maxColumn := by decide
  have hprices : Priced sample.items ["$17.98", "$3.99", "$5.98"] :=
    .cons (by decide +kernel) (.cons (by decide +kernel) (.cons (by decide +kernel) .nil))
  have hburger : (⟨"Cheeseburger", 2, cents 899, cents 1798⟩, "$17.98") ∈
      sample.items.zip ["$17.98", "$3.99", "$5.98"] := List.mem_cons_self
  have hrow : '\n' ∉ "Cheeseburger".toList ∧ (2 : UInt32) < 10 ∧ "$17.98".length ≤ 7 := by decide
  have htotal : Money.text? (cents 3019) = some "$30.19" := by decide +kernel
  have hfit : "TOTAL:".length + "$30.19".length < 32 := by decide
  have hlines := amount_lines_fill_and_item_rows_overrun sample hwidth.1 hwidth.2
  have hoverrun := (hlines.1 _ hprices).2.2 _ _ hburger hrow.1 hrow.2.1 hrow.2.2
  have hfills := hlines.2 .total _ _ _ .total htotal hfit
  exact ⟨hwidth.1, hwidth.2, hprices, hburger, hrow.1, hrow.2.1, hrow.2.2, hoverrun.1,
    (hoverrun.2 .left none rfl).1, htotal, hfit, hfills.1, hfills.2.2 .right none rfl⟩

/-- The row of two cheeseburgers has 33 columns where there are 32, and is wrapped within the price. -/
theorem cheeseburger_row_is_wrapped :
    text { items := [⟨"Cheeseburger", 2, cents 899, cents 1798⟩] } .items 32 =
        .ok "Cheeseburger            x2 $17.98" ∧
      '\n' ∉ "Cheeseburger".toList ∧ (2 : UInt32) < 10 ∧
      Money.text? (cents 1798) = some "$17.98" ∧ "$17.98".length ≤ 7 ∧
      ¬ "Cheeseburger            x2 $17.98".length ≤ 32 ∧
      Preview.drawn 32 .left (.text "Cheeseburger            x2 $17.98" none) =
        ["Cheeseburger            x2 $17.9", "8"] :=
  ⟨toOption_eq_some_iff.mp (by decide +kernel), by decide, by decide, by decide +kernel, by decide,
    by decide, by decide +kernel⟩

end Receipt.Order
