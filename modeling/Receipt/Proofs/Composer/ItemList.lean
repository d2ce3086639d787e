import Receipt.Proofs.Composer.Sources
import Receipt.Proofs.Order.Amounts
import Receipt.Proofs.Order.Widths

/-!
# Lists of items

The rows of the items are joined by line feeds, and a section that prints line by line takes them apart
again. Carriage returns are safe on the way, since a row ends with its price. Line feeds are not: a name
is printed as it is, so one that has a line feed in its printed part breaks its row in two.
`item_list_prints_rows` says what comes out for any names, and for which names it is a row for each item.
-/

namespace Receipt.Composer

variable {d : Dialect} {s : Section} {rule : Rule} {order : Order} {rows : List String}

/-- Rows are their own lines exactly if there is no line feed in them. -/
theorem flatMap_linesOf_eq_iff (hreturn : ∀ row ∈ rows, row.toList.getLast? ≠ some '\r') :
    rows.flatMap linesOf = rows ↔ ∀ row ∈ rows, '\n' ∉ row.toList := by
  constructor
  · intro h row hrow
    rw [← h] at hrow
    obtain ⟨text, -, hline⟩ := List.mem_flatMap.mp hrow
    exact lineFeed_not_mem_of_mem_linesOf hline
  · intro h
    have hsingle : ∀ row ∈ rows, linesOf row = [row] := fun row hrow =>
      linesOf_of_single (h row hrow) (hreturn row hrow)
    rw [List.flatMap_congr hsingle]
    exact List.flatMap_singleton' rows

/-- A part of an order that is printed line by line. -/
theorem outcome_rows {part : Order.Part} (h : s.Bound d rule part) (hmultiline : rule.multiline = true)
    (htext : order.text part d.options.lineWidth.toNat = .ok ("\n".intercalate rows))
    (hrows : rows ≠ []) :
    outcome d (some order) s =
      (.align (alignmentOf s rule) :: (rows.flatMap linesOf).flatMap fun line =>
        [.text line (styleOf s rule), .feed 1], none) := by
  rw [outcome_bound h, htext, printed, textOps_multiline hmultiline, linesOf_intercalate hrows]

/-- The alignment is set once, and then each line of the rows is printed and fed, row after row. It is a
line for each item, the row of the item, exactly if the names have no line feed in what is printed of
them. -/
theorem item_list_prints_rows (h : s.Bound d rule .items) (hmultiline : rule.multiline = true)
    (hwidth : d.options.lineWidth.toNat ≤ Order.maxColumn) (hitems : order.items ≠ [])
    (hfinite : ∀ item ∈ order.items, item.totalPrice.isFinite = true) :
    ∃ rows : List String,
      List.Forall₂ (fun item row => Order.itemLine item d.options.lineWidth.toNat = .ok row)
        order.items rows ∧
      outcome d (some order) s =
        (.align (alignmentOf s rule) :: (rows.flatMap linesOf).flatMap fun line =>
          [.text line (styleOf s rule), .feed 1], none) ∧
      (outcome d (some order) s =
          (.align (alignmentOf s rule) :: rows.flatMap fun row =>
            [.text row (styleOf s rule), .feed 1], none) ↔
        ∀ item ∈ order.items,
          '\n' ∉ item.name.toList.take (Order.nameColumns d.options.lineWidth.toNat - 1)) := by
  obtain ⟨prices, hprices⟩ := Order.exists_priced hfinite
  have hroom := Order.nameColumns_le_maxColumn hwidth
  have hlines := Order.itemLines_iff.mpr ⟨prices, hprices, fun _ => hroom, rfl⟩
  have htext := Order.items_eq_ok_iff.mpr ⟨prices, hprices, fun _ => hroom, rfl⟩
  have houtcome := outcome_rows h hmultiline htext (Order.rows_ne_nil hprices hitems)
  refine ⟨_, hlines, houtcome, ?_⟩
  rw [houtcome, ← Order.lineFeed_not_mem_rows_iff hprices,
    ← flatMap_linesOf_eq_iff (Order.getLast?_rows_ne hprices)]
  constructor
  · intro heq
    have hfed := List.tail_eq_of_cons_eq (congrArg Prod.fst heq)
    have hrows := congrArg Program.lines hfed
    rwa [lines_fed, lines_fed] at hrows
  · intro heq
    rw [heq]

/-- A carriage return in a name, and a line feed behind the printed part of one, do no harm. -/
theorem name_breaks_behind_its_column :
    let list : Rule := { multiline := true, binding := some .items, emphasis := .alwaysBold }
    let d : Dialect := {
      vocabulary := .insertAll ∅ [("items", list)]
      options := { lineWidth := 20 } }
    let s : Section := { tag := "items", alignment := some .center }
    let order : Order := {
      items := [⟨"Sandwich with\nham", 2, Order.cents 450, Order.cents 900⟩,
        ⟨"Tea\r", 1, Order.cents 199, Order.cents 199⟩] }
    s.Bound d list .items ∧ list.multiline = true ∧
      d.options.lineWidth.toNat ≤ Order.maxColumn ∧ order.items ≠ [] ∧
      (∀ item ∈ order.items, item.totalPrice.isFinite = true) ∧
      (∀ item ∈ order.items,
        '\n' ∉ item.name.toList.take (Order.nameColumns d.options.lineWidth.toNat - 1)) ∧
      outcome d (some order) s =
        ([.align .center, .text "Sandwich wi x2  $9.00" (some .emphasis), .feed 1,
          .text "Tea\r        x1  $1.99" (some .emphasis), .feed 1], none) := by
  intro list d s order
  have hbound : s.Bound d list .items := ⟨by decide, rfl, rfl⟩
  have hwidth : d.options.lineWidth.toNat ≤ Order.maxColumn := by decide
  have hitems : order.items ≠ [] := List.cons_ne_nil _ _
  have hfinite : ∀ item ∈ order.items, item.totalPrice.isFinite = true := by decide +kernel
  have hnames : ∀ item ∈ order.items,
      '\n' ∉ item.name.toList.take (Order.nameColumns d.options.lineWidth.toNat - 1) := by
    decide +kernel
  have hsandwich : Order.itemLine ⟨"Sandwich with\nham", 2, Order.cents 450, Order.cents 900⟩ 20 =
      .ok "Sandwich wi x2  $9.00" := toOption_eq_some_iff.mp (by decide +kernel)
  have htea : Order.itemLine ⟨"Tea\r", 1, Order.cents 199, Order.cents 199⟩ 20 =
      .ok "Tea\r        x1  $1.99" := toOption_eq_some_iff.mp (by decide +kernel)
  obtain ⟨rows, hrows, -, hprinted⟩ := item_list_prints_rows hbound rfl hwidth hitems hfinite
  obtain ⟨first, rest, hfirst, hrest, rfl⟩ := List.forall₂_cons_left_iff.mp hrows
  obtain ⟨second, rest, hsecond, hnone, rfl⟩ := List.forall₂_cons_left_iff.mp hrest
  obtain rfl := List.forall₂_nil_left_iff.mp hnone
  obtain rfl := Except.ok.inj (hsandwich.symm.trans hfirst)
  obtain rfl := Except.ok.inj (htea.symm.trans hsecond)
  exact ⟨hbound, rfl, hwidth, hitems, hfinite, hnames, hprinted.mpr hnames⟩

/-- A line feed in the printed part of a name makes two lines of one item, and neither is its row. -/
theorem name_with_line_feed_breaks_row :
    let list : Rule := { multiline := true, binding := some .items }
    let d : Dialect := {}
    let s : Section := { tag := "itemList" }
    let item : Order.Item := ⟨"Fish\nChips", 1, Order.cents 500, Order.cents 500⟩
    let order : Order := { items := [item] }
    s.Bound d list .items ∧ list.multiline = true ∧
      d.options.lineWidth.toNat ≤ Order.maxColumn ∧ item.totalPrice.isFinite = true ∧
      outcome d (some order) s =
        ([.align .left, .text "Fish" none, .feed 1,
          .text "Chips              x1  $5.00" none, .feed 1], none) ∧
      ¬ ∃ row style, Order.itemLine item d.options.lineWidth.toNat = .ok row ∧
        (outcome d (some order) s).1 = [.align .left, .text row style, .feed 1] := by
  intro list d s item order
  have houtcome : outcome d (some order) s =
      ([.align .left, .text "Fish" none, .feed 1,
        .text "Chips              x1  $5.00" none, .feed 1], none) := by decide +kernel
  refine ⟨⟨by decide +kernel, rfl, rfl⟩, rfl, by decide, by decide +kernel, houtcome, ?_⟩
  rintro ⟨row, style, -, h⟩
  rw [houtcome] at h
  cases h

end Receipt.Composer
