import Receipt.Proofs.Order.Amounts
import Receipt.Proofs.Order.Widths

/-!
# Reading rows back

The row of an item has a column of fixed width for the name, a cross, the quantity and the price. Whatever is
in the name, the cross stands behind its column; the quantity ends where the digits end, since a price begins
with a minus or the currency sign; and the price is what is left without the spaces in front of it.
`InColumns.readRow_eq` reads a row in this way, so a row tells all that is printed of its item.
-/

namespace Receipt.Order

/-- The column of a name: its first characters, then spaces, of which there is one at least. -/
def nameColumn (columns : Nat) (name : String) : List Char :=
  let shown := name.toList.take (columns - 1)
  shown ++ List.replicate (columns - shown.length) ' '

/-- The row of an item on lines with some columns for the name: its parts in order, each as wide as it has to
be, and the price whole and at the right. -/
structure InColumns (columns : Nat) (item : Item) (price row : String) (figures : List Char) : Prop where
  /-- A column less is still a number of columns. -/
  pos : 1 ≤ columns
  chars : row.toList =
    nameColumn columns item.name ++ 'x' :: (Nat.toDigits 10 item.quantity.toNat ++ figures)
  length_name : (nameColumn columns item.name).length = columns
  space : (nameColumn columns item.name).getLast? = some ' '
  aligned : figures = List.replicate (7 - price.length) ' ' ++ price.toList
  length_figures : figures.length = max 7 price.length

/-- What a row tells of its item: the column of the name, the quantity and the text of the price. -/
def readRow (columns : Nat) (row : String) : List Char × Nat × String :=
  let figures := row.toList.drop (columns + 1)
  (row.toList.take columns, Nat.ofDigitChars 10 (figures.takeWhile Char.isDigit) 0,
    String.ofList ((figures.dropWhile Char.isDigit).dropWhile (· = ' ')))

variable {columns width : Nat} {item item' : Item} {price row : String} {figures : List Char}

/-! ### The parts of a row -/

theorem length_nameColumn (hcolumns : 1 ≤ columns) (name : String) :
    (nameColumn columns name).length = columns := by
  rw [nameColumn, List.length_append, List.length_replicate, List.length_take]
  omega

theorem getLast?_nameColumn (hcolumns : 1 ≤ columns) (name : String) :
    (nameColumn columns name).getLast? = some ' ' := by
  have hspaces : columns - (name.toList.take (columns - 1)).length ≠ 0 := by
    rw [List.length_take]
    omega
  rw [nameColumn, List.getLast?_append, List.getLast?_replicate, if_neg hspaces]
  rfl

theorem inColumns_itemRow (item : Item) (price : String) (width : Nat) :
    InColumns (nameColumns width) item price (itemRow item.name item.quantity price width)
      (List.replicate (7 - price.length) ' ' ++ price.toList) := by
  have hcolumns : 1 ≤ nameColumns width := Nat.le_max_right _ 1
  refine ⟨hcolumns, ?_, length_nameColumn hcolumns item.name,
    getLast?_nameColumn hcolumns item.name, rfl, ?_⟩
  · rw [toList_itemRow, String.length_toList]
    simp only [nameColumn, List.append_assoc, List.cons_append]
  · rw [List.length_append, List.length_replicate, String.length_toList]
    omega

/-! ### Reading -/

/-- Spaces in front of a price do not begin with a digit, nor does the price. -/
theorem InColumns.figures_eq_cons (h : InColumns columns item price row figures)
    (hprice : Money.text? item.totalPrice = some price) :
    ∃ c rest, figures = c :: rest ∧ ¬ c.isDigit = true := by
  rw [h.aligned]
  cases 7 - price.length with
  | zero =>
    obtain ⟨c, rest, hchars, hc⟩ := Money.exists_text?_eq_cons hprice
    rw [hchars]
    refine ⟨c, rest, rfl, ?_⟩
    rcases hc with rfl | rfl <;> decide
  | succ spaces => exact ⟨' ', _, rfl, by decide⟩

theorem InColumns.price_eq (h : InColumns columns item price row figures)
    (hprice : Money.text? item.totalPrice = some price) :
    figures.dropWhile (· = ' ') = price.toList := by
  have hspaces : ∀ c ∈ List.replicate (7 - price.length) ' ', decide (c = ' ') = true := by
    intro c hc
    rw [List.eq_of_mem_replicate hc]
    rfl
  obtain ⟨c, rest, hchars, hc⟩ := Money.exists_text?_eq_cons hprice
  have hfirst : ¬ decide (c = ' ') = true := by rcases hc with rfl | rfl <;> decide
  rw [h.aligned, List.dropWhile_append_of_pos hspaces, hchars]
  exact List.dropWhile_cons_of_neg hfirst

theorem InColumns.readRow_eq (h : InColumns columns item price row figures)
    (hprice : Money.text? item.totalPrice = some price) :
    readRow columns row = (nameColumn columns item.name, item.quantity.toNat, price) := by
  have hdigits : ∀ c ∈ Nat.toDigits 10 item.quantity.toNat, c.isDigit = true := fun c hc =>
    Nat.isDigit_of_mem_toDigits (by decide) (by decide) hc
  have hname : row.toList.take columns = nameColumn columns item.name := by
    rw [h.chars]
    exact List.take_left' h.length_name
  have hfigures : row.toList.drop (columns + 1) = Nat.toDigits 10 item.quantity.toNat ++ figures := by
    rw [h.chars, ← List.drop_drop, List.drop_left' h.length_name]
    rfl
  obtain ⟨c, rest, hcons, hc⟩ := h.figures_eq_cons hprice
  have hstop : figures.takeWhile Char.isDigit = [] := by
    rw [hcons, List.takeWhile_cons_of_neg hc]
  have hrest : figures.dropWhile Char.isDigit = figures := by
    rw [hcons, List.dropWhile_cons_of_neg hc]
  unfold readRow
  rw [hname, hfigures]
  dsimp only
  rw [List.takeWhile_append_of_pos hdigits, List.dropWhile_append_of_pos hdigits, hstop, hrest,
    List.append_nil, h.price_eq hprice, Nat.ofDigitChars_ten_toDigits, String.ofList_toList]

/-- A row that has been printed is read back. -/
theorem readRow_of_itemLine (h : itemLine item width = .ok row) :
    ∃ price, Money.text? item.totalPrice = some price ∧
      readRow (nameColumns width) row =
        (nameColumn (nameColumns width) item.name, item.quantity.toNat, price) := by
  obtain ⟨price, hprice, -, rfl⟩ := itemLine_eq_ok_iff.mp h
  exact ⟨price, hprice, (inColumns_itemRow item price width).readRow_eq hprice⟩

/-- Where a name has at most 65535 columns, every item with a finite price has a row. The first characters of
its name are there and padded to the width of the column, with a space at least; then a cross, the quantity in
decimal, and the whole price at the right of at least seven columns. Each of the three can be read back, so
items with equal rows agree in them, whatever their names are. -/
theorem rows_can_be_read_back {width : Nat} (hroom : max 1 (width - 8) ≤ 65535) :
    (∀ item : Item, item.totalPrice.isFinite = true → ∃ price row figures,
      Money.text? item.totalPrice = some price ∧ itemLine item width = .ok row ∧
        InColumns (max 1 (width - 8)) item price row figures ∧
        readRow (max 1 (width - 8)) row =
          (nameColumn (max 1 (width - 8)) item.name, item.quantity.toNat, price)) ∧
    ∀ (item item' : Item) (row : String),
      itemLine item width = .ok row → itemLine item' width = .ok row →
        nameColumn (max 1 (width - 8)) item.name = nameColumn (max 1 (width - 8)) item'.name ∧
          item.quantity = item'.quantity ∧
          Money.text? item.totalPrice = Money.text? item'.totalPrice := by
  have hcolumns : max 1 (width - 8) = nameColumns width := Nat.max_comm 1 (width - 8)
  rw [hcolumns] at hroom ⊢
  constructor
  · intro item hfinite
    obtain ⟨price, hprice⟩ := Money.exists_text? hfinite
    have hrow := inColumns_itemRow item price width
    exact ⟨price, _, _, hprice, itemLine_eq_ok_iff.mpr ⟨price, hprice, hroom, rfl⟩, hrow,
      hrow.readRow_eq hprice⟩
  · intro item item' row h h'
    obtain ⟨price, hprice, hread⟩ := readRow_of_itemLine h
    obtain ⟨price', hprice', hread'⟩ := readRow_of_itemLine h'
    have hboth := hread.symm.trans hread'
    simp only [Prod.mk.injEq] at hboth
    obtain ⟨hname, hquantity, rfl⟩ := hboth
    exact ⟨hname, UInt32.toNat_inj.mp hquantity, hprice.trans hprice'.symm⟩

/-- On lines of no width a name has one column, and a long quantity meets a price of 11 columns. On lines of
12 columns "Tea" and "Teapot" look the same, and so do prices that differ by less than a cent. -/
theorem quantity_meets_price :
    let latte : Item := ⟨"x7 $", 4294967295, cents 1, cents 123456789⟩
    let tea : Item := ⟨"Tea", 2, cents 99, cents 198⟩
    let teapot : Item := ⟨"Teapot", 2, cents 1900, .nearest false 1981 1000⟩
    max 1 (0 - 8) ≤ 65535 ∧ latte.totalPrice.isFinite = true ∧
      itemLine latte 0 = .ok " x4294967295$1234567.89" ∧
      readRow 1 " x4294967295$1234567.89" = ([' '], 4294967295, "$1234567.89") ∧
      max 1 (12 - 8) ≤ 65535 ∧ itemLine tea 12 = .ok "Tea x2  $1.98" ∧
      itemLine teapot 12 = .ok "Tea x2  $1.98" ∧
      nameColumn 4 "Tea" = nameColumn 4 "Teapot" ∧
      Money.text? (cents 198) = Money.text? (.nearest false 1981 1000) := by
  intro latte tea teapot
  have hfinite : latte.totalPrice.isFinite = true := by decide +kernel
  have hlatte : itemLine latte 0 = .ok " x4294967295$1234567.89" :=
    toOption_eq_some_iff.mp (by decide +kernel)
  have htea : itemLine tea 12 = .ok "Tea x2  $1.98" := toOption_eq_some_iff.mp (by decide +kernel)
  have hteapot : itemLine teapot 12 = .ok "Tea x2  $1.98" :=
    toOption_eq_some_iff.mp (by decide +kernel)
  have hzero : max 1 (0 - 8) ≤ 65535 := by decide
  have htwelve : max 1 (12 - 8) ≤ 65535 := by decide
  obtain ⟨price, row, figures, hprice, hrow, -, hread⟩ := (rows_can_be_read_back hzero).1 latte hfinite
  obtain rfl := Except.ok.inj (hlatte.symm.trans hrow)
  have hmoney : Money.text? latte.totalPrice = some "$1234567.89" := by decide +kernel
  obtain rfl := Option.some.inj (hmoney.symm.trans hprice)
  obtain ⟨hname, -, htext⟩ := (rows_can_be_read_back htwelve).2 tea teapot _ htea hteapot
  exact ⟨hzero, hfinite, hlatte, hread, htwelve, htea, hteapot, hname, htext⟩

end Receipt.Order
