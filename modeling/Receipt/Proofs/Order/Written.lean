import Receipt.Proofs.Except
import Receipt.Proofs.Order.Obstacles

/-!
# What the lines of an order are

Where a part of an order is printed, its line is made of the texts of its amounts: a label and an amount
at the two ends, or a row for each item. `Labelled.exists_of_text_eq_ok` and `items_eq_ok_iff` say so for
all widths.
-/

namespace Receipt.Order

/-- The rows of items whose prices have been written. -/
def rows (items : List Item) (prices : List String) (width : Nat) : List String :=
  List.zipWith (fun item price => itemRow item.name item.quantity price width) items prices

/-- The texts of the prices of items, one for each. -/
def Priced (items : List Item) (prices : List String) : Prop :=
  List.Forall₂ (fun item price => Money.text? item.totalPrice = some price) items prices

theorem Priced.of_mem_zip {items : List Item} {prices : List String} (h : Priced items prices)
    {item : Item} {price : String} (hmem : (item, price) ∈ items.zip prices) :
    Money.text? item.totalPrice = some price :=
  (List.forall₂_iff_zip.mp h).2 hmem

theorem rows_ne_nil {items : List Item} {prices : List String} (h : Priced items prices)
    (hitems : items ≠ []) {width : Nat} : rows items prices width ≠ [] := by
  cases h with
  | nil => contradiction
  | cons _ _ => exact List.cons_ne_nil _ _

variable {o : Order} {part : Part} {label line : String} {x : Binary64} {width : Nat}

/-- What is written only where there is room. -/
theorem unless_eq_ok_iff {p : Prop} [Decidable p] {f : Fault} {text : String} :
    (do if p then throw f
        pure text : Except Fault String) = .ok line ↔ ¬ p ∧ line = text := by
  by_cases hp : p
  · rw [if_pos hp]
    exact iff_of_false nofun fun h => h.1 hp
  · rw [if_neg hp, and_iff_right hp]
    show Except.ok text = Except.ok line ↔ line = text
    rw [Except.ok.injEq, eq_comm]

/-- The line of a single amount. -/
theorem Labelled.exists_of_text_eq_ok {figure : Option Binary64} (h : Labelled o part label figure)
    (hline : o.text part width = .ok line) :
    ∃ amount, figure.bind Money.text? = some amount ∧ line = columns label amount width := by
  rw [h.text_eq] at hline
  cases hamount : figure.bind Money.text? with
  | none =>
    rw [amountLine_of_unwritten part label hamount] at hline
    cases hline
  | some amount =>
    rw [amountLine_of_written part label hamount] at hline
    split at hline
    · cases hline
    · exact ⟨amount, rfl, (Except.ok.inj hline).symm⟩

theorem itemLine_eq_ok_iff {item : Item} :
    itemLine item width = .ok line ↔ ∃ price, Money.text? item.totalPrice = some price ∧
      nameColumns width ≤ maxColumn ∧ line = itemRow item.name item.quantity price width := by
  unfold itemLine
  simp only [bind_eq_ok_iff, amountText_eq_ok_iff, unless_eq_ok_iff, not_lt]

theorem itemLines_iff {items : List Item} {lines : List String} :
    List.Forall₂ (fun item line => itemLine item width = .ok line) items lines ↔
      ∃ prices, Priced items prices ∧ (items ≠ [] → nameColumns width ≤ maxColumn) ∧
        lines = rows items prices width := by
  simp only [itemLine_eq_ok_iff]
  constructor
  · intro h
    induction h with
    | nil => exact ⟨[], .nil, fun hne => absurd rfl hne, rfl⟩
    | cons hrow _ ih =>
      obtain ⟨price, hprice, hroom, rfl⟩ := hrow
      obtain ⟨prices, hprices, -, rfl⟩ := ih
      exact ⟨price :: prices, .cons hprice hprices, fun _ => hroom, rfl⟩
  · rintro ⟨prices, hprices, hroom, rfl⟩
    induction hprices with
    | nil => exact .nil
    | cons hprice _ ih =>
      have hroom := hroom (List.cons_ne_nil _ _)
      exact .cons ⟨_, hprice, hroom, rfl⟩ (ih fun _ => hroom)

/-- The rows of the items. -/
theorem items_eq_ok_iff {text : String} :
    o.text .items width = .ok text ↔ ∃ prices, Priced o.items prices ∧
      (o.items ≠ [] → nameColumns width ≤ maxColumn) ∧
        text = "\n".intercalate (rows o.items prices width) := by
  have hrows : o.text .items width = .ok text ↔
      ∃ lines, o.items.mapM (itemLine · width) = .ok lines ∧ "\n".intercalate lines = text := by
    show (do let lines ← o.items.mapM (itemLine · width)
             pure ("\n".intercalate lines) : Except Fault String) = .ok text ↔ _
    rw [bind_eq_ok_iff]
    refine exists_congr fun lines => and_congr_right fun _ => ?_
    show Except.ok ("\n".intercalate lines) = Except.ok text ↔ _
    rw [Except.ok.injEq]
  simp only [hrows, mapM_eq_ok_iff, itemLines_iff]
  constructor
  · rintro ⟨lines, ⟨prices, hprices, hroom, rfl⟩, rfl⟩
    exact ⟨prices, hprices, hroom, rfl⟩
  · rintro ⟨prices, hprices, hroom, rfl⟩
    exact ⟨_, ⟨prices, hprices, hroom, rfl⟩, rfl⟩

end Receipt.Order
