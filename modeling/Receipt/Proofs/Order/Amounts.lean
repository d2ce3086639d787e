import Receipt.Order.Reader
import Receipt.Proofs.Json.Records
import Receipt.Proofs.Order.Written

/-!
# Amounts on order lines

An order that has been read has finite amounts only. A finite amount is written with two places, unless its
product with one hundred overflows: then it is written as an infinity, and so it stands on the line.
-/

namespace Receipt

namespace Binary64

theorem isFinite_eq_false_iff {x : Binary64} :
    x.isFinite = false ↔ x = nan ∨ ∃ negative, x = infinite negative := by
  cases x with
  | nan => exact iff_of_true rfl (.inl rfl)
  | infinite negative => exact iff_of_true rfl (.inr ⟨negative, rfl⟩)
  | finite negative m e h => exact iff_of_false nofun nofun

end Binary64

namespace Money

open Binary64

/-- The text of a finite amount is money exactly if its product with one hundred does not overflow. -/
theorem isAmount_iff {x : Binary64} (hx : x.isFinite = true) {text : String}
    (htext : text? x = some text) : IsAmount text ↔ |x.value| * 100 < overflowLimit := by
  rw [abs_value]
  rcases lt_or_ge (x.magnitude * 100) overflowLimit with h | h
  · obtain ⟨text', htext', hamount⟩ := text?_isAmount hx h
    obtain rfl : text = text' := Option.some.inj (htext.symm.trans htext')
    exact iff_of_true hamount h
  · rw [text?_of_overflow hx h, Option.some.injEq] at htext
    refine iff_of_false (not_isAmount_of_no_point ?_) (not_lt.mpr h)
    rw [← htext]
    split <;> decide

theorem exists_text? {x : Binary64} (hx : x.isFinite = true) : ∃ text, text? x = some text :=
  ⟨_, text?_of_finite hx⟩

end Money

namespace Order

open Json

/-- A property of every amount that a line can show. -/
structure EachAmount (p : Binary64 → Prop) (o : Order) : Prop where
  items : ∀ item ∈ o.items, p item.totalPrice
  subtotal : ∀ x, o.subtotal = some x → p x
  tax : ∀ x, o.taxAmount = some x → p x
  total : ∀ x, o.totalAmount = some x → p x

theorem EachAmount.of_labelled {p : Binary64 → Prop} {o : Order} (h : o.EachAmount p) {part : Part}
    {label : String} {x : Binary64} (hpart : Labelled o part label (some x)) : p x := by
  generalize hamount : some x = amount at hpart
  cases hpart with
  | subtotal => exact h.subtotal x hamount.symm
  | tax => exact h.tax x hamount.symm
  | total => exact h.total x hamount.symm

theorem eachAmount_blank (p : Binary64 → Prop) : EachAmount p {} := by
  have hnone : ∀ x, (none : Option Binary64) = some x → p x := fun x h => by cases h
  exact ⟨fun _ h => absurd h List.not_mem_nil, hnone, hnone, hnone⟩

/-! ### Orders that have been read -/

theorem Item.keeps_field {α : Type} {p : Item → Prop} {q : α → Prop} {name : String} {k : Scalar α}
    {set : Item → α → Item} (hq : Yields q k.read) (hset : ∀ item a, p item → q a → p (set item a)) :
    (Item.field name k set).Keeps p :=
  Record.Field.keeps_of_set (fun _ _ _ => rfl) (fun _ => hq) hset

theorem keeps_field {α : Type} {p : Order → Prop} {q : α → Prop} {name : String} {k : Scalar α}
    {set : Order → Option α → Order} (hq : Yields q k.read)
    (hset : ∀ o a, p o → (∀ x, a = some x → q x) → p (set o a)) : (field name k set).Keeps p :=
  Record.Field.keeps_of_set (fun _ _ _ => rfl) (fun _ => yields_option hq) hset

/-- Where no amount is read, nothing need be known. -/
theorem yields_any {α : Type} (reader : Reader α) : Yields (fun _ => True) reader :=
  fun _ _ _ _ => trivial

theorem Item.yields_record (depth : Nat) :
    Yields (fun item : Item => item.totalPrice.isFinite = true) (Item.record.read depth) := by
  have hblank : Item.record.blank.totalPrice.isFinite = true := rfl
  refine Record.yields_read hblank ?_ depth
  intro field hfield
  simp only [Item.record, List.mem_cons, List.not_mem_nil, or_false] at hfield
  rcases hfield with rfl | rfl | rfl | rfl
  · exact keeps_field (yields_any _) fun _ _ h _ => h
  · exact keeps_field (yields_any _) fun _ _ h _ => h
  · exact keeps_field (yields_any _) fun _ _ h _ => h
  · exact keeps_field yields_amount fun _ _ _ h => h

theorem yields_record (depth : Nat) :
    Yields (EachAmount fun x => x.isFinite = true) (record.read depth) := by
  refine Record.yields_read (eachAmount_blank _) ?_ depth
  intro field hfield
  simp only [record, List.mem_cons, List.not_mem_nil, or_false] at hfield
  rcases hfield with rfl | rfl | rfl | rfl | rfl | rfl | rfl
  · exact keeps_field (yields_any _) fun _ _ h _ => ⟨h.items, h.subtotal, h.tax, h.total⟩
  · exact keeps_field (yields_any _) fun _ _ h _ => ⟨h.items, h.subtotal, h.tax, h.total⟩
  · intro depth o h cs
    exact gives_bind (yields_list Item.yields_record depth cs) fun items rest hitems =>
      gives_ok ⟨hitems, h.subtotal, h.tax, h.total⟩ rest
  · exact keeps_field yields_amount fun _ _ h hx => ⟨h.items, hx, h.tax, h.total⟩
  · exact keeps_field (yields_any _) fun _ _ h _ => ⟨h.items, h.subtotal, h.tax, h.total⟩
  · exact keeps_field yields_amount fun _ _ h hx => ⟨h.items, h.subtotal, hx, h.total⟩
  · exact keeps_field yields_amount fun _ _ h hx => ⟨h.items, h.subtotal, h.tax, hx⟩

theorem eachAmount_of_read {text : String} {o : Order} (h : Order.read text = .ok o) :
    o.EachAmount fun x => x.isFinite = true :=
  of_readWhole (yields_record maxDepth) h

/-! ### Lines of amounts -/

theorem exists_priced {items : List Item} (h : ∀ item ∈ items, item.totalPrice.isFinite = true) :
    ∃ prices, Priced items prices :=
  exists_forall₂_iff.mpr fun item hitem => Money.exists_text? (h item hitem)

variable {o : Order} {width : Nat}

/-- The line of a finite amount shows the text of the amount. -/
theorem text_of_finite {part : Part} {label line : String} {x : Binary64} (hx : x.isFinite = true)
    (hpart : Labelled o part label (some x)) (hline : o.text part width = .ok line) :
    ∃ amount, Money.text? x = some amount ∧ line = columns label amount width ∧
      (Money.IsAmount amount ↔ |x.value| * 100 < Binary64.overflowLimit) := by
  obtain ⟨amount, htext, rfl⟩ := hpart.exists_of_text_eq_ok hline
  exact ⟨amount, htext, rfl, Money.isAmount_iff hx htext⟩

/-- The rows of items with finite prices show the texts of the prices. -/
theorem items_of_finite {text : String} (h : ∀ item ∈ o.items, item.totalPrice.isFinite = true)
    (htext : o.text .items width = .ok text) :
    ∃ prices, Priced o.items prices ∧ text = "\n".intercalate (rows o.items prices width) ∧
      ∀ item price, (item, price) ∈ o.items.zip prices →
        (Money.IsAmount price ↔ |item.totalPrice.value| * 100 < Binary64.overflowLimit) := by
  obtain ⟨prices, hprices, -, rfl⟩ := items_eq_ok_iff.mp htext
  refine ⟨prices, hprices, rfl, fun item price hmem => ?_⟩
  exact Money.isAmount_iff (h item (List.of_mem_zip hmem).1) (hprices.of_mem_zip hmem)

theorem exists_text_of_finite {part : Part} {label : String} {x : Binary64} (hx : x.isFinite = true)
    (hpart : Labelled o part label (some x)) (hwidth : width ≤ maxColumn) :
    ∃ line, o.text part width = .ok line := by
  obtain ⟨amount, hamount⟩ := Money.exists_text? hx
  exact ⟨_, hpart.text_of_room hamount hwidth⟩

/-- Exactly the amounts that are no numbers or infinite are refused. A finite one is written as money
exactly if its product with one hundred does not overflow, and as an infinity otherwise. All amounts of an
order that has been read are finite. Each line of an order with finite amounts shows their texts, which are
money for just those amounts, and on lines of ordinary width there is such a line. -/
theorem amounts_are_money_unless_cents_overflow (x : Binary64) (o : Order) (width : Nat) :
    (Money.text? x = none ↔ x = .nan ∨ ∃ negative, x = .infinite negative) ∧
    (x.isFinite = true → ∃ text, Money.text? x = some text ∧
      (Money.IsAmount text ↔ |x.value| * 100 < Binary64.overflowLimit) ∧
      (Binary64.overflowLimit ≤ |x.value| * 100 → text = if x.value < 0 then "-$inf" else "$inf")) ∧
    (∀ document, Order.read document = .ok o → o.EachAmount fun y => y.isFinite = true) ∧
    (o.EachAmount (fun y => y.isFinite = true) →
      (∀ part label y line, Labelled o part label (some y) → o.text part width = .ok line →
        ∃ amount, Money.text? y = some amount ∧ line = columns label amount width ∧
          (Money.IsAmount amount ↔ |y.value| * 100 < Binary64.overflowLimit)) ∧
      (∀ text, o.text .items width = .ok text →
        ∃ prices, Priced o.items prices ∧ text = "\n".intercalate (rows o.items prices width) ∧
          ∀ item price, (item, price) ∈ o.items.zip prices →
            (Money.IsAmount price ↔ |item.totalPrice.value| * 100 < Binary64.overflowLimit)) ∧
      (width ≤ maxColumn →
        (∀ part label y, Labelled o part label (some y) → ∃ line, o.text part width = .ok line) ∧
          ∃ text, o.text .items width = .ok text)) := by
  refine ⟨?refused, ?written, fun _ => eachAmount_of_read, ?lines⟩
  case refused => rw [Money.text?_eq_none_iff, Binary64.isFinite_eq_false_iff]
  case written =>
    intro hx
    obtain ⟨text, htext⟩ := Money.exists_text? hx
    refine ⟨text, htext, Money.isAmount_iff hx htext, fun h => ?_⟩
    rw [Binary64.abs_value] at h
    exact Option.some.inj (htext.symm.trans (Money.text?_of_overflow hx h))
  case lines =>
    intro h
    refine ⟨fun part label y line hpart => text_of_finite (h.of_labelled hpart) hpart,
      fun text => items_of_finite h.items, fun hwidth => ⟨?_, ?_⟩⟩
    · exact fun part label y hpart => exists_text_of_finite (h.of_labelled hpart) hpart hwidth
    · obtain ⟨prices, hprices⟩ := exists_priced h.items
      exact ⟨_, items_eq_ok_iff.mpr
        ⟨prices, hprices, fun _ => nameColumns_le_maxColumn hwidth, rfl⟩⟩

theorem sample_eachAmount : sample.EachAmount fun x => x.isFinite = true := by
  refine ⟨by decide, ?_, ?_, ?_⟩
  all_goals
    rintro x ⟨⟩
    decide

/-- All amounts of the sample order are finite, and its total is money. -/
theorem sample_shows_money :
    (cents 3019).isFinite = true ∧ |(cents 3019).value| * 100 < Binary64.overflowLimit ∧
      (∃ text, Money.text? (cents 3019) = some text ∧ Money.IsAmount text) ∧
      sample.EachAmount (fun x => x.isFinite = true) ∧
      Labelled sample .total "TOTAL:" (some (cents 3019)) ∧
      sample.text .total 32 = .ok "TOTAL:                    $30.19" ∧
      (∃ amount, Money.text? (cents 3019) = some amount ∧
        "TOTAL:                    $30.19" = columns "TOTAL:" amount 32 ∧ Money.IsAmount amount) ∧
      32 ≤ maxColumn ∧ (∃ text, sample.text .items 32 = .ok text) := by
  have hfinite : (cents 3019).isFinite = true := by decide
  have hfits : |(cents 3019).value| * 100 < Binary64.overflowLimit := by
    have hle : (cents 3019).numerator ≤ 100 * (cents 3019).denominator := by decide
    have hmagnitude : (cents 3019).magnitude ≤ (100 : ℕ) := Binary64.magnitude_le_of_numerator_le hle
    rw [Nat.cast_ofNat] at hmagnitude
    rw [Binary64.abs_value]
    exact Binary64.lt_overflowLimit (by linarith)
  have htotal : sample.text .total 32 = .ok "TOTAL:                    $30.19" :=
    toOption_eq_some_iff.mp (by decide +kernel)
  have hwidth : 32 ≤ maxColumn := by decide
  obtain ⟨-, hwritten, -, hlines⟩ := amounts_are_money_unless_cents_overflow (cents 3019) sample 32
  obtain ⟨text, htext, hamount, -⟩ := hwritten hfinite
  obtain ⟨hamounts, -, hroom⟩ := hlines sample_eachAmount
  obtain ⟨shown, hshown, hline, hshownAmount⟩ := hamounts _ _ _ _ .total htotal
  exact ⟨hfinite, hfits, ⟨text, htext, hamount.mpr hfits⟩, sample_eachAmount, .total, htotal,
    ⟨shown, hshown, hline, hshownAmount.mpr hfits⟩, hwidth, (hroom hwidth).2⟩

/-- An amount that can be read may overflow. -/
theorem overflowing_total_is_no_money :
    (Binary64.ofDecimal false 1 307).isFinite = true ∧
      Money.text? (Binary64.ofDecimal false 1 307) = some "$inf" ∧ ¬ Money.IsAmount "$inf" ∧
      ∃ o, Order.read "\x7b\"totalAmount\":1e307\x7d" = .ok o ∧
        o.text .total 32 = .ok "TOTAL:                      $inf" := by
  have hread : ((Order.read "\x7b\"totalAmount\":1e307\x7d").toOption.bind fun o =>
      (o.text .total 32).toOption) = some "TOTAL:                      $inf" := by decide +kernel
  obtain ⟨o, ho, hline⟩ := Option.bind_eq_some_iff.mp hread
  exact ⟨by decide +kernel, by decide +kernel, Money.not_isAmount_of_no_point (by decide), o,
    toOption_eq_some_iff.mp ho, toOption_eq_some_iff.mp hline⟩

end Order

end Receipt
