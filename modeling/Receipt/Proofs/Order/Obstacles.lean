import Receipt.Order.Lines
import Receipt.Proofs.Money.Form

/-!
# What keeps a part of an order from being printed

A part is blocked by a figure that is missing or by an amount that is not finite; of several items the
first bad one counts. `text_error_iff` shows that nothing else can go wrong, and that it always does go
wrong then, on lines of at most 65535 columns. Wider lines may also fail for want of room: of a part with a
single amount `amountLine_of_written` says when.
-/

namespace Receipt.Order

/-- The parts that print a single amount, with the amount. -/
def amounts (o : Order) : List (Part × Option Binary64) :=
  [(.subtotal, o.subtotal), (.tax, o.taxAmount), (.total, o.totalAmount)]

/-- A part with a single amount, and the label in front of it. -/
inductive Labelled (o : Order) : Part → String → Option Binary64 → Prop where
  | subtotal : Labelled o .subtotal "Subtotal:" o.subtotal
  | tax : Labelled o .tax (taxLabel o.taxRate) o.taxAmount
  | total : Labelled o .total "TOTAL:" o.totalAmount

/-- Why a figure cannot be written, where it cannot. -/
def refusal (part : Part) : Option Binary64 → Fault
  | none => .missing part
  | some x => .notFinite part x

/-- A part that cannot be printed, with the reason. -/
inductive Blocked (o : Order) : Part → Fault → Prop where
  | noId (absent : o.orderId = none) : Blocked o .info (.missing .info)
  /-- The items before the bad one are all in order. -/
  | item (before : List Item) (bad : Item) (after : List Item)
      (split : o.items = before ++ bad :: after)
      (sound : ∀ i ∈ before, i.totalPrice.isFinite = true)
      (notFinite : bad.totalPrice.isFinite = false) :
      Blocked o .items (.notFinite .items bad.totalPrice)
  | noAmount (part : Part) (absent : (part, none) ∈ o.amounts) : Blocked o part (.missing part)
  | amount (part : Part) (x : Binary64) (present : (part, some x) ∈ o.amounts)
      (notFinite : x.isFinite = false) : Blocked o part (.notFinite part x)

/-! ### Single lines -/

theorem amountText_eq_ok_iff {part : Part} {x : Binary64} {amount : String} :
    amountText part x = .ok amount ↔ Money.text? x = some amount := by
  unfold amountText
  cases Money.text? x with
  | none => exact iff_of_false nofun nofun
  | some text => rw [Except.ok.injEq, Option.some.injEq]

theorem amountText_error_iff (part : Part) (x : Binary64) (f : Fault) :
    amountText part x = .error f ↔ x.isFinite = false ∧ f = .notFinite part x := by
  unfold amountText Money.text?
  cases x.isFinite with
  | false =>
    constructor
    · intro h
      cases h
      exact ⟨rfl, rfl⟩
    · intro h
      rw [h.2]
      rfl
  | true => exact iff_of_false nofun fun h => nomatch h.1

theorem nameColumns_le_maxColumn {width : Nat} (h : width ≤ maxColumn) :
    nameColumns width ≤ maxColumn := by
  have hone : 1 ≤ maxColumn := by decide
  unfold nameColumns
  omega

/-- A row of an item, where it has room: the price decides. -/
theorem itemLine_of_room {item : Item} {width : Nat} (h : nameColumns width ≤ maxColumn) :
    itemLine item width =
      (amountText .items item.totalPrice).map fun price =>
        itemRow item.name item.quantity price width := by
  unfold itemLine
  cases amountText .items item.totalPrice with
  | error f => rfl
  | ok price =>
    change (if maxColumn < nameColumns width then throw Fault.columnTooWide else _) = _
    rw [if_neg (Nat.not_lt.mpr h)]
    rfl

theorem itemLine_error_iff (item : Item) {width : Nat} (h : width ≤ maxColumn) (f : Fault) :
    itemLine item width = .error f ↔
      item.totalPrice.isFinite = false ∧ f = .notFinite .items item.totalPrice := by
  rw [itemLine_of_room (nameColumns_le_maxColumn h), ← amountText_error_iff]
  cases amountText .items item.totalPrice with
  | ok price => exact iff_of_false nofun nofun
  | error g => exact Iff.rfl

theorem infoLine_error_iff (o : Order) (f : Fault) :
    o.infoLine = .error f ↔ o.orderId = none ∧ f = .missing .info := by
  unfold infoLine
  cases o.orderId with
  | some id => cases o.date <;> exact iff_of_false nofun fun h => nomatch h.1
  | none =>
    constructor
    · intro h
      cases h
      exact ⟨rfl, rfl⟩
    · intro h
      rw [h.2]
      rfl

/-! ### Labels and amounts -/

section Labelled

variable {o : Order} {part : Part} {label amount : String} {figure : Option Binary64} {width : Nat}

theorem mem_amounts_iff : (part, figure) ∈ o.amounts ↔ ∃ label, Labelled o part label figure := by
  constructor
  · intro h
    simp only [amounts, List.mem_cons, Prod.mk.injEq, List.not_mem_nil, or_false] at h
    rcases h with ⟨rfl, rfl⟩ | ⟨rfl, rfl⟩ | ⟨rfl, rfl⟩
    · exact ⟨_, .subtotal⟩
    · exact ⟨_, .tax⟩
    · exact ⟨_, .total⟩
  · rintro ⟨label, h⟩
    cases h <;> simp [amounts]

theorem Labelled.text_eq (h : Labelled o part label figure) (width : Nat) :
    o.text part width = amountLine part label figure width := by
  cases h <;> rfl

/-- A line has the columns asked for, or what its two ends take with one space between them. -/
theorem lineLength_eq_max (label amount : String) (width : Nat) :
    lineLength label amount width = max width (label.length + amount.length + 1) := by
  unfold lineLength gap
  rw [String.length_toList, String.length_toList]
  omega

theorem length_taxLabel_le (rate : Option Binary64) : (taxLabel rate).length ≤ 1043 := by
  cases rate with
  | none => decide
  | some rate =>
    have hrate := Money.length_rateText_le rate
    have hends : "Tax (".length = 5 ∧ "%):".length = 3 := by decide
    show ("Tax (" ++ Money.rateText rate ++ "%):").length ≤ 1043
    rw [String.length_append, String.length_append]
    omega

theorem Labelled.length_le (h : Labelled o part label figure) : label.length ≤ 1043 := by
  cases h with
  | subtotal => decide
  | tax => exact length_taxLabel_le o.taxRate
  | total => decide

/-- Label and amount alone are far from the longest text. -/
theorem Labelled.parts_le (h : Labelled o part label figure)
    (hamount : figure.bind Money.text? = some amount) : label.length + amount.length + 1 ≤ 2081 := by
  obtain ⟨x, rfl, htext⟩ := Option.bind_eq_some_iff.mp hamount
  have hlabel := h.length_le
  have hlength := Money.length_text?_le htext
  omega

/-- On lines of ordinary width there is room for every label and amount. -/
theorem Labelled.lineLength_le (h : Labelled o part label figure)
    (hamount : figure.bind Money.text? = some amount) (hwidth : width ≤ maxColumn) :
    lineLength label amount width ≤ maxLength := by
  have hparts := h.parts_le hamount
  have hmax : maxColumn ≤ maxLength ∧ 2081 ≤ maxLength := by decide
  rw [lineLength_eq_max]
  omega

/-- A figure that cannot be written is refused at every width, and for the same reason. -/
theorem amountLine_of_unwritten (part : Part) (label : String) (h : figure.bind Money.text? = none)
    (width : Nat) : amountLine part label figure width = .error (refusal part figure) := by
  cases figure with
  | none => rfl
  | some x =>
    have htext : Money.text? x = none := h
    unfold amountLine amountText
    dsimp only
    rw [htext]
    rfl

/-- Where the figure can be written, the room decides. -/
theorem amountLine_of_written (part : Part) (label : String) (h : figure.bind Money.text? = some amount)
    (width : Nat) :
    amountLine part label figure width =
      if maxLength < lineLength label amount width then .error .gapTooWide
      else .ok (columns label amount width) := by
  obtain ⟨x, rfl, htext⟩ := Option.bind_eq_some_iff.mp h
  unfold amountLine amountText
  dsimp only
  rw [htext]
  rfl

/-- A line of ordinary width has room. -/
theorem Labelled.text_of_room (h : Labelled o part label figure)
    (hamount : figure.bind Money.text? = some amount) (hwidth : width ≤ maxColumn) :
    o.text part width = .ok (columns label amount width) := by
  have hroom := h.lineLength_le hamount hwidth
  rw [h.text_eq, amountLine_of_written part label hamount, if_neg (Nat.not_lt.mpr hroom)]

theorem Labelled.text_error_iff (h : Labelled o part label figure) (hwidth : width ≤ maxColumn)
    (f : Fault) :
    o.text part width = .error f ↔ figure.bind Money.text? = none ∧ f = refusal part figure := by
  cases hamount : figure.bind Money.text? with
  | none =>
    rw [h.text_eq, amountLine_of_unwritten part label hamount, Except.error.injEq, eq_comm,
      and_iff_right rfl]
  | some amount =>
    rw [h.text_of_room hamount hwidth]
    exact iff_of_false nofun nofun

end Labelled

/-! ### Rows -/

/-- A traversal that stops at the first refusal fails as that refusal does. -/
theorem mapM_error_iff {α β ε : Type} (g : α → Except ε β) (l : List α) (e : ε) :
    l.mapM g = .error e ↔
      ∃ before a after, l = before ++ a :: after ∧ (∀ b ∈ before, ∃ r, g b = .ok r) ∧
        g a = .error e := by
  induction l with
  | nil =>
    refine iff_of_false nofun ?_
    intro h
    obtain ⟨before, a, after, h, -⟩ := h
    exact List.append_ne_nil_of_right_ne_nil _ (List.cons_ne_nil _ _) h.symm
  | cons x l ih =>
    rw [List.mapM_cons]
    cases hx : g x with
    | error e' =>
      constructor
      · intro h
        cases h
        exact ⟨[], x, l, rfl, fun b hb => absurd hb List.not_mem_nil, hx⟩
      · intro h
        obtain ⟨before, a, after, h, hbefore, ha⟩ := h
        rcases List.cons_eq_append_iff.mp h with ⟨rfl, h⟩ | ⟨tail, rfl, -⟩
        · obtain ⟨rfl, -⟩ := List.cons.inj h
          cases hx.symm.trans ha
          rfl
        · obtain ⟨r, hr⟩ := hbefore x List.mem_cons_self
          cases hx.symm.trans hr
    | ok r =>
      have hstep : (do let b ← (Except.ok r : Except ε β); let bs ← l.mapM g; pure (b :: bs)) =
          .error e ↔ l.mapM g = .error e := by
        cases l.mapM g with
        | error e' => exact Iff.rfl
        | ok bs => exact iff_of_false nofun nofun
      rw [hstep, ih]
      constructor
      · intro h
        obtain ⟨before, a, after, rfl, hbefore, ha⟩ := h
        exact ⟨x :: before, a, after, rfl, List.forall_mem_cons.mpr ⟨⟨r, hx⟩, hbefore⟩, ha⟩
      · intro h
        obtain ⟨before, a, after, h, hbefore, ha⟩ := h
        rcases List.cons_eq_append_iff.mp h with ⟨rfl, h⟩ | ⟨tail, rfl, h⟩
        · obtain ⟨rfl, -⟩ := List.cons.inj h
          cases hx.symm.trans ha
        · refine ⟨tail, a, after, (List.cons.inj h).2, fun b hb => ?_, ha⟩
          exact hbefore b (List.mem_cons_of_mem _ hb)

/-- The row of an item is written exactly if its total is finite. -/
theorem itemLine_ok_iff (item : Item) {width : Nat} (h : width ≤ maxColumn) :
    (∃ row, itemLine item width = .ok row) ↔ item.totalPrice.isFinite = true := by
  cases hfin : item.totalPrice.isFinite with
  | false =>
    have herr := (itemLine_error_iff item h _).mpr ⟨hfin, rfl⟩
    rw [herr]
    exact iff_of_false (fun hrow => nomatch hrow.choose_spec) Bool.false_ne_true
  | true =>
    refine iff_of_true ?_ rfl
    cases hl : itemLine item width with
    | ok row => exact ⟨row, rfl⟩
    | error f =>
      obtain ⟨hbad, -⟩ := (itemLine_error_iff item h f).mp hl
      exact absurd (hfin.symm.trans hbad) (by decide)

theorem rows_error_iff (o : Order) {width : Nat} (h : width ≤ maxColumn) (f : Fault) :
    o.text .items width = .error f ↔
      ∃ before bad after, o.items = before ++ bad :: after ∧
        (∀ i ∈ before, i.totalPrice.isFinite = true) ∧ bad.totalPrice.isFinite = false ∧
          f = .notFinite .items bad.totalPrice := by
  have hrows : o.text .items width = .error f ↔ o.items.mapM (itemLine · width) = .error f := by
    unfold text
    dsimp only
    cases o.items.mapM (itemLine · width) with
    | error g =>
      constructor
      · intro h
        cases h
        rfl
      · intro h
        cases h
        rfl
    | ok rows => exact iff_of_false nofun nofun
  rw [hrows, mapM_error_iff]
  simp only [itemLine_ok_iff _ h, itemLine_error_iff _ h]

/-- On lines of at most 65535 columns a part fails exactly if it is blocked, and for that reason. -/
theorem text_error_iff (o : Order) (part : Part) {width : Nat} (h : width ≤ maxColumn) (f : Fault) :
    o.text part width = .error f ↔ o.Blocked part f := by
  have hamount : ∀ {part label figure}, Labelled o part label figure →
      (o.text part width = .error f → o.Blocked part f) := by
    intro part label figure hlabel hf
    have hmem := mem_amounts_iff.mpr ⟨label, hlabel⟩
    obtain ⟨hunwritten, rfl⟩ := (hlabel.text_error_iff h f).mp hf
    cases figure with
    | none => exact .noAmount part hmem
    | some x => exact .amount part x hmem ((Money.text?_eq_none_iff x).mp hunwritten)
  constructor
  · cases part with
    | info =>
      intro hf
      obtain ⟨hid, rfl⟩ := (infoLine_error_iff o f).mp hf
      exact .noId hid
    | items =>
      intro hf
      obtain ⟨before, bad, after, hsplit, hsound, hbad, rfl⟩ := (rows_error_iff o h f).mp hf
      exact .item before bad after hsplit hsound hbad
    | subtotal => exact hamount .subtotal
    | tax => exact hamount .tax
    | total => exact hamount .total
  · intro hb
    cases hb with
    | noId absent => exact (infoLine_error_iff o _).mpr ⟨absent, rfl⟩
    | item before bad after hsplit hsound hbad =>
      exact (rows_error_iff o h _).mpr ⟨before, bad, after, hsplit, hsound, hbad, rfl⟩
    | noAmount part absent =>
      obtain ⟨label, hlabel⟩ := mem_amounts_iff.mp absent
      exact (hlabel.text_error_iff h _).mpr ⟨rfl, rfl⟩
    | amount part x present hx =>
      obtain ⟨label, hlabel⟩ := mem_amounts_iff.mp present
      exact (hlabel.text_error_iff h _).mpr ⟨(Money.text?_eq_none_iff x).mpr hx, rfl⟩

/-- The sample order lacks nothing. -/
theorem sample_not_blocked (part : Part) (f : Fault) : ¬ sample.Blocked part f := by
  intro hb
  cases hb with
  | noId absent => cases absent
  | item before bad after hsplit hsound hbad =>
    have hall : ∀ i ∈ sample.items, i.totalPrice.isFinite = true := by decide
    have hfin := hall bad (hsplit ▸ List.mem_append_cons_self)
    exact absurd (hfin.symm.trans hbad) (by decide)
  | noAmount part absent => simp [amounts, sample] at absent
  | amount part x present hx =>
    have hall : ∀ a ∈ sample.amounts, ∀ x, a.2 = some x → x.isFinite = true := by
      intro a ha x hx
      simp only [amounts, List.mem_cons, List.not_mem_nil, or_false] at ha
      rcases ha with rfl | rfl | rfl <;> cases hx <;> decide
    exact absurd ((hall _ present x rfl).symm.trans hx) (by decide)

theorem sample_text_ok (part : Part) {width : Nat} (h : width ≤ maxColumn) :
    ∃ text, sample.text part width = .ok text := by
  cases ht : sample.text part width with
  | ok text => exact ⟨text, rfl⟩
  | error f => exact absurd ((text_error_iff sample part h f).mp ht) (sample_not_blocked part f)

end Receipt.Order
