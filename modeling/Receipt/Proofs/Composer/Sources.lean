import Receipt.Dialect
import Receipt.Proofs.Composer.Concatenation
import Receipt.Proofs.Text.Lines

/-!
# Where the text of a section comes from

A text section prints either a part of an order or what is written for it, never some of each. Written
text alone has its placeholders replaced, so a name in braces that comes with an order is printed as it
is. With an order at hand a bound section does not look at what is written; any other section does not
look at the order. The sample order fills in only where neither is there.
-/

namespace Receipt

/-- A section prints a part of an order if its rule is one for text and names that part. -/
structure Section.Bound (d : Dialect) (s : Section) (rule : Rule) (part : Order.Part) : Prop where
  listed : d.vocabulary.get? s.tag = some rule
  prints : rule.kind = .text
  bound : rule.binding = some part

namespace Composer

/-- What a section comes to: the primitives that it adds, and its fault if it meets one. -/
def outcome (d : Dialect) (order : Option Order) (s : Section) : Program × Option Fault :=
  let (c, fault) := push { dialect := d, order } s
  (c.program, fault)

theorem outcome_eq (d : Dialect) (order : Option Order) (s : Section) :
    outcome d order s = (emission d order s, fault? d order s) := by
  unfold outcome
  rw [push_eq]
  rfl

/-- What a text section comes to, once it is known what its text is. -/
def printed (o : Options) (s : Section) (rule : Rule) :
    Except Order.Fault String → Program × Option Fault
  | .ok text => (.align (alignmentOf s rule) :: textOps o rule (styleOf s rule) text, none)
  | .error f => ([.align (alignmentOf s rule)], some (.order f))

theorem outcome_text {d : Dialect} {s : Section} {rule : Rule}
    (hlisted : d.vocabulary.get? s.tag = some rule) (hprints : rule.kind = .text)
    (order : Option Order) :
    outcome d order s = printed d.options s rule (textOf d.options order s rule) := by
  rw [outcome_eq]
  unfold emission fault?
  simp only [hlisted, hprints]
  cases textOf d.options order s rule <;> rfl

/-- Layouts are composed to the same end if each section comes to the same. -/
theorem compose_congr {d d' : Dialect} {order order' : Option Order} {sections : List Section}
    (h : ∀ s ∈ sections, outcome d order s = outcome d' order' s) :
    d.compose order sections = d'.compose order' sections := by
  simp only [outcome_eq, Prod.mk.injEq] at h
  have hfault : sections.findSome? (fault? d order) = sections.findSome? (fault? d' order') := by
    induction sections with
    | nil => rfl
    | cons s rest ih =>
      rw [List.findSome?_cons, List.findSome?_cons, (h s List.mem_cons_self).2,
        ih fun t ht => h t (List.mem_cons_of_mem s ht)]
  have hemission : sections.flatMap (emission d order) = sections.flatMap (emission d' order') :=
    List.flatMap_congr fun s hs => (h s hs).1
  rw [compose_eq, compose_eq, hemission, hfault]

/-! ### The text -/

theorem textOf_bound {rule : Rule} {part : Order.Part} (h : rule.binding = some part) (o : Options)
    (order : Order) (s : Section) :
    textOf o (some order) s rule = order.text part o.lineWidth.toNat := by
  unfold textOf
  rw [h]
  rfl

theorem textOf_unbound {rule : Rule} (h : rule.binding = none) (o : Options)
    (order : Option Order) (s : Section) :
    textOf o order s rule = .ok (template o ((writtenOf s rule).getD "")) := by
  unfold textOf
  rw [h]

theorem textOf_unwritten {rule : Rule} {part : Order.Part} (h : rule.binding = some part)
    (o : Options) {s : Section} (hnone : writtenOf s rule = none) :
    textOf o none s rule = textOf o (some .sample) s rule := by
  rw [textOf_bound h]
  unfold textOf
  rw [h, hnone]
  rfl

theorem lines_fed (style : Option TextStyle) (lines : List String) :
    Program.lines (lines.flatMap fun line => [.text line style, .feed 1]) = lines := by
  induction lines with
  | nil => rfl
  | cons line lines ih =>
    rw [List.flatMap_cons, Program.lines_append, ih]
    rfl

theorem lines_textOps (o : Options) (rule : Rule) (style : Option TextStyle) (text : String) :
    Program.lines (textOps o rule style text) =
      if rule.multiline then linesOf text else [text] := by
  unfold textOps
  split
  · exact lines_fed style (linesOf text)
  · cases o.autoFeed <;> rfl

theorem textOps_multiline {rule : Rule} (h : rule.multiline = true) (o : Options)
    (style : Option TextStyle) (text : String) :
    textOps o rule style text = (linesOf text).flatMap fun line => [.text line style, .feed 1] := by
  rw [textOps, if_pos h]

/-! ### What an outcome depends on -/

/-- With an order at hand a bound section comes to what the part of the order is. -/
theorem outcome_bound {d : Dialect} {s : Section} {rule : Rule} {part : Order.Part}
    (h : s.Bound d rule part) (order : Order) :
    outcome d (some order) s =
      printed d.options s rule (order.text part d.options.lineWidth.toNat) := by
  rw [outcome_text h.listed h.prints, textOf_bound h.bound]

theorem outcome_not_bound {d : Dialect} {s : Section} (h : ∀ rule part, ¬ s.Bound d rule part)
    (order order' : Option Order) : outcome d order s = outcome d order' s := by
  cases hlisted : d.vocabulary.get? s.tag with
  | none =>
    rw [outcome_eq, outcome_eq]
    unfold emission fault?
    simp only [hlisted]
  | some rule =>
    cases hkind : rule.kind with
    | spacer =>
      rw [outcome_eq, outcome_eq]
      unfold emission fault?
      simp only [hlisted, hkind]
    | text =>
      have hbinding : rule.binding = none := by
        cases hb : rule.binding with
        | none => rfl
        | some part => exact absurd ⟨hlisted, hkind, hb⟩ (h rule part)
      rw [outcome_text hlisted hkind, outcome_text hlisted hkind, textOf_unbound hbinding,
        textOf_unbound hbinding]

/-- The sample order stands in for no order wherever nothing is written. -/
theorem outcome_sample {d : Dialect} {s : Section}
    (h : ∀ rule part, s.Bound d rule part → writtenOf s rule = none) :
    outcome d none s = outcome d (some .sample) s := by
  by_cases hbound : ∃ rule part, s.Bound d rule part
  · obtain ⟨rule, part, hb⟩ := hbound
    rw [outcome_text hb.listed hb.prints, outcome_text hb.listed hb.prints,
      textOf_unwritten hb.bound d.options (h rule part hb)]
  · exact outcome_not_bound (fun rule part hb => hbound ⟨rule, part, hb⟩) none _

/-- An order and what is written never meet in one section. -/
theorem order_apart_from_template (d : Dialect) :
    (∀ (s : Section) (rule : Rule) (part : Order.Part) (order : Order), s.Bound d rule part →
      -- What is written, and whether placeholders are replaced, makes no difference.
      (∀ (d' : Dialect) (content content' : Option String) (placeholders : Bool),
        d'.options = { d.options with placeholders } →
        d'.vocabulary.get? s.tag = some { rule with content := content' } →
        outcome d' (some order) { s with content } = outcome d (some order) s) ∧
      -- The part of the order is printed as it stands, on one line or on its own lines.
      (∀ text, order.text part d.options.lineWidth.toNat = .ok text →
        (outcome d (some order) s).2 = none ∧
          ((outcome d (some order) s).1.lines = if rule.multiline then linesOf text else [text]) ∧
          ('\r' ∉ text.toList →
            ['\n'].intercalate ((outcome d (some order) s).1.lines.map String.toList) =
              text.toList)) ∧
      (∀ f, order.text part d.options.lineWidth.toNat = .error f →
        (outcome d (some order) s).2 = some (.order f) ∧ (outcome d (some order) s).1.lines = [])) ∧
    (∀ s : Section, (∀ rule part, ¬ s.Bound d rule part) →
      ∀ order order', outcome d order s = outcome d order' s) ∧
    (∀ l : Layout,
      (∀ s ∈ l.sections, ∀ rule part, s.Bound d rule part →
        s.content = none ∧ rule.content = none) →
      d.bodyOf none l = d.bodyOf (some .sample) l ∧
        d.receiptOf none l = d.receiptOf (some .sample) l) := by
  refine ⟨fun s rule part order h => ⟨?_, ?_, ?_⟩, fun s h => outcome_not_bound h, fun l h => ?_⟩
  · intro d' content content' placeholders hoptions hlisted
    have h' : Section.Bound d' { s with content } { rule with content := content' } part :=
      ⟨hlisted, h.prints, h.bound⟩
    rw [outcome_bound h, outcome_bound h', hoptions]
    cases order.text part d.options.lineWidth.toNat <;> rfl
  · intro text htext
    rw [outcome_bound h, htext]
    have hlines : Program.lines (printed d.options s rule (.ok text)).1 =
        if rule.multiline then linesOf text else [text] :=
      lines_textOps d.options rule (styleOf s rule) text
    refine ⟨rfl, hlines, fun hreturn => ?_⟩
    rw [hlines]
    split
    · exact intercalate_linesOf hreturn
    · exact List.intercalate_singleton
  · intro f hf
    rw [outcome_bound h, hf]
    exact ⟨rfl, rfl⟩
  · have hcompose : d.compose none l.sections = d.compose (some .sample) l.sections := by
      refine compose_congr fun s hs => outcome_sample fun rule part hb => ?_
      obtain ⟨hcontent, hrule⟩ := h s hs rule part hb
      rw [writtenOf, hcontent, hrule, Option.or_none]
    unfold Dialect.receiptOf Dialect.bodyOf
    rw [hcompose]
    exact ⟨rfl, rfl⟩

/-- An item that is called like a placeholder is printed under that name, whatever is written for the
list; a line of its own is the same with that order and without; the sample total stands in. -/
theorem item_called_like_a_placeholder :
    let list : Rule := { multiline := true, binding := some .items, content := some "{total}" }
    let d : Dialect := {
      vocabulary := .insertAll ∅
        [("items", list), ("note", {}), ("total", { binding := some .total })]
      options := { lineWidth := 20 } }
    let bare : Dialect := {
      vocabulary := .insertAll ∅ [("items", { list with content := none })]
      options := { lineWidth := 20, placeholders := false } }
    let order : Order := {
      items := [⟨"{total}", 2, .zero false, .zero false⟩, ⟨"Tea", 1, .zero false, .zero false⟩] }
    let items : Section := { tag := "items", content := some "{tax}" }
    let note : Section := { tag := "note", content := some "{total}" }
    let l : Layout := { sections := [note, { tag := "total" }] }
    items.Bound d list .items ∧
      outcome bare (some order) { items with content := none } = outcome d (some order) items ∧
      (outcome d (some order) items).1.lines =
        ["{total}     x2  $0.00", "Tea         x1  $0.00"] ∧
      ['\n'].intercalate ((outcome d (some order) items).1.lines.map String.toList) =
        "{total}     x2  $0.00\nTea         x1  $0.00".toList ∧
      (outcome d (some {}) { tag := "total" }).2 = some (.order (.missing .total)) ∧
      (∀ rule part, ¬ note.Bound d rule part) ∧
      outcome d (some order) note = outcome d none note ∧
      d.bodyOf none l = d.bodyOf (some .sample) l := by
  intro list d bare order items note l
  have hitems : items.Bound d list .items := ⟨by decide, rfl, rfl⟩
  have htotal : Section.Bound d { tag := "total" } { binding := some .total } .total :=
    ⟨by decide, rfl, rfl⟩
  have htext : order.text .items d.options.lineWidth.toNat =
      .ok "{total}     x2  $0.00\nTea         x1  $0.00" := by decide +kernel
  have hnote : ∀ rule part, ¬ note.Bound d rule part := by
    intro rule part h
    have hlisted : d.vocabulary.get? note.tag = some {} := by decide
    obtain rfl := Option.some.inj (hlisted.symm.trans h.listed)
    cases h.bound
  have hl : ∀ s ∈ l.sections, ∀ rule part, s.Bound d rule part →
      s.content = none ∧ rule.content = none := by
    intro s hs rule part h
    rcases List.mem_pair.mp hs with rfl | rfl
    · exact absurd h (hnote rule part)
    · obtain rfl := Option.some.inj (htotal.listed.symm.trans h.listed)
      exact ⟨rfl, rfl⟩
  obtain ⟨hbound, hnotBound, hsample⟩ := order_apart_from_template d
  obtain ⟨hwritten, hprinted, -⟩ := hbound items list .items order hitems
  obtain ⟨-, hlines, hjoined⟩ := hprinted _ htext
  obtain ⟨-, -, hmissing⟩ := hbound { tag := "total" } _ .total {} htotal
  exact ⟨hitems, hwritten bare none none false rfl rfl, hlines.trans (by decide +kernel),
    hjoined (by decide), (hmissing _ rfl).1, hnote, hnotBound note hnote _ _, (hsample l hl).1⟩

end Composer

end Receipt
