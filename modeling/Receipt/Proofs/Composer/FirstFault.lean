import Receipt.Dialect
import Receipt.Layout.Writer
import Receipt.Proofs.Composer.Emission
import Receipt.Proofs.Order.Obstacles

/-!
# The first fault decides

A text that cannot be read has no body, whatever its sections would print. A layout has a body exactly
if none of its sections is faulty; otherwise the first faulty one gives the fault, and the receipt is
the notice of that fault and nothing else. `Faulty` says what a faulty section is without composing
anything. Lines are at most 65535 columns wide here; beyond that there is a fault of room as well.
-/

namespace Receipt

open Composer

/-- A section that cannot be printed, with the fault: its type is unknown where that is forbidden, or
it prints a part of the order at hand that is blocked. -/
inductive Section.Faulty (d : Dialect) (order : Option Order) (s : Section) : Composer.Fault → Prop where
  | unknown (unlisted : d.vocabulary.get? s.tag = none)
      (strict : d.options.unknownSections = .error) :
      Faulty d order s (.unknownType s.tag)
  | blocked (rule : Rule) (part : Order.Part) (o : Order) (f : Order.Fault)
      (listed : d.vocabulary.get? s.tag = some rule) (prints : rule.kind = .text)
      (bound : rule.binding = some part) (given : order = some o) (fault : o.Blocked part f) :
      Faulty d order s (.order f)

/-! ### One section -/

/-- Without an order a bound section prints its own text or the sample order. -/
theorem boundText_none_ok {o : Options} (hw : o.lineWidth.toNat ≤ 65535) (part : Order.Part)
    (written : Option String) : ∃ text, boundText o none part written = .ok text := by
  cases written with
  | some text => exact ⟨template o text, rfl⟩
  | none => exact Order.sample_text_ok part hw

/-- A text fails only where it comes from the order at hand; the sample order never fails. -/
theorem textOf_error_iff {o : Options} (hw : o.lineWidth.toNat ≤ 65535) (order : Option Order)
    (s : Section) (rule : Rule) (f : Order.Fault) :
    textOf o order s rule = .error f ↔
      ∃ part r, rule.binding = some part ∧ order = some r ∧ r.Blocked part f := by
  unfold textOf
  cases hb : rule.binding with
  | none =>
    refine iff_of_false nofun ?_
    intro h
    obtain ⟨part, r, hpart, -⟩ := h
    cases hpart
  | some part =>
    dsimp only
    cases order with
    | some r =>
      dsimp only [boundText]
      rw [Order.text_error_iff r part hw f]
      constructor
      · intro h
        exact ⟨part, r, rfl, rfl, h⟩
      · intro h
        obtain ⟨part', r', hpart, hr, h⟩ := h
        cases hpart
        cases hr
        exact h
    | none =>
      obtain ⟨text, ht⟩ := boundText_none_ok hw part (writtenOf s rule)
      rw [ht]
      refine iff_of_false nofun ?_
      intro h
      obtain ⟨part', r', -, hr, -⟩ := h
      cases hr

/-- The fault that composing meets is the one that makes the section faulty. -/
theorem fault?_eq_some_iff {d : Dialect} (hw : d.options.lineWidth.toNat ≤ 65535)
    (order : Option Order) (s : Section) (f : Composer.Fault) :
    fault? d order s = some f ↔ s.Faulty d order f := by
  constructor
  · intro h
    unfold fault? at h
    split at h
    · next hget =>
      split at h
      · cases h
      · next hpolicy =>
        cases h
        exact .unknown hget hpolicy
    · next rule hget =>
      split at h
      · cases h
      · next hkind =>
        split at h
        · cases h
        · next g htext =>
          cases h
          obtain ⟨part, o, hb, ho, hblocked⟩ := (textOf_error_iff hw order s rule g).mp htext
          exact .blocked rule part o g hget hkind hb ho hblocked
  · intro h
    cases h with
    | unknown hget hpolicy => simp [fault?, hget, hpolicy]
    | blocked rule part o g hget hkind hb ho hblocked =>
      have htext := (textOf_error_iff hw order s rule g).mpr ⟨part, o, hb, ho, hblocked⟩
      simp [fault?, hget, hkind, htext]

theorem fault?_eq_none_iff {d : Dialect} (hw : d.options.lineWidth.toNat ≤ 65535)
    (order : Option Order) (s : Section) :
    fault? d order s = none ↔ ∀ f, ¬ s.Faulty d order f := by
  simp only [Option.eq_none_iff_forall_ne_some, ne_eq, fault?_eq_some_iff hw]

/-! ### Layouts and texts -/

theorem bodyOf_error_iff {d : Dialect} (hw : d.options.lineWidth.toNat ≤ 65535)
    (order : Option Order) (l : Layout) (f : Fault) :
    d.bodyOf order l = .error f ↔
      ∃ before s after g, l.sections = before ++ s :: after ∧
        (∀ t ∈ before, ∀ h, ¬ t.Faulty d order h) ∧ s.Faulty d order g ∧ f = .body g := by
  have hcompose : d.bodyOf order l = .error f ↔
      ∃ g, d.compose order l.sections = .error g ∧ f = .body g := by
    unfold Dialect.bodyOf
    cases d.compose order l.sections with
    | ok p => exact iff_of_false nofun fun h => nomatch h.choose_spec.1
    | error g =>
      constructor
      · intro h
        cases h
        exact ⟨g, rfl, rfl⟩
      · intro h
        obtain ⟨g', hg, rfl⟩ := h
        cases hg
        rfl
  rw [hcompose]
  simp only [compose_eq_error_iff, fault?_eq_some_iff hw, fault?_eq_none_iff hw]
  constructor
  · intro h
    obtain ⟨g, ⟨before, s, after, hsplit, hs, hbefore⟩, hf⟩ := h
    exact ⟨before, s, after, g, hsplit, hbefore, hs, hf⟩
  · intro h
    obtain ⟨before, s, after, g, hsplit, hbefore, hs, hf⟩ := h
    exact ⟨g, ⟨before, s, after, hsplit, hs, hbefore⟩, hf⟩

theorem body_error_iff (d : Dialect) (order : Option Order) (text : String) (f : Fault) :
    d.body order text = .error f ↔
      (∃ g, Layout.read? text = .error g ∧ f = .layout g) ∨
        ∃ l, Layout.read? text = .ok (some l) ∧ d.bodyOf order l = .error f := by
  unfold Dialect.body
  cases Layout.read? text with
  | error g =>
    constructor
    · intro h
      cases h
      exact .inl ⟨g, rfl, rfl⟩
    · intro h
      rcases h with ⟨g', hg, rfl⟩ | ⟨l, hl, -⟩
      · cases hg
        rfl
      · cases hl
  | ok layout =>
    cases layout with
    | none =>
      refine iff_of_false nofun ?_
      intro h
      rcases h with ⟨g, hg, -⟩ | ⟨l, hl, -⟩
      · cases hg
      · cases hl
    | some l =>
      constructor
      · intro h
        exact .inr ⟨l, rfl, h⟩
      · intro h
        rcases h with ⟨g, hg, -⟩ | ⟨l', hl, h⟩
        · cases hg
        · cases hl
          exact h

/-- A body fails exactly by a text that cannot be read or by the first faulty section of a layout. A
failure leaves the notice of the fault alone on the receipt; a success leaves the whole body. -/
theorem body_fails_by_first_fault (d : Dialect) (order : Option Order) (text : String)
    (hw : d.options.lineWidth.toNat ≤ 65535) :
    (∀ f, d.body order text = .error f ↔
      (∃ g, Layout.read? text = .error g ∧ f = .layout g) ∨
        ∃ l before s after g, Layout.read? text = .ok (some l) ∧
          l.sections = before ++ s :: after ∧ (∀ t ∈ before, ∀ h, ¬ t.Faulty d order h) ∧
          s.Faulty d order g ∧ f = .body g) ∧
    (∀ f, d.body order text = .error f →
      d.receipt order text =
        [.align .center, .text ("ERROR: " ++ f.message) (some { bold := true, size := .normal }),
          .feed 2, .cut]) ∧
    (∀ p, d.body order text = .ok p → d.receipt order text = p ++ [.feed 2, .cut]) := by
  refine ⟨fun f => ?_, fun f hf => ?_, fun p hp => ?_⟩
  · rw [body_error_iff]
    refine or_congr Iff.rfl ?_
    constructor
    · intro h
      obtain ⟨l, hread, hbody⟩ := h
      obtain ⟨before, s, after, g, h⟩ := (bodyOf_error_iff hw order l f).mp hbody
      exact ⟨l, before, s, after, g, hread, h⟩
    · intro h
      obtain ⟨l, before, s, after, g, hread, h⟩ := h
      exact ⟨l, hread, (bodyOf_error_iff hw order l f).mpr ⟨before, s, after, g, h⟩⟩
  · unfold Dialect.receipt
    rw [hf]
    rfl
  · unfold Dialect.receipt
    rw [hp]
    rfl

/-- The first line could be printed and the last section is faulty as well; the total counts. -/
theorem unfilled_total_comes_first :
    let d : Dialect := {
      vocabulary := .insertAll ∅ [("text", {}), ("total", { binding := some .total })]
      options := { unknownSections := .error } }
    let l : Layout := {
      sections := [{ tag := "text", content := some "hi" }, { tag := "total" }, { tag := "logo" }] }
    d.options.lineWidth.toNat ≤ 65535 ∧
      d.body (some {}) l.write = .error (.body (.order (.missing .total))) ∧
      d.receipt (some {}) l.write =
        [.align .center, .text "ERROR: order has no totalAmount" (some .emphasis), .feed 2, .cut] := by
  intro d l
  have hw : d.options.lineWidth.toNat ≤ 65535 := by decide
  have hread : Layout.read? l.write = .ok (some l) := by
    have hsome : (Layout.read? l.write).toOption = some (some l) := by decide +kernel
    cases hr : Layout.read? l.write with
    | error g =>
      rw [hr] at hsome
      cases hsome
    | ok layout =>
      rw [hr] at hsome
      exact congrArg Except.ok (Option.some.inj hsome)
  have hgood : ∀ f, ¬ Section.Faulty d (some {}) { tag := "text", content := some "hi" } f :=
    (fault?_eq_none_iff hw _ _).mp (by decide)
  have hbad : Section.Faulty d (some {}) { tag := "total" } (.order (.missing .total)) :=
    (fault?_eq_some_iff hw _ _ _).mp (by decide)
  have hspec := body_fails_by_first_fault d (some {}) l.write hw
  have hbody := (hspec.1 _).mpr (.inr ⟨l, [{ tag := "text", content := some "hi" }],
    { tag := "total" }, [{ tag := "logo" }], _, hread, rfl, by simpa using hgood, hbad, rfl⟩)
  exact ⟨hw, hbody, hspec.2.1 _ hbody⟩

end Receipt
