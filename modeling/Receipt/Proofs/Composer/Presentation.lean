import Receipt.Proofs.Composer.Continuation
import Receipt.Proofs.Except

/-!
# Looks and texts

How a section looks is decided by its alignment and its style, and whether a line is fed behind a single
line by a switch of the dialect. Neither is read where the text of a section is worked out, so layouts that
differ in looks alone print the same texts, or fail by the same fault. Their programs agree primitive by
primitive but for alignments and styles, and but for the feed behind the texts of single lines: `Look` says
so for the programs of one section and `Looks` for those of a layout.
-/

namespace Receipt

/-- The dialect that differs at most in whether a line is fed behind a single line. -/
def Dialect.feeding (d : Dialect) (on : Bool) : Dialect :=
  { d with options := { d.options with autoFeed := on } }

/-- Sections of one type that say the same; they may look different. -/
structure Section.SameText (s s' : Section) : Prop where
  tag : s'.tag = s.tag
  content : s'.content = s.content
  lines : s'.lines = s.lines

/-- A section whose content is printed as a single line. -/
def Section.PrintsLine (v : Vocabulary) (s : Section) : Prop :=
  ∃ rule, v.get? s.tag = some rule ∧ rule.kind = .text ∧ rule.multiline = false

theorem printsLine_iff {v : Vocabulary} {s : Section} {rule : Rule}
    (hlisted : v.get? s.tag = some rule) :
    s.PrintsLine v ↔ rule.kind = .text ∧ rule.multiline = false := by
  constructor
  · rintro ⟨rule', hlisted', h⟩
    obtain rfl := Option.some.inj (hlisted.symm.trans hlisted')
    exact h
  · exact fun h => ⟨rule, hlisted, h⟩

/-! ### Programs without looks -/

/-- A primitive with every alignment and every style taken for one. -/
def Op.bare : Op → Op
  | .align _ => .align .left
  | .text content _ => .text content none
  | op => op

namespace Program

def bare (p : Program) : Program :=
  p.map Op.bare

theorem bare_append (p q : Program) : bare (p ++ q) = bare p ++ bare q :=
  List.map_append

theorem lines_bare (p : Program) : lines (bare p) = lines p := by
  unfold lines bare
  rw [List.filterMap_map]
  refine List.filterMap_congr fun op _ => ?_
  cases op <;> rfl

theorem bare_fed (style : Option TextStyle) (texts : List String) :
    bare (texts.flatMap fun line => [.text line style, .feed 1]) =
      texts.flatMap fun line => [.text line none, .feed 1] := by
  unfold bare
  rw [List.map_flatMap]
  rfl

end Program

namespace Composer

open Program

/-- The feed behind a single line, if the dialect asks for it. -/
def feedBehind (on : Bool) : Program :=
  if on then [.feed 1] else []

/-- Two programs of a section that differ in looks. Behind the text of a single line the one has the feed
that its dialect asks for and the other that of its own; elsewhere there is no such feed. -/
inductive Look (v : Vocabulary) (on on' : Bool) (s : Section) : Program → Program → Prop where
  | line (single : s.PrintsLine v) (text : String) (a a' : Alignment) (style style' : Option TextStyle) :
      Look v on on' s (.align a :: .text text style :: feedBehind on)
        (.align a' :: .text text style' :: feedBehind on')
  | other {p p' : Program} (noLine : ¬ s.PrintsLine v) (same : bare p' = bare p) :
      Look v on on' s p p'

/-- Two programs of a layout that differ in looks, section by section. -/
inductive Looks (v : Vocabulary) (on on' : Bool) : List Section → Program → Program → Prop where
  | nil : Looks v on on' [] [] []
  | cons {s : Section} {sections : List Section} {part part' p p' : Program}
      (first : Look v on on' s part part') (rest : Looks v on on' sections p p') :
      Looks v on on' (s :: sections) (part ++ p) (part' ++ p')

variable {v : Vocabulary} {on on' : Bool} {s s' : Section} {sections sections' : List Section}
  {p p' : Program} {d : Dialect} {order : Option Order}

theorem Look.lines_eq (h : Look v on on' s p p') : p'.lines = p.lines := by
  cases h with
  | line => cases on <;> cases on' <;> rfl
  | other _ same => rw [← lines_bare p', same, lines_bare]

theorem Looks.lines_eq (h : Looks v on on' sections p p') : p'.lines = p.lines := by
  induction h with
  | nil => rfl
  | cons first _ ih => rw [lines_append, lines_append, first.lines_eq, ih]

theorem Look.bare_eq (h : Look v on on s p p') : p'.bare = p.bare := by
  cases h with
  | line => rfl
  | other _ same => exact same

/-- Where both dialects feed alike, nothing but looks differs. -/
theorem Looks.bare_eq (h : Looks v on on sections p p') : p'.bare = p.bare := by
  induction h with
  | nil => rfl
  | cons first _ ih => rw [bare_append, bare_append, first.bare_eq, ih]

/-! ### One section -/

theorem textOf_sameText (h : s.SameText s') (d : Dialect) (on : Bool) (order : Option Order)
    (rule : Rule) : textOf (d.feeding on).options order s' rule = textOf d.options order s rule := by
  unfold textOf writtenOf
  rw [h.content]
  rfl

theorem fault?_sameText (h : s.SameText s') (d : Dialect) (on : Bool) (order : Option Order) :
    fault? (d.feeding on) order s' = fault? d order s := by
  unfold fault?
  simp only [h.tag, textOf_sameText h]
  rfl

theorem textOps_line {rule : Rule} (h : rule.multiline = false) (o : Options)
    (style : Option TextStyle) (text : String) :
    textOps o rule style text = .text text style :: feedBehind o.autoFeed := by
  rw [textOps, h]
  rfl

theorem bare_textOps {rule : Rule} (h : rule.multiline = true) (o : Options)
    (style : Option TextStyle) (text : String) :
    bare (textOps o rule style text) =
      (linesOf text).flatMap fun line => [.text line none, .feed 1] := by
  rw [textOps_multiline h, bare_fed]

/-- A section that is printed in one look is printed in the other. -/
theorem look_emission (h : s.SameText s') (on : Bool) (hnone : fault? d order s = none) :
    Look d.vocabulary d.options.autoFeed on s (emission d order s)
      (emission (d.feeding on) order s') := by
  have htaking := taking d order s
  rw [hnone] at htaking
  generalize emission d order s = ops at htaking ⊢
  -- The second section is taken in the way of the first; refusals are out, since there is no fault.
  cases htaking with
  | skipped unlisted lenient =>
    have htaking' : Taking (d.feeding on) order s' [] none := .skipped (h.tag ▸ unlisted) lenient
    rw [htaking'.emission_eq]
    refine .other ?_ rfl
    rintro ⟨rule, listed, -⟩
    cases unlisted.symm.trans listed
  | fed listed feeds =>
    have htaking' : Taking (d.feeding on) order s' (feedOps (s'.lines.getD 1)) none :=
      .fed (h.tag ▸ listed) feeds
    rw [htaking'.emission_eq, h.lines]
    refine .other ?_ rfl
    rw [printsLine_iff listed, feeds]
    exact fun hline => nomatch hline.1
  | @printed rule text listed prints found =>
    have htaking' := Taking.printed (d := d.feeding on) (h.tag ▸ listed) prints
      ((textOf_sameText h d on order rule).trans found)
    rw [htaking'.emission_eq]
    cases hmultiline : rule.multiline with
    | true =>
      refine .other ?_ ?_
      · rw [printsLine_iff listed, hmultiline]
        exact fun hline => nomatch hline.2
      · show .align .left :: bare _ = .align .left :: bare _
        rw [bare_textOps hmultiline, bare_textOps hmultiline]
    | false =>
      rw [textOps_line hmultiline, textOps_line hmultiline]
      exact .line ((printsLine_iff listed).mpr ⟨prints, hmultiline⟩) text _ _ _ _

/-! ### Layouts -/

theorem findSome?_fault?_sameText (h : List.Forall₂ Section.SameText sections sections') (on : Bool) :
    sections'.findSome? (fault? (d.feeding on) order) = sections.findSome? (fault? d order) := by
  induction h with
  | nil => rfl
  | cons hfirst _ ih =>
    rw [List.findSome?_cons, List.findSome?_cons, fault?_sameText hfirst, ih]

theorem looks_emissions (h : List.Forall₂ Section.SameText sections sections') (on : Bool)
    (hnone : ∀ s ∈ sections, fault? d order s = none) :
    Looks d.vocabulary d.options.autoFeed on sections (sections.flatMap (emission d order))
      (sections'.flatMap (emission (d.feeding on) order)) := by
  induction h with
  | nil => exact .nil
  | cons hfirst _ ih =>
    obtain ⟨hnone, hrest⟩ := List.forall_mem_cons.mp hnone
    rw [List.flatMap_cons, List.flatMap_cons]
    exact .cons (look_emission hfirst on hnone) (ih hrest)

/-- Layouts whose sections say the same one by one come to the same end, whatever their alignments and
styles and whether lines are fed behind single lines or not: to one fault, or to programs with the same
texts that differ in looks and in those feeds alone. -/
theorem looks_leave_texts_alone (d : Dialect) (on : Bool) (order : Option Order) {l l' : Layout}
    (h : List.Forall₂ Section.SameText l.sections l'.sections) :
    match d.bodyOf order l, (d.feeding on).bodyOf order l' with
    | .ok p, .ok p' =>
      Program.lines p' = Program.lines p ∧
        Looks d.vocabulary d.options.autoFeed on l.sections p p' ∧
        (on = d.options.autoFeed → Program.bare p' = Program.bare p)
    | .error f, .error f' => f' = f
    | .ok _, .error _ => False
    | .error _, .ok _ => False := by
  unfold Dialect.bodyOf
  rw [compose_eq, compose_eq, findSome?_fault?_sameText h]
  cases hfault : l.sections.findSome? (fault? d order) with
  | some f => rfl
  | none =>
    have hlooks := looks_emissions h on (List.findSome?_eq_none_iff.mp hfault)
    refine ⟨hlooks.lines_eq, hlooks, ?_⟩
    rintro rfl
    exact hlooks.bare_eq

/-- A receipt with a large title, bold rows and an amount at the right is the plain one in other looks, with
a feed behind its title and its total; without the total both fail alike. -/
theorem dressed_receipt_has_plain_texts :
    let d : Dialect := {
      vocabulary := .insertAll ∅
        [("gap", { kind := .spacer }), ("rows", { multiline := true }),
          ("title", { emphasis := .bold }), ("total", { binding := some .total })]
      options := { lineWidth := 14 } }
    let order : Order := { totalAmount := some (Order.cents 550) }
    let l : Layout := {
      sections := [{ tag := "title", content := some "Bar" }, { tag := "logo" },
        { tag := "rows", content := some "a\nb" }, { tag := "gap", lines := some 2 },
        { tag := "total" }] }
    let l' : Layout := {
      alignment := some .right
      sections := [
        { tag := "title", content := some "Bar", alignment := some .center,
          style := some { bold := some false, size := some .large } },
        { tag := "logo", style := some {} },
        { tag := "rows", content := some "a\nb", style := some { bold := some true } },
        { tag := "gap", lines := some 2, alignment := some .center },
        { tag := "total", alignment := some .right }] }
    let p : Program := [.align .left, .text "Bar" (some .emphasis), .align .left, .text "a" none,
      .feed 1, .text "b" none, .feed 1, .feed 2, .align .left, .text "TOTAL:   $5.50" none]
    let p' : Program := [.align .center, .text "Bar" (some { size := .large }), .feed 1,
      .align .left, .text "a" (some .emphasis), .feed 1, .text "b" (some .emphasis), .feed 1, .feed 2,
      .align .right, .text "TOTAL:   $5.50" none, .feed 1]
    List.Forall₂ Section.SameText l.sections l'.sections ∧
      d.bodyOf (some order) l = .ok p ∧ (d.feeding true).bodyOf (some order) l' = .ok p' ∧
      p'.lines = p.lines ∧ Looks d.vocabulary false true l.sections p p' ∧
      d.bodyOf (some {}) l = .error (.body (.order (.missing .total))) ∧
      (d.feeding true).bodyOf (some {}) l' = .error (.body (.order (.missing .total))) := by
  intro d order l l' p p'
  have hsame : List.Forall₂ Section.SameText l.sections l'.sections :=
    .cons ⟨rfl, rfl, rfl⟩ (.cons ⟨rfl, rfl, rfl⟩ (.cons ⟨rfl, rfl, rfl⟩ (.cons ⟨rfl, rfl, rfl⟩
      (.cons ⟨rfl, rfl, rfl⟩ .nil))))
  have hp : d.bodyOf (some order) l = .ok p := toOption_eq_some_iff.mp (by decide +kernel)
  have hp' : (d.feeding true).bodyOf (some order) l' = .ok p' :=
    toOption_eq_some_iff.mp (by decide +kernel)
  have hlooks := looks_leave_texts_alone d true (some order) hsame
  rw [hp, hp'] at hlooks
  have hmissing : d.bodyOf (some {}) l = .error (.body (.order (.missing .total))) := rfl
  have hfail := looks_leave_texts_alone d true (some {}) hsame
  rw [hmissing] at hfail
  cases hmissing' : (d.feeding true).bodyOf (some {}) l' with
  | ok q =>
    rw [hmissing'] at hfail
    exact hfail.elim
  | error f =>
    rw [hmissing'] at hfail
    obtain rfl := hfail
    exact ⟨hsame, hp, hp', hlooks.1, hlooks.2.1, hmissing, rfl⟩

end Composer

end Receipt
