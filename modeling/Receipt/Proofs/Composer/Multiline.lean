import Receipt.Proofs.Composer.Presentation

/-!
# Texts that are printed line by line

A section of several lines sets its alignment once and then prints and feeds each line of its text. Its text
has one line more than it has line feeds, so an empty text is printed as well, as is what follows a line feed
at the end. The lines joined by line feeds are the text, but for a carriage return in front of each line feed
and at the end.
-/

namespace Receipt.Composer

open Text

variable {c : Composer} {s : Section} {rule : Rule} {text : String}

theorem push_printed (hlisted : c.dialect.vocabulary.get? s.tag = some rule)
    (hprints : rule.kind = .text) (htext : textOf c.dialect.options c.order s rule = .ok text) :
    c.push s = (c.took (.align (alignmentOf s rule) ::
      textOps c.dialect.options rule (styleOf s rule) text), none) := by
  have houtcome := outcome_text hlisted hprints c.order
  rw [outcome_eq, htext] at houtcome
  obtain ⟨hemission, hfault⟩ := Prod.mk.inj houtcome
  rw [push_eq, hemission, hfault]

/-- A section of several lines is printed whole, in whatever state the composer is: one alignment, then each
line of its text in one style, and a feed of one line behind it. The feed behind single lines adds nothing. -/
theorem multiline_section_prints_each_line (c : Composer) (s : Section) {rule : Rule} {text : String}
    (hlisted : c.dialect.vocabulary.get? s.tag = some rule) (hprints : rule.kind = .text)
    (hmultiline : rule.multiline = true)
    (htext : textOf c.dialect.options c.order s rule = .ok text) :
    ∃ lines : List String,
      ((c.push s).2 = none ∧ (c.push s).1.program =
        c.program ++ .align (alignmentOf s rule) :: lines.flatMap fun line =>
          [.text line (styleOf s rule), .feed 1]) ∧
      lines.length = 1 + text.toList.count '\n' ∧
      (∀ line ∈ lines, '\n' ∉ line.toList) ∧
      "\n".intercalate lines = String.ofList (withoutReturns text.toList) ∧
      ∀ on, (push { c with dialect := c.dialect.feeding on } s).2 = none ∧
        (push { c with dialect := c.dialect.feeding on } s).1.program = (c.push s).1.program := by
  have hpush := push_printed hlisted hprints htext
  rw [textOps_multiline hmultiline] at hpush
  refine ⟨linesOf text, ?_, length_linesOf text, fun _ => lineFeed_not_mem_of_mem_linesOf,
    join_linesOf text, fun on => ?_⟩
  · rw [hpush]
    exact ⟨rfl, rfl⟩
  · have hpush' := push_printed (c := { c with dialect := c.dialect.feeding on }) hlisted hprints htext
    rw [textOps_multiline hmultiline] at hpush'
    rw [hpush, hpush']
    exact ⟨rfl, rfl⟩

/-- Of two carriage returns in front of a line feed one stays, and one in the middle of a line stays as well;
the line behind the last line feed is empty. -/
theorem one_of_two_returns_stays :
    let rule : Rule := { multiline := true, emphasis := .bold }
    let c : Composer := {
      dialect := { vocabulary := .insertAll ∅ [("notes", rule)] }
      program := [.cut] }
    let s : Section := { tag := "notes", content := some "a\r\r\n\r\nb\rc\r\n", alignment := some .right }
    c.dialect.vocabulary.get? s.tag = some rule ∧ rule.kind = .text ∧ rule.multiline = true ∧
      textOf c.dialect.options c.order s rule = .ok "a\r\r\n\r\nb\rc\r\n" ∧
      (∃ lines : List String, lines.length = 4 ∧ "\n".intercalate lines = "a\r\n\nb\rc\n" ∧
        (c.push s).1.program = .cut :: .align .right :: lines.flatMap fun line =>
          [.text line (some .emphasis), .feed 1]) ∧
      (c.push s).1.program = [.cut, .align .right, .text "a\r" (some .emphasis), .feed 1,
        .text "" (some .emphasis), .feed 1, .text "b\rc" (some .emphasis), .feed 1,
        .text "" (some .emphasis), .feed 1] ∧
      (push { c with dialect := c.dialect.feeding true } s).1.program = (c.push s).1.program := by
  intro rule c s
  have hlisted : c.dialect.vocabulary.get? s.tag = some rule := by decide
  have htext : textOf c.dialect.options c.order s rule = .ok "a\r\r\n\r\nb\rc\r\n" :=
    toOption_eq_some_iff.mp (by decide +kernel)
  obtain ⟨lines, ⟨-, hprogram⟩, hlength, -, hjoin, hfeeding⟩ :=
    multiline_section_prints_each_line c s hlisted rfl rfl htext
  exact ⟨hlisted, rfl, rfl, htext, ⟨lines, hlength.trans (by decide), hjoin.trans (by decide), hprogram⟩,
    by decide +kernel, (hfeeding true).2⟩

end Receipt.Composer
