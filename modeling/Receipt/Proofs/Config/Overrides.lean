import Receipt.Proofs.Composer.Sources
import Receipt.Proofs.Layout.RoundTrip
import Receipt.Proofs.TagMap

/-!
# Section types of a configuration

A configuration adds section types to the standard vocabulary or replaces some of them, and leaves all
others alone. A receipt looks up the types of its sections and no others, so a layout that uses none of
the configured types is printed as if only the switches had been configured.
-/

namespace Receipt

theorem Vocabulary.get?_standard (tag : String) :
    Vocabulary.standard.get? tag =
      (standardGroups.flatMap fun (tags, rule) => tags.map fun tag => (tag, rule)).reverse.lookup tag := by
  unfold standard
  rw [TagMap.get?_insertAll, TagMap.get?_empty, Option.or_none]

/-- The standard vocabulary under some switches. -/
def Options.dialect (o : Options) : Dialect where
  options := o

theorem Options.vocabulary_dialect (o : Options) : o.dialect.vocabulary = .standard := rfl

namespace Config

theorem vocabulary_dialect (c : Config) : c.dialect.vocabulary = c.vocabulary := rfl

theorem get?_vocabulary (c : Config) (tag : String) :
    c.vocabulary.get? tag = (c.sectionTypes.get? tag).or (Vocabulary.standard.get? tag) :=
  TagMap.get?_insertAll_entries Vocabulary.standard c.sectionTypes tag

theorem size_vocabulary (c : Config) :
    c.vocabulary.size = Vocabulary.standard.size +
      c.sectionTypes.tags.countP fun tag => (Vocabulary.standard.get? tag).isNone :=
  TagMap.size_insertAll Vocabulary.standard c.sectionTypes.nodup_tags

theorem get?_vocabulary_of_unnamed {c : Config} {tag : String}
    (h : c.sectionTypes.get? tag = none) :
    c.vocabulary.get? tag = Vocabulary.standard.get? tag := by
  rw [get?_vocabulary, h, Option.none_or]

end Config

namespace Composer

theorem outcome_congr {d d' : Dialect} {s : Section} (hoptions : d'.options = d.options)
    (hrule : d'.vocabulary.get? s.tag = d.vocabulary.get? s.tag) (order : Option Order) :
    outcome d' order s = outcome d order s := by
  rw [outcome_eq, outcome_eq, emission_congr hoptions hrule, fault?_congr hoptions hrule]

end Composer

/-- A body depends on the rules of the section types of its own layout alone. -/
theorem bodyOf_congr {d d' : Dialect} (hoptions : d'.options = d.options) {l : Layout}
    (hrules : ∀ s ∈ l.sections, d'.vocabulary.get? s.tag = d.vocabulary.get? s.tag)
    (order : Option Order) : d'.bodyOf order l = d.bodyOf order l := by
  have hcompose : d'.compose order l.sections = d.compose order l.sections :=
    Composer.compose_congr fun s hs => Composer.outcome_congr hoptions (hrules s hs) order
  unfold Dialect.bodyOf
  rw [hcompose]

theorem body_congr {d d' : Dialect} (hoptions : d'.options = d.options) {text : String}
    (hrules : ∀ l, Layout.read? text = .ok (some l) → ∀ s ∈ l.sections,
      d'.vocabulary.get? s.tag = d.vocabulary.get? s.tag) (order : Option Order) :
    d'.body order text = d.body order text := by
  unfold Dialect.body
  cases hread : Layout.read? text with
  | error f => rfl
  | ok layout =>
    cases layout with
    | none => rfl
    | some l => exact bodyOf_congr hoptions (hrules l hread) order

/-- A configuration changes the section types that it names and no others; texts that use none of them
are printed, or refused, as with the standard vocabulary. -/
theorem configuration_changes_named_types (c : Config) :
    (∀ tag, c.vocabulary.get? tag =
      match c.sectionTypes.get? tag with
      | some rule => some rule
      | none => Vocabulary.standard.get? tag) ∧
    c.vocabulary.size = Vocabulary.standard.size +
      c.sectionTypes.tags.countP (fun tag => (Vocabulary.standard.get? tag).isNone) ∧
    ∀ (text : String) (order : Option Order),
      (∀ l, Layout.read? text = .ok (some l) →
        ∀ s ∈ l.sections, c.sectionTypes.get? s.tag = none) →
      c.dialect.receipt order text = c.options.dialect.receipt order text := by
  refine ⟨fun tag => ?_, c.size_vocabulary, fun text order h => ?_⟩
  · rw [c.get?_vocabulary]
    cases c.sectionTypes.get? tag with
    | some rule => rw [Option.some_or]
    | none => rw [Option.none_or]
  · have hrules : ∀ l, Layout.read? text = .ok (some l) → ∀ s ∈ l.sections,
        c.dialect.vocabulary.get? s.tag = c.options.dialect.vocabulary.get? s.tag := by
      intro l hread s hs
      rw [Config.vocabulary_dialect, Options.vocabulary_dialect]
      exact Config.get?_vocabulary_of_unnamed (h l hread s hs)
    have hoptions : c.dialect.options = c.options.dialect.options := rfl
    have hbody : c.dialect.body order text = c.options.dialect.body order text :=
      body_congr hoptions hrules order
    unfold Dialect.receipt
    rw [hbody]

/-- One configured type is new and one is not; a layout with neither of them is printed as before, and
so is the fault of a text that is no layout. -/
theorem footer_leaves_header_alone :
    let c : Config := {
      options := { lineWidth := 20, unknownSections := .error }
      sectionTypes := .insertAll ∅
        [("total", { emphasis := .bold, binding := some .total }), ("footer", {})] }
    let l : Layout := {
      sections := [{ tag := "header", content := some "Shop" }, { tag := "logo" }] }
    c.vocabulary.get? "total" = some { emphasis := .bold, binding := some .total } ∧
      c.vocabulary.get? "header" = some { emphasis := .bold } ∧
      c.vocabulary.size = Vocabulary.standard.size + 1 ∧
      (∀ l', Layout.read? l.write = .ok (some l') →
        ∀ s ∈ l'.sections, c.sectionTypes.get? s.tag = none) ∧
      c.dialect.receipt none l.write = c.options.dialect.receipt none l.write ∧
      c.dialect.receipt none "[]" = c.options.dialect.receipt none "[]" := by
  intro c l
  have hread : Layout.read? l.write = .ok (some l) := by
    rw [Layout.read?_write]
    rfl
  have hunnamed : ∀ l', Layout.read? l.write = .ok (some l') →
      ∀ s ∈ l'.sections, c.sectionTypes.get? s.tag = none := by
    intro l' hl'
    rw [hread] at hl'
    cases hl'
    decide
  have hbad : ∀ l', Layout.read? "[]" = .ok (some l') →
      ∀ s ∈ l'.sections, c.sectionTypes.get? s.tag = none := by
    intro l' hl'
    cases hl'
  have hnamed : c.sectionTypes.get? "total" = some { emphasis := .bold, binding := some .total } := by
    decide
  have hother : c.sectionTypes.get? "header" = none := by decide
  have hheader : Vocabulary.standard.get? "header" = some { emphasis := .bold } := by
    rw [Vocabulary.get?_standard]
    decide +kernel
  have hnew : c.sectionTypes.tags.countP (fun tag => (Vocabulary.standard.get? tag).isNone) = 1 := by
    simp only [Vocabulary.get?_standard]
    decide +kernel
  obtain ⟨hrule, hsize, hreceipt⟩ := configuration_changes_named_types c
  refine ⟨?_, ?_, ?_, hunnamed, hreceipt l.write none hunnamed, hreceipt "[]" none hbad⟩
  · rw [hrule, hnamed]
  · rw [hrule, hother]
    exact hheader
  · rw [hsize, hnew]

end Receipt
