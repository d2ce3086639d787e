import Receipt.Proofs.Config.Overrides
import Receipt.Proofs.Text.Bytes

/-!
# Vocabularies put together rule by rule

A vocabulary is started from another and given rules one after the other. What it knows in the end is the
last rule of each tag, and nothing of the order in which the tags came; its tags are listed by their bytes.
Since a section asks for the rule of its own tag and for nothing else, two vocabularies that agree on the
tags of a layout cannot be told apart by printing it.
-/

namespace Receipt.Vocabulary

theorem tags_increase (v : Vocabulary) :
    v.tags.Pairwise fun s t => s.toUTF8.data.toList < t.toUTF8.data.toList :=
  v.sorted_tags.imp utf8_lt

/-- A vocabulary that rules are put into holds the last rule of each tag, counts and lists its tags once
and in order, and prints a layout like any other that ends alike for the tags of that layout. -/
theorem holds_last_rule_of_each_tag (start : Vocabulary) (steps : List (String × Rule)) :
    let v : Vocabulary := start.insertAll steps
    (∀ tag rule, TagMap.LastEntry steps tag rule → v.get? tag = some rule) ∧
    (∀ tag, tag ∉ steps.map Prod.fst → v.get? tag = start.get? tag) ∧
    {tag | (v.get? tag).isSome}.encard = v.size ∧
    (v.isEmpty = true ↔ v.size = 0) ∧
    (∀ tag, v.tags.count tag = if (v.get? tag).isSome then 1 else 0) ∧
    v.tags.Pairwise (fun s t => s.toUTF8.data.toList < t.toUTF8.data.toList) ∧
    ∀ (start' : Vocabulary) (steps' : List (String × Rule)),
      let v' : Vocabulary := start'.insertAll steps'
      ((∀ tag, TagMap.EndAlike start start' steps steps' tag) → v = v') ∧
      ∀ l : Layout, (∀ s ∈ l.sections, TagMap.EndAlike start start' steps steps' s.tag) →
        ∀ (options : Options) (order : Option Order),
          ({ vocabulary := v, options } : Dialect).bodyOf order l =
            ({ vocabulary := v', options } : Dialect).bodyOf order l := by
  intro v
  refine ⟨fun tag rule h => start.get?_insertAll_of_last h,
    fun tag h => start.get?_insertAll_of_not_mem h, v.encard_tags, v.isEmpty_iff_size, v.count_tags,
    v.tags_increase, ?_⟩
  intro start' steps' v'
  refine ⟨fun h => TagMap.EndAlike.insertAll_eq h, ?_⟩
  intro l halike options order
  have hoptions : ({ vocabulary := v, options } : Dialect).options =
      ({ vocabulary := v', options } : Dialect).options := rfl
  exact bodyOf_congr hoptions (fun s hs => (halike s hs).get?_eq) order

/-- A footer that is replaced and a "Total" beside the standard "total", which come in either order. A
layout of these two is printed alike even without the standard rules. -/
theorem footer_is_replaced :
    let centered : Rule := { alignment := some .center }
    let bold : Rule := { emphasis := .bold }
    let steps := [("footer", {}), ("Total", bold), ("footer", centered)]
    let steps' := [("Total", bold), ("footer", centered)]
    let v : Vocabulary := standard.insertAll steps
    let l : Layout := { sections := [{ tag := "Total" }, { tag := "footer" }] }
    v.get? "footer" = some centered ∧
      v.get? "total" = some { emphasis := .alwaysBold, binding := some .total } ∧
      {tag | (v.get? tag).isSome}.encard = v.size ∧
      v.tags.count "footer" = 1 ∧
      v.tags.Pairwise (fun s t => s.toUTF8.data.toList < t.toUTF8.data.toList) ∧
      v = (standard.insert "footer" bold).insertAll steps' ∧
      ({ vocabulary := v } : Dialect).bodyOf none l =
        ({ vocabulary := .insertAll ∅ steps' } : Dialect).bodyOf none l := by
  intro centered bold steps steps' v l
  obtain ⟨hlast, hother, hsize, -, hcount, hsorted, halike⟩ :=
    holds_last_rule_of_each_tag standard steps
  have hfooter : v.get? "footer" = some centered :=
    hlast "footer" centered ⟨[("footer", {}), ("Total", bold)], [], rfl, by decide⟩
  have htotal : v.get? "total" = some { emphasis := .alwaysBold, binding := some .total } := by
    rw [hother "total" (by decide), get?_standard]
    decide +kernel
  have hlookup (tag : String) : steps.reverse.lookup tag = steps'.reverse.lookup tag := by
    simp only [steps, steps', List.reverse_cons, List.reverse_nil, List.nil_append, List.cons_append,
      lookup_cons_eq_ite]
    split_ifs <;> rfl
  have hend (tag : String) (rule : Rule) :
      TagMap.LastEntry steps tag rule ↔ TagMap.LastEntry steps' tag rule := by
    rw [TagMap.lastEntry_iff, TagMap.lastEntry_iff, hlookup]
  refine ⟨hfooter, htotal, hsize, ?_, hsorted, ?_, ?_⟩
  · rw [hcount, hfooter]
    rfl
  · refine (halike (standard.insert "footer" bold) steps').1 fun tag => ⟨hend tag, fun hnew => ?_⟩
    have hne : tag ≠ "footer" := fun heq => hnew (heq ▸ List.mem_cons_self)
    rw [TagMap.get?_insert, if_neg hne]
  · refine (halike ∅ steps').2 l (fun s hs => ⟨hend s.tag, fun hnew => absurd ?_ hnew⟩) {} none
    have htags : ∀ s ∈ l.sections, s.tag ∈ steps.map Prod.fst := by decide
    exact htags s hs

end Receipt.Vocabulary
