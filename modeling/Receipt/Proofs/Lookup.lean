import Mathlib.Data.List.Nodup

/-!
# Lookups in lists of entries

A list of entries is searched for the first with some tag. Where no tag is repeated the order of the
entries makes no difference to what is found.
-/

namespace Receipt

variable {α : Type}

theorem lookup_cons_eq_ite (tag t : String) (a : α) (l : List (String × α)) :
    ((t, a) :: l).lookup tag = if tag = t then some a else l.lookup tag := by
  by_cases h : tag = t
  · rw [if_pos h, h, List.lookup_cons_self]
  · rw [if_neg h, List.lookup_cons, beq_false_of_ne h]

theorem forall_bne_iff {tag : String} {l : List (String × α)} :
    (∀ e ∈ l, (tag != e.1) = true) ↔ tag ∉ l.map Prod.fst := by
  rw [List.mem_map]
  constructor
  · rintro h ⟨e, he, rfl⟩
    exact bne_iff_ne.mp (h e he) rfl
  · intro h e he
    exact bne_iff_ne.mpr fun heq => h ⟨e, he, heq.symm⟩

theorem lookup_eq_none_iff {tag : String} {l : List (String × α)} :
    l.lookup tag = none ↔ tag ∉ l.map Prod.fst := by
  rw [List.lookup_eq_none_iff, forall_bne_iff]

/-- If no tag is repeated, looking a tag up finds the entry that is there. -/
theorem lookup_eq_some_iff {l : List (String × α)} (h : (l.map Prod.fst).Nodup) {tag : String} {a : α} :
    l.lookup tag = some a ↔ (tag, a) ∈ l := by
  induction l with
  | nil => simp
  | cons e l ih =>
    obtain ⟨t, b⟩ := e
    obtain ⟨ht, hl⟩ := List.nodup_cons.mp h
    change t ∉ l.map Prod.fst at ht
    rw [lookup_cons_eq_ite, List.mem_cons, Prod.mk.injEq]
    by_cases htag : tag = t
    · subst htag
      have hfresh : (tag, a) ∉ l := fun ha => ht (List.mem_map_of_mem (f := Prod.fst) ha)
      simp only [hfresh, ↓reduceIte, true_and, or_false, Option.some.injEq, eq_comm]
    · simp only [htag, ↓reduceIte, false_and, false_or, ih hl]

/-- If no tag is repeated, it does not matter from which end a list is searched. -/
theorem lookup_reverse {l : List (String × α)} (h : (l.map Prod.fst).Nodup) (tag : String) :
    l.reverse.lookup tag = l.lookup tag := by
  have hreverse : (l.reverse.map Prod.fst).Nodup := by
    rw [List.map_reverse]
    exact List.nodup_reverse.mpr h
  apply Option.ext
  intro a
  rw [lookup_eq_some_iff hreverse, lookup_eq_some_iff h, List.mem_reverse]

end Receipt
