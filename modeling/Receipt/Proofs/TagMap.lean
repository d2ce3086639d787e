import Mathlib.Data.List.Sort
import Mathlib.Data.Set.Card
import Receipt.Proofs.Lookup
import Receipt.TagMap

/-!
# Maps from tags, through their lookups

What inserting entries does to the lookups, the tags and the size of a map. The order of the entries
makes a map what its lookups are: two maps with the same lookups are equal. So of the entries that are
put into a map one after the other only the last with each tag can be told from it afterwards.
-/

namespace Receipt.TagMap

variable {α : Type}

/-! ### Entries -/

theorem lookup_eq_none_of_lt {l : List (String × α)} {tag : String} (h : ∀ e ∈ l, tag < e.1) :
    l.lookup tag = none := by
  rw [List.lookup_eq_none_iff]
  intro e he
  have hne : tag ≠ e.1 := by
    intro heq
    have hlt := h e he
    rw [← heq] at hlt
    exact String.lt_irrefl tag hlt
  exact bne_iff_ne.mpr hne

theorem lookup_insertEntry (tag : String) (a : α) (l : List (String × α)) (key : String) :
    (insertEntry tag a l).lookup key = if key = tag then some a else l.lookup key := by
  induction l with
  | nil => rw [insertEntry, lookup_cons_eq_ite]
  | cons e l ih =>
    obtain ⟨t, b⟩ := e
    unfold insertEntry
    split
    · rw [lookup_cons_eq_ite]
    · split
      · next heq =>
        subst heq
        rw [lookup_cons_eq_ite, lookup_cons_eq_ite]
        by_cases hkey : key = t
        · rw [if_pos hkey, if_pos hkey]
        · rw [if_neg hkey, if_neg hkey, if_neg hkey]
      · next hne =>
        rw [lookup_cons_eq_ite, lookup_cons_eq_ite, ih]
        by_cases hkey : key = t
        · rw [if_pos hkey, if_pos hkey, if_neg (hkey ▸ hne)]
        · rw [if_neg hkey, if_neg hkey]

theorem length_insertEntry (tag : String) (a : α) {l : List (String × α)}
    (h : l.Pairwise (·.1 < ·.1)) :
    (insertEntry tag a l).length = if (l.lookup tag).isSome then l.length else l.length + 1 := by
  induction l with
  | nil => rfl
  | cons e l ih =>
    obtain ⟨t, b⟩ := e
    obtain ⟨hbelow, hl⟩ := List.pairwise_cons.mp h
    unfold insertEntry
    split
    · next hlt =>
      have hnone : ((t, b) :: l).lookup tag = none := by
        refine lookup_eq_none_of_lt (List.forall_mem_cons.mpr ⟨hlt, ?_⟩)
        exact fun e he => String.lt_trans hlt (hbelow e he)
      rw [hnone]
      rfl
    · split
      · next heq =>
        subst heq
        rw [List.lookup_cons_self]
        rfl
      · next hne =>
        have hskip : ((t, b) :: l).lookup tag = l.lookup tag := by
          rw [lookup_cons_eq_ite, if_neg (Ne.symm hne)]
        rw [hskip, List.length_cons, List.length_cons, ih hl]
        split <;> rfl

/-! ### Maps -/

theorem nodup_tags (m : TagMap α) : (m.entries.map Prod.fst).Nodup := by
  have hsorted : (m.entries.map Prod.fst).Pairwise (· < ·) := List.pairwise_map.mpr m.sorted
  refine hsorted.imp ?_
  intro s t hlt heq
  rw [heq] at hlt
  exact String.lt_irrefl t hlt

theorem get?_eq_some_iff (m : TagMap α) {tag : String} {a : α} :
    m.get? tag = some a ↔ (tag, a) ∈ m.entries :=
  lookup_eq_some_iff m.nodup_tags

/-- A map is determined by its lookups. -/
theorem ext_get? {m n : TagMap α} (h : ∀ tag, m.get? tag = n.get? tag) : m = n := by
  have hmem : ∀ e, e ∈ m.entries ↔ e ∈ n.entries := by
    intro e
    rw [← get?_eq_some_iff, ← get?_eq_some_iff, h]
  have hperm : m.entries.Perm n.entries :=
    (List.perm_ext_iff_of_nodup m.nodup_tags.of_map n.nodup_tags.of_map).mpr hmem
  have hentries : m.entries = n.entries := by
    refine hperm.eq_of_pairwise ?_ m.sorted n.sorted
    intro e f _ _ hlt hgt
    exact absurd (String.lt_trans hlt hgt) (String.lt_irrefl _)
  cases m
  cases n
  cases hentries
  rfl

@[simp] theorem get?_empty (tag : String) : (∅ : TagMap α).get? tag = none := rfl

theorem get?_insert (m : TagMap α) (tag : String) (a : α) (key : String) :
    (m.insert tag a).get? key = if key = tag then some a else m.get? key :=
  lookup_insertEntry tag a m.entries key

theorem size_insert (m : TagMap α) (tag : String) (a : α) :
    (m.insert tag a).size = if (m.get? tag).isSome then m.size else m.size + 1 :=
  length_insertEntry tag a m.sorted

/-- Of several entries with one tag the last counts, and any of them before those of the map. -/
theorem get?_insertAll (m : TagMap α) (l : List (String × α)) (key : String) :
    (m.insertAll l).get? key = (l.reverse.lookup key).or (m.get? key) := by
  unfold insertAll
  induction l generalizing m with
  | nil => rfl
  | cons e l ih =>
    obtain ⟨t, a⟩ := e
    have hlast : (if key = t then some a else m.get? key) =
        ([(t, a)].lookup key).or (m.get? key) := by
      rw [lookup_cons_eq_ite]
      by_cases hkey : key = t
      · rw [if_pos hkey, if_pos hkey, Option.some_or]
      · rw [if_neg hkey, if_neg hkey, List.lookup_nil, Option.none_or]
    rw [List.foldl_cons, ih, get?_insert, List.reverse_cons, List.lookup_append, Option.or_assoc,
      hlast]

theorem get?_insertAll_entries (m n : TagMap α) (key : String) :
    (m.insertAll n.entries).get? key = (n.get? key).or (m.get? key) := by
  rw [get?_insertAll, lookup_reverse n.nodup_tags]
  rfl

/-- A map is made up of its entries. -/
theorem insertAll_entries (m : TagMap α) : insertAll ∅ m.entries = m := by
  apply ext_get?
  intro tag
  rw [get?_insertAll_entries, get?_empty, Option.or_none]

/-- A map grows by the tags that are new to it. -/
theorem size_insertAll (m : TagMap α) {l : List (String × α)} (h : (l.map Prod.fst).Nodup) :
    (m.insertAll l).size = m.size + (l.map Prod.fst).countP fun tag => (m.get? tag).isNone := by
  unfold insertAll
  induction l generalizing m with
  | nil => rfl
  | cons e l ih =>
    obtain ⟨t, a⟩ := e
    obtain ⟨ht, hl⟩ := List.nodup_cons.mp h
    change t ∉ l.map Prod.fst at ht
    -- The tags that follow differ from this one, so they are new to both maps or to none.
    have hrest : (l.map Prod.fst).countP (fun tag => ((m.insert t a).get? tag).isNone) =
        (l.map Prod.fst).countP fun tag => (m.get? tag).isNone := by
      apply List.countP_congr
      intro tag htag
      have hne : tag ≠ t := fun heq => ht (heq ▸ htag)
      rw [get?_insert, if_neg hne]
    rw [List.foldl_cons, ih _ hl, hrest, size_insert, List.map_cons, List.countP_cons]
    cases m.get? t with
    | none =>
      simp
      omega
    | some b => simp

/-! ### Tags -/

theorem sorted_tags (m : TagMap α) : m.tags.Pairwise (· < ·) :=
  List.pairwise_map.mpr m.sorted

theorem mem_tags (m : TagMap α) {tag : String} : tag ∈ m.tags ↔ (m.get? tag).isSome := by
  unfold tags
  rw [Option.isSome_iff_exists, List.mem_map]
  constructor
  · rintro ⟨⟨t, a⟩, hmem, rfl⟩
    exact ⟨a, m.get?_eq_some_iff.mpr hmem⟩
  · rintro ⟨a, ha⟩
    exact ⟨(tag, a), m.get?_eq_some_iff.mp ha, rfl⟩

theorem count_tags (m : TagMap α) (tag : String) :
    m.tags.count tag = if (m.get? tag).isSome then 1 else 0 := by
  have hnodup : m.tags.Nodup := m.nodup_tags
  rw [hnodup.count]
  simp only [mem_tags]

theorem encard_tags (m : TagMap α) : {tag | (m.get? tag).isSome}.encard = m.size := by
  have hnodup : m.tags.Nodup := m.nodup_tags
  have hset : {tag | (m.get? tag).isSome} = (m.tags.toFinset : Set String) := by
    ext tag
    rw [Set.mem_ofPred_eq, List.coe_toFinset, Set.mem_ofPred_eq, mem_tags]
  have hlength : m.tags.length = m.size := List.length_map Prod.fst
  rw [hset, Set.encard_coe_eq_coe_finsetCard, List.toFinset_card_of_nodup hnodup, hlength]

theorem isEmpty_iff_size (m : TagMap α) : m.isEmpty = true ↔ m.size = 0 :=
  List.isEmpty_iff_length_eq_zero

/-! ### The last entry with a tag -/

/-- The last entry of a list with some tag. -/
def LastEntry (l : List (String × α)) (tag : String) (a : α) : Prop :=
  ∃ before after, l = before ++ (tag, a) :: after ∧ tag ∉ after.map Prod.fst

theorem lastEntry_iff {l : List (String × α)} {tag : String} {a : α} :
    LastEntry l tag a ↔ l.reverse.lookup tag = some a := by
  rw [List.lookup_eq_some_iff]
  simp only [forall_bne_iff]
  constructor
  · rintro ⟨before, after, rfl, hafter⟩
    refine ⟨after.reverse, before.reverse, by simp, ?_⟩
    rwa [List.map_reverse, List.mem_reverse]
  · rintro ⟨after, before, hl, hafter⟩
    refine ⟨before.reverse, after.reverse, by rw [← List.reverse_reverse l, hl]; simp, ?_⟩
    rwa [List.map_reverse, List.mem_reverse]

theorem get?_insertAll_of_last (m : TagMap α) {l : List (String × α)} {tag : String} {a : α}
    (h : LastEntry l tag a) : (m.insertAll l).get? tag = some a := by
  rw [get?_insertAll, lastEntry_iff.mp h, Option.some_or]

theorem get?_insertAll_of_not_mem (m : TagMap α) {l : List (String × α)} {tag : String}
    (h : tag ∉ l.map Prod.fst) : (m.insertAll l).get? tag = m.get? tag := by
  have hnone : l.reverse.lookup tag = none := by
    rwa [lookup_eq_none_iff, List.map_reverse, List.mem_reverse]
  rw [get?_insertAll, hnone, Option.none_or]

/-- Two lists of entries end alike for a tag; if they do not have it, then the maps that they are put
into are alike there. -/
structure EndAlike (m m' : TagMap α) (l l' : List (String × α)) (tag : String) : Prop where
  last (a : α) : LastEntry l tag a ↔ LastEntry l' tag a
  start : tag ∉ l.map Prod.fst → m.get? tag = m'.get? tag

theorem EndAlike.get?_eq {m m' : TagMap α} {l l' : List (String × α)} {tag : String}
    (h : EndAlike m m' l l' tag) : (m.insertAll l).get? tag = (m'.insertAll l').get? tag := by
  have hlast : l.reverse.lookup tag = l'.reverse.lookup tag := by
    apply Option.ext
    intro a
    rw [← lastEntry_iff, ← lastEntry_iff, h.last]
  rw [get?_insertAll, get?_insertAll, ← hlast]
  cases hfound : l.reverse.lookup tag with
  | none =>
    rw [lookup_eq_none_iff, List.map_reverse, List.mem_reverse] at hfound
    rw [h.start hfound]
  | some a => rfl

theorem EndAlike.insertAll_eq {m m' : TagMap α} {l l' : List (String × α)}
    (h : ∀ tag, EndAlike m m' l l' tag) : m.insertAll l = m'.insertAll l' :=
  ext_get? fun tag => (h tag).get?_eq

end Receipt.TagMap
