/-!
# Maps from tags

A finite map whose keys are tags. The entries stand in increasing order of the tags, compared by code
points and so by the bytes of their text, and each tag occurs once; two maps with the same contents are
therefore equal.
-/

namespace Receipt

/-- A map from tags. -/
structure TagMap (α : Type) where
  /-- The entries in increasing order of their tags. -/
  entries : List (String × α)
  sorted : entries.Pairwise (·.1 < ·.1)

namespace TagMap

variable {α : Type}

instance : EmptyCollection (TagMap α) := ⟨⟨[], by simp⟩⟩

instance : Inhabited (TagMap α) := ⟨∅⟩

instance [DecidableEq α] : DecidableEq (TagMap α) := fun m n =>
  if h : m.entries = n.entries then
    isTrue (by cases m; cases n; cases h; rfl)
  else isFalse fun e => h (by rw [e])

def get? (m : TagMap α) (tag : String) : Option α :=
  m.entries.lookup tag

def size (m : TagMap α) : Nat :=
  m.entries.length

def isEmpty (m : TagMap α) : Bool :=
  m.entries.isEmpty

/-- All tags, in increasing order. -/
def tags (m : TagMap α) : List String :=
  m.entries.map Prod.fst

/-- A list of entries with one more, in its place; an entry with the same tag is replaced. -/
def insertEntry (tag : String) (a : α) : List (String × α) → List (String × α)
  | [] => [(tag, a)]
  | (t, b) :: rest =>
    if tag < t then (tag, a) :: (t, b) :: rest
    else if t = tag then (tag, a) :: rest
    else (t, b) :: insertEntry tag a rest

theorem mem_insertEntry {tag : String} {a : α} {e : String × α} :
    ∀ {l : List (String × α)}, e ∈ insertEntry tag a l → e = (tag, a) ∨ e ∈ l
  | [], h => by simpa [insertEntry] using h
  | (t, b) :: rest, h => by
    unfold insertEntry at h
    split at h
    · simpa using h
    · split at h
      · rcases List.mem_cons.mp h with h | h
        · exact .inl h
        · exact .inr (List.mem_cons_of_mem _ h)
      · rcases List.mem_cons.mp h with h | h
        · exact .inr (h ▸ List.mem_cons_self)
        · exact (mem_insertEntry h).imp_right (List.mem_cons_of_mem _)

/-- A tag that is neither below nor equal to another is above it. -/
theorem lt_of_not_lt_of_ne {s t : String} (h : ¬s < t) (ne : t ≠ s) : t < s :=
  Decidable.byContradiction fun h' =>
    ne (String.le_antisymm (String.not_lt.mp h) (String.not_lt.mp h'))

theorem sorted_insertEntry (tag : String) (a : α) :
    ∀ {l : List (String × α)}, l.Pairwise (·.1 < ·.1) → (insertEntry tag a l).Pairwise (·.1 < ·.1)
  | [], _ => by simp [insertEntry]
  | (t, b) :: rest, h => by
    obtain ⟨below, tail⟩ := List.pairwise_cons.mp h
    unfold insertEntry
    split
    · next lt =>
      refine List.pairwise_cons.mpr ⟨fun e he => ?_, h⟩
      rcases List.mem_cons.mp he with rfl | he
      · exact lt
      · exact String.lt_trans lt (below e he)
    · next notLt =>
      split
      · next eq => exact List.pairwise_cons.mpr ⟨fun e he => eq ▸ below e he, tail⟩
      · next ne =>
        refine List.pairwise_cons.mpr ⟨fun e he => ?_, sorted_insertEntry tag a tail⟩
        rcases mem_insertEntry he with rfl | he
        · exact lt_of_not_lt_of_ne notLt ne
        · exact below e he

/-- A map with one more entry, which replaces one with the same tag. -/
def insert (m : TagMap α) (tag : String) (a : α) : TagMap α where
  entries := insertEntry tag a m.entries
  sorted := sorted_insertEntry tag a m.sorted

/-- A map with the entries of a list; of several with one tag the last counts. -/
def insertAll (m : TagMap α) (l : List (String × α)) : TagMap α :=
  l.foldl (fun m e => m.insert e.1 e.2) m

end TagMap

end Receipt
