import Receipt.Proofs.Json.Entries

/-!
# Values read back

A value that is written over several lines is read back as it was, at any level and in front of any
text that ends a number. Asked for are integers of 64 bits, no doubles, and no deeper nesting than the
reader allows (`Value.Legible`); nothing is asked of texts and keys, and keys may be repeated.
-/

namespace Receipt.Json

/-- A value without doubles whose brackets nest at most so deep. -/
inductive Value.Legible : Nat → Value → Prop where
  | scalar (depth : Nat) {v : Value} (simple : v.Simple) : Legible depth v
  | array {depth : Nat} {items : List Value} (all : ∀ v ∈ items, Legible depth v) :
      Legible (depth + 1) (.array items)
  | object {depth : Nat} {members : Members} (all : ∀ m ∈ members, Legible depth m.2) :
      Legible (depth + 1) (.object members)

/-! ### What the writer writes -/

theorem blank_indent (level : Nat) : Blank (indent level) := by
  intro c hc
  rcases List.mem_cons.mp hc with rfl | hc
  · decide
  · obtain rfl := List.eq_of_mem_replicate hc
    decide

theorem prettyItems_eq (level : Nat) (vs : List Value) :
    prettyItems level vs = entries (indent level) true (vs.map (writePretty level)) := by
  induction vs with
  | nil => rw [prettyItems, List.map_nil, entries]
  | cons v vs ih =>
    cases vs with
    | nil => simp [prettyItems, entries]
    | cons w vs =>
      rw [prettyItems, ih]
      · simp [entries]
      · simp

/-- A member over several lines: the key, a colon and a space, the value. -/
def prettyMember (level : Nat) (m : String × Value) : String × List Char :=
  (m.1, ':' :: ' ' :: writePretty level m.2)

theorem prettyMembers_eq (level : Nat) (ms : Members) :
    prettyMembers level ms =
      entries (indent level) true ((ms.map (prettyMember level)).map keyed) := by
  induction ms with
  | nil => rw [prettyMembers, List.map_nil, List.map_nil, entries]
  | cons m ms ih =>
    cases ms with
    | nil => simp [prettyMembers, entries, keyed, prettyMember]
    | cons n ms =>
      rw [prettyMembers, ih]
      · simp [entries, keyed, prettyMember]
      · simp

theorem writePretty_array (level : Nat) (items : List Value) :
    ∃ gap, Blank gap ∧ writePretty level (.array items) =
      '[' :: (entries (indent (level + 1)) true (items.map (writePretty (level + 1))) ++
        (gap ++ [']'])) := by
  cases items with
  | nil => exact ⟨[], blank_nil, by simp [writePretty, entries]⟩
  | cons v vs =>
    refine ⟨indent level, blank_indent level, ?_⟩
    rw [writePretty, prettyItems_eq]
    · simp
    · simp

theorem writePretty_object (level : Nat) (ms : Members) :
    ∃ gap, Blank gap ∧ writePretty level (.object ms) =
      '{' :: (entries (indent (level + 1)) true ((ms.map (prettyMember (level + 1))).map keyed) ++
        (gap ++ ['}'])) := by
  cases ms with
  | nil => exact ⟨[], blank_nil, by simp [writePretty, entries]⟩
  | cons m ms =>
    refine ⟨indent level, blank_indent level, ?_⟩
    rw [writePretty, prettyMembers_eq]
    · simp
    · simp

theorem writePretty_simple (level : Nat) {v : Value} (h : v.Simple) :
    writePretty level v = writeScalar v := by
  cases h <;> rfl

theorem opens_writePretty {depth : Nat} {v : Value} (h : v.Legible depth) (level : Nat) :
    Opens (writePretty level v) := by
  cases h with
  | scalar _ simple =>
    obtain ⟨c, cs, heq, hc⟩ := writeScalar_simple simple
    exact ⟨c, cs, (writePretty_simple level simple).trans heq, hc.not_blank, hc.not_close⟩
  | array all =>
    obtain ⟨gap, -, heq⟩ := writePretty_array level _
    exact ⟨'[', _, heq, by decide, by decide⟩
  | object all =>
    obtain ⟨gap, -, heq⟩ := writePretty_object level _
    exact ⟨'{', _, heq, by decide, by decide⟩

/-! ### What the reader reads -/

theorem readValue_scalar (depth : Nat) {c : Char} (hc : Inner c) (cs : List Char) :
    readValue depth (c :: cs) = readScalar (c :: cs) := by
  have hskip := skipSpace_cons hc.not_blank cs
  cases depth with
  | zero =>
    rw [readValue, hskip]
    split
    · next heq => exact absurd (List.cons.inj heq).1 hc.not_open.1
    · next heq => exact absurd (List.cons.inj heq).1 hc.not_open.2
    · rfl
  | succ depth =>
    rw [readValue, hskip]
    split
    · next heq => exact absurd (List.cons.inj heq).1 hc.not_open.1
    · next heq => exact absurd (List.cons.inj heq).1 hc.not_open.2
    · rfl

/-- Blanks in front of a value are passed over. -/
theorem readValue_blank (depth : Nat) {blank : List Char} (h : Blank blank) (cs : List Char) :
    readValue depth (blank ++ cs) = readValue depth cs := by
  cases depth <;> rw [readValue, readValue, skipSpace_blank h]

/-- The members of an object are put in front of those read before, so that they stand reversed. -/
theorem takes_members {depth level : Nat} {ms : Members}
    (h : ∀ m ∈ ms, Reads (readValue depth) (writePretty level m.2) m.2) (done : Members) :
    Takes (readValue.readMember (readValue depth)) done (ms.map (prettyMember level))
      (ms.reverse ++ done) := by
  induction ms generalizing done with
  | nil => exact .nil done
  | cons m ms ih =>
    have hmore := ih (fun n hn => h n (List.mem_cons_of_mem m hn)) (m :: done)
    rw [List.reverse_cons, List.append_assoc, List.singleton_append]
    refine .cons ?_ hmore
    intro rest hrest
    have hvalue : readValue depth (' ' :: (writePretty level m.2 ++ rest)) = .ok (m.2, rest) := by
      have hblank : Blank [' '] := List.forall_mem_singleton.mpr (by decide)
      rw [← List.singleton_append, readValue_blank depth hblank]
      exact h m List.mem_cons_self rest hrest
    show (readColon (':' :: ' ' :: (writePretty level m.2 ++ rest)) >>= fun cs =>
      readValue depth cs >>= fun p => pure ((m.1, p.1) :: done, p.2)) = _
    show (readValue depth (' ' :: (writePretty level m.2 ++ rest)) >>= fun p =>
      pure ((m.1, p.1) :: done, p.2)) = _
    rw [hvalue]
    rfl

/-- A legible value is read back, at whatever level it was written. -/
theorem reads_writePretty {depth : Nat} {v : Value} (h : v.Legible depth) :
    ∀ level, Reads (readValue depth) (writePretty level v) v := by
  -- By the nesting: what stands in brackets is one level further in and has one bracket less to open.
  induction h with
  | scalar depth simple =>
    intro level rest hrest
    obtain ⟨c, cs, heq, hc⟩ := writeScalar_simple simple
    have hread := readScalar_simple simple hrest
    rw [writePretty_simple level simple]
    rw [heq, List.cons_append] at hread ⊢
    rw [readValue_scalar depth hc, hread]
  | @array depth items all ih =>
    intro level rest _
    obtain ⟨gap, hgap, heq⟩ := writePretty_array level items
    have hopen : ∀ t ∈ items.map (writePretty (level + 1)), Opens t := by
      intro t ht
      obtain ⟨v, hv, rfl⟩ := List.mem_map.mp ht
      exact opens_writePretty (all v hv) (level + 1)
    have hitems : List.Forall₂ (Reads (readValue depth)) (items.map (writePretty (level + 1)))
        items := by
      rw [List.forall₂_map_left_iff, List.forall₂_same]
      exact fun v hv => ih v hv (level + 1)
    rw [heq, List.cons_append, List.append_assoc, List.append_assoc, List.singleton_append]
    show (readArray (readValue depth) _ >>= fun p => pure (Value.array p.1, p.2)) = _
    rw [readArray_entries (blank_indent _) hgap rest hopen hitems]
    rfl
  | @object depth ms all ih =>
    intro level rest _
    obtain ⟨gap, hgap, heq⟩ := writePretty_object level ms
    have htakes := takes_members (fun m hm => ih m hm (level + 1)) []
    rw [heq, List.cons_append, List.append_assoc, List.append_assoc, List.singleton_append]
    show (readObject (readValue.readMember (readValue depth)) [] _ >>= fun p =>
      pure (Value.object p.1.reverse, p.2)) = _
    rw [readObject_entries (blank_indent _) hgap rest htakes]
    show Except.ok (Value.object (ms.reverse ++ []).reverse, rest) = _
    rw [List.append_nil, List.reverse_reverse]

/-- A legible value is what its own text says. -/
theorem read_pretty {v : Value} (h : v.Legible maxDepth) : Value.read v.pretty = .ok v := by
  have hread := reads_writePretty h 0 [] endsNumber_nil
  rw [List.append_nil] at hread
  unfold Value.read readWhole Value.pretty
  dsimp only
  rw [String.toList_ofList, hread]
  rfl

end Receipt.Json
