import Mathlib.Data.List.Forall2
import Receipt.Proofs.Json.Tokens

/-!
# Arrays and objects read back

Both are written as entries between commas. The two loops of the reader are followed here for entries
of any kind: all they need is that each entry is read back on its own, whatever stands behind it. How
an object builds its result is left to its member reader, one member after the other (`Takes`).
-/

namespace Receipt.Json

/-- What is written between two brackets: each entry behind some blanks, and all but the first behind
a comma. -/
def entries (blank : List Char) : Bool → List (List Char) → List Char
  | _, [] => []
  | first, t :: ts => (if first then [] else [',']) ++ (blank ++ (t ++ entries blank false ts))

def Blank (cs : List Char) : Prop :=
  ∀ c ∈ cs, isSpace c = true

/-- A text that a reader takes as a whole, with its result. -/
def Reads {α : Type} (reader : Reader α) (text : List Char) (a : α) : Prop :=
  ∀ rest, EndsNumber rest → reader (text ++ rest) = .ok (a, rest)

/-- A text that can begin an element: neither a blank nor the end of an array stands in front. -/
def Opens (text : List Char) : Prop :=
  ∃ c cs, text = c :: cs ∧ isSpace c = false ∧ c ≠ ']'

/-! ### Blanks -/

theorem blank_nil : Blank [] :=
  List.forall_mem_nil _

theorem skipSpace_blank {blank : List Char} (h : Blank blank) (cs : List Char) :
    skipSpace (blank ++ cs) = skipSpace cs :=
  List.dropWhile_append_of_pos h

theorem skipSpace_cons {c : Char} (h : isSpace c = false) (cs : List Char) :
    skipSpace (c :: cs) = c :: cs := by
  rw [skipSpace, List.dropWhile_cons, h]
  rfl

theorem endsNumber_of_isSpace {c : Char} (h : isSpace c = true) (rest : List Char) :
    EndsNumber (c :: rest) := by
  simp only [isSpace, Bool.or_eq_true, decide_eq_true_eq] at h
  rcases h with ((rfl | rfl) | rfl) | rfl
  all_goals exact endsNumber_cons (by decide) (by decide)

theorem endsNumber_blank {blank rest : List Char} (h : Blank blank) (hrest : EndsNumber rest) :
    EndsNumber (blank ++ rest) := by
  cases blank with
  | nil => exact hrest
  | cons c blank => exact endsNumber_of_isSpace (h c List.mem_cons_self) _

/-- Behind an entry stand a comma, or blanks and a bracket. -/
theorem endsNumber_entries {blank rest : List Char} (hrest : EndsNumber rest)
    (texts : List (List Char)) : EndsNumber (entries blank false texts ++ rest) := by
  cases texts with
  | nil => exact hrest
  | cons t ts => exact endsNumber_cons (by decide) (by decide)

/-! ### Elements -/

theorem nextElement_close (first : Bool) {gap : List Char} (hgap : Blank gap) (rest : List Char) :
    nextElement first (gap ++ ']' :: rest) = .ok (.done rest) := by
  rw [nextElement, skipSpace_blank hgap, skipSpace_cons (by decide)]
  rfl

theorem nextElement_entry (first : Bool) {blank text : List Char} (hblank : Blank blank)
    (htext : Opens text) (rest : List Char) :
    nextElement first ((if first then [] else [',']) ++ (blank ++ (text ++ rest))) =
      .ok (.entry (text ++ rest)) := by
  obtain ⟨c, cs, rfl, hspace, hbracket⟩ := htext
  have hskip : skipSpace (blank ++ (c :: cs ++ rest)) = c :: cs ++ rest := by
    rw [skipSpace_blank hblank, List.cons_append, skipSpace_cons hspace]
  have hcomma := skipSpace_cons (c := ',') (by decide) (blank ++ (c :: cs ++ rest))
  cases first with
  | true =>
    show nextElement true (blank ++ _) = _
    rw [nextElement, hskip]
    split
    · next heq => cases heq
    · next heq => exact absurd (List.cons.inj heq).1 hbracket
    · next heq =>
      obtain ⟨rfl, rfl⟩ := List.cons.inj heq
      rfl
  | false =>
    show nextElement false (',' :: (blank ++ _)) = _
    rw [nextElement, hcomma]
    split
    · next heq => cases heq
    · next heq => exact absurd (List.cons.inj heq).1 (by decide)
    · next heq =>
      obtain ⟨rfl, rfl⟩ := List.cons.inj heq
      rw [if_neg Bool.false_ne_true, if_pos rfl, hskip]
      split
      · next heq => cases heq
      · next heq => exact absurd (List.cons.inj heq).1 hbracket
      · rfl

variable {α σ : Type}

/-- The loop over elements: those read before it stand reversed in `done`. -/
theorem readElements_entries {item : Reader α} {blank gap : List Char} (hblank : Blank blank)
    (hgap : Blank gap) (rest : List Char) {texts : List (List Char)} {as : List α}
    (hopen : ∀ t ∈ texts, Opens t) (h : List.Forall₂ (Reads item) texts as) (done : List α)
    {fuel : Nat} (hfuel : texts.length < fuel) :
    readElements item fuel done (entries blank done.isEmpty texts ++ (gap ++ ']' :: rest)) =
      .ok (done.reverse ++ as, rest) := by
  -- A comma is due as soon as one element has been read, so `done` decides whether one is written.
  induction h generalizing done fuel with
  | nil =>
    obtain ⟨fuel, rfl⟩ := Nat.exists_eq_succ_of_ne_zero (Nat.ne_zero_of_lt hfuel)
    rw [entries, List.nil_append, readElements, nextElement_close _ hgap, List.append_nil]
    rfl
  | @cons t a texts as hread _ ih =>
    obtain ⟨fuel, rfl⟩ := Nat.exists_eq_succ_of_ne_zero (Nat.ne_zero_of_lt hfuel)
    have hends : EndsNumber (entries blank false texts ++ (gap ++ ']' :: rest)) :=
      endsNumber_entries (endsNumber_blank hgap (endsNumber_cons (by decide) (by decide))) texts
    rw [entries, List.append_assoc, List.append_assoc, List.append_assoc, readElements,
      nextElement_entry _ hblank (hopen t List.mem_cons_self)]
    show (item _ >>= fun p => readElements item fuel (p.1 :: done) p.2) = _
    rw [hread _ hends]
    show readElements item fuel (a :: done) (entries blank false texts ++ (gap ++ ']' :: rest)) = _
    have hmore := ih (fun u hu => hopen u (List.mem_cons_of_mem t hu)) (a :: done)
      (Nat.lt_of_succ_lt_succ hfuel)
    rw [List.isEmpty_cons] at hmore
    rw [hmore, List.reverse_cons, List.append_assoc, List.singleton_append]

theorem length_le_length_entries (blank : List Char) (first : Bool) {texts : List (List Char)}
    (h : ∀ t ∈ texts, t ≠ []) : texts.length ≤ (entries blank first texts).length := by
  induction texts generalizing first with
  | nil => exact Nat.le_refl 0
  | cons t ts ih =>
    have hmore := ih false fun u hu => h u (List.mem_cons_of_mem t hu)
    have ht := List.length_pos_iff.mpr (h t List.mem_cons_self)
    simp only [entries, List.length_append, List.length_cons]
    omega

/-- An array is read back behind its bracket if each of its elements is. -/
theorem readArray_entries {item : Reader α} {blank gap : List Char} (hblank : Blank blank)
    (hgap : Blank gap) (rest : List Char) {texts : List (List Char)} {as : List α}
    (hopen : ∀ t ∈ texts, Opens t) (h : List.Forall₂ (Reads item) texts as) :
    readArray item (entries blank true texts ++ (gap ++ ']' :: rest)) = .ok (as, rest) := by
  have hne : ∀ t ∈ texts, t ≠ [] := by
    intro t ht
    obtain ⟨c, cs, rfl, -⟩ := hopen t ht
    exact List.cons_ne_nil c cs
  have hfuel := length_le_length_entries blank true hne
  refine readElements_entries hblank hgap rest hopen h [] ?_
  rw [List.length_append]
  omega

/-! ### Members -/

/-- What a member reader makes of a list of keys and of the texts behind them, member by member. -/
inductive Takes (member : String → σ → Reader σ) : σ → List (String × List Char) → σ → Prop where
  | nil (s : σ) : Takes member s [] s
  | cons {s s' s'' : σ} {key : String} {text : List Char} {l : List (String × List Char)}
      (step : Reads (member key s) text s') (more : Takes member s' l s'') :
      Takes member s ((key, text) :: l) s''

/-- A member as it is written: its key, and what stands behind the key. -/
def keyed (e : String × List Char) : List Char :=
  writeText e.1 ++ e.2

theorem nextKey_close (first : Bool) {gap : List Char} (hgap : Blank gap) (rest : List Char) :
    nextKey first (gap ++ '}' :: rest) = .ok (.done rest) := by
  rw [nextKey, skipSpace_blank hgap, skipSpace_cons (by decide)]
  rfl

theorem nextKey_entry (first : Bool) {blank : List Char} (hblank : Blank blank) (rest : List Char) :
    nextKey first ((if first then [] else [',']) ++ (blank ++ '"' :: rest)) = .ok (.entry rest) := by
  have hskip : skipSpace (blank ++ '"' :: rest) = '"' :: rest := by
    rw [skipSpace_blank hblank, skipSpace_cons (by decide)]
  have hcomma := skipSpace_cons (c := ',') (by decide) (blank ++ '"' :: rest)
  cases first with
  | true =>
    show nextKey true (blank ++ _) = _
    rw [nextKey, hskip]
    rfl
  | false =>
    show nextKey false (',' :: (blank ++ _)) = _
    rw [nextKey, hcomma]
    split
    · next heq => cases heq
    · next heq => exact absurd (List.cons.inj heq).1 (by decide)
    · next heq =>
      obtain ⟨rfl, rfl⟩ := List.cons.inj heq
      rw [if_neg Bool.false_ne_true, if_pos rfl, hskip]
      rfl

/-- The loop over members, from some state on. -/
theorem readMembers_entries {member : String → σ → Reader σ} {blank gap : List Char}
    (hblank : Blank blank) (hgap : Blank gap) (rest : List Char) {s s' : σ}
    {l : List (String × List Char)} (h : Takes member s l s') (first : Bool) {fuel : Nat}
    (hfuel : l.length < fuel) :
    readMembers member fuel first s
        (entries blank first (l.map keyed) ++ (gap ++ '}' :: rest)) = .ok (s', rest) := by
  induction h generalizing first fuel with
  | nil s =>
    obtain ⟨fuel, rfl⟩ := Nat.exists_eq_succ_of_ne_zero (Nat.ne_zero_of_lt hfuel)
    rw [List.map_nil, entries, List.nil_append, readMembers, nextKey_close _ hgap]
    rfl
  | @cons s s' s'' key text l hstep _ ih =>
    obtain ⟨fuel, rfl⟩ := Nat.exists_eq_succ_of_ne_zero (Nat.ne_zero_of_lt hfuel)
    have hends : EndsNumber (entries blank false (l.map keyed) ++ (gap ++ '}' :: rest)) :=
      endsNumber_entries (endsNumber_blank hgap (endsNumber_cons (by decide) (by decide))) _
    rw [List.map_cons, entries, keyed, List.append_assoc, List.append_assoc, List.append_assoc,
      List.append_assoc, writeText_append, readMembers, nextKey_entry _ hblank]
    show (readText _ >>= fun p => member p.1 s p.2 >>= fun q =>
      readMembers member fuel false q.1 q.2) = _
    rw [readText_escaped]
    show (member key s _ >>= fun q => readMembers member fuel false q.1 q.2) = _
    rw [hstep _ hends]
    exact ih false (Nat.lt_of_succ_lt_succ hfuel)

/-- An object is read back behind its bracket if each of its members is. -/
theorem readObject_entries {member : String → σ → Reader σ} {blank gap : List Char}
    (hblank : Blank blank) (hgap : Blank gap) (rest : List Char) {s s' : σ}
    {l : List (String × List Char)} (h : Takes member s l s') :
    readObject member s (entries blank true (l.map keyed) ++ (gap ++ '}' :: rest)) =
      .ok (s', rest) := by
  have hne : ∀ t ∈ l.map keyed, t ≠ [] := by
    intro t ht
    obtain ⟨e, -, rfl⟩ := List.mem_map.mp ht
    exact List.append_ne_nil_of_left_ne_nil (List.cons_ne_nil _ _) _
  have hfuel := length_le_length_entries blank true hne
  refine readMembers_entries hblank hgap rest h true ?_
  rw [List.length_map] at hfuel
  rw [List.length_append]
  omega

end Receipt.Json
