import Receipt.Placeholder
import Receipt.Proofs.Delimiter
import Receipt.Proofs.Lookup

/-!
# Substitution from the left

What resolving a text comes to can be said without pieces: go through the text from the left, put the
value of a sample in place of its name in braces wherever one begins, and copy every other character.
`Substituted` says just that. The pieces of a text jump from brace to brace and skip unknown names as a
whole; since a name has no braces in it, no placeholder is lost in what they skip.
-/

namespace Receipt.Placeholder

/-- A name in braces, as it stands in a text. -/
def braces (name : String) : List Char :=
  '{' :: name.toList ++ ['}']

/-- A text, and what it becomes when the samples are put in from the left. -/
inductive Substituted : List Char → List Char → Prop where
  | done : Substituted [] []
  | replaced {name value : String} {cs rest out : List Char} (known : (name, value) ∈ samples)
      (begins : cs = braces name ++ rest) (h : Substituted rest out) :
      Substituted cs (value.toList ++ out)
  /-- Where no sample begins, a character stands for itself. -/
  | copied {c : Char} {rest out : List Char}
      (plain : ∀ sample ∈ samples, ¬ braces sample.1 <+: c :: rest) (h : Substituted rest out) :
      Substituted (c :: rest) (c :: out)

variable {cs after rest out out' : List Char} {name value : String} {piece : Piece}

/-! ### Names and values -/

/-- Something that may stand between braces to be looked up. -/
structure IsName (name : String) : Prop where
  nonempty : name.toList ≠ []
  chars : ∀ c ∈ name.toList, isNameChar c = true

theorem isName_of_mem (h : (name, value) ∈ samples) : IsName name := by
  have hall : ∀ sample ∈ samples,
      sample.1.toList ≠ [] ∧ sample.1.toList.all isNameChar = true := by decide +kernel
  obtain ⟨hne, hchars⟩ := hall _ h
  exact ⟨hne, List.all_eq_true.mp hchars⟩

theorem IsName.not_mem (h : IsName name) {c : Char} (hc : isNameChar c = false) :
    c ∉ name.toList := by
  intro hmem
  exact Bool.false_ne_true (hc.symm.trans (h.chars c hmem))

/-- A value begins with a character that no placeholder has in it. -/
theorem exists_value_eq_cons (h : (name, value) ∈ samples) :
    ∃ c cs, value.toList = c :: cs ∧ ∀ sample ∈ samples, c ∉ braces sample.1 := by
  have hall : ∀ v ∈ samples,
      (v.2.toList.head?.any fun c => samples.all fun sample => c ∉ braces sample.1) = true := by
    decide +kernel
  obtain ⟨c, hhead, hc⟩ := (Option.any_eq_true _ _).mp (hall _ h)
  obtain ⟨cs, hcs⟩ := List.head?_eq_some_iff.mp hhead
  exact ⟨c, cs, hcs, fun sample hs => of_decide_eq_true (List.all_eq_true.mp hc sample hs)⟩

/-- A character that stands in no value. -/
def Unwritten (c : Char) : Prop :=
  ∀ sample ∈ samples, c ∉ sample.2.toList

/-- No value has a brace in it, or a character that ends a line. -/
theorem unwritten {c : Char} (h : ¬ (' ' ≤ c ∧ c ≤ 'z')) : Unwritten c := by
  have hall : ∀ sample ∈ samples,
      (sample.2.toList.all fun c => ' ' ≤ c ∧ c ≤ 'z') = true := by decide +kernel
  intro sample hs hmem
  exact h (of_decide_eq_true (List.all_eq_true.mp (hall sample hs) c hmem))

theorem value?_eq_some_iff : value? name = some value ↔ (name, value) ∈ samples :=
  lookup_eq_some_iff (by decide +kernel)

/-- A name ends at the first closing brace. -/
theorem name?_eq_some_iff :
    name? cs = some (name, rest) ↔ IsName name ∧ cs = name.toList ++ '}' :: rest := by
  constructor
  · intro h
    unfold name? at h
    split at h
    · contradiction
    · next hdrop =>
      dsimp only at h
      split at h
      · next hname =>
        cases h
        refine ⟨⟨?_, ?_⟩, ?_⟩
        · rw [String.toList_ofList]
          exact hname.1
        · rw [String.toList_ofList]
          exact List.all_eq_true.mp hname.2
        · rw [String.toList_ofList, takeWhile_append_cons hdrop]
      · contradiction
  · rintro ⟨hname, rfl⟩
    have hbrace : ∀ c ∈ name.toList, decide (c ≠ '}') = true := by
      intro c hc
      refine decide_eq_true ?_
      rintro rfl
      exact hname.not_mem rfl hc
    have htake : (name.toList ++ '}' :: rest).takeWhile (· ≠ '}') = name.toList := by
      rw [List.takeWhile_append_of_pos hbrace]
      simp
    have hdrop : (name.toList ++ '}' :: rest).dropWhile (· ≠ '}') = '}' :: rest := by
      rw [List.dropWhile_append_of_pos hbrace]
      simp
    have hall : name.toList ≠ [] ∧ name.toList.all isNameChar = true :=
      ⟨hname.nonempty, List.all_eq_true.mpr hname.chars⟩
    unfold name?
    rw [hdrop, htake]
    dsimp only
    rw [if_pos hall, String.ofList_toList]

theorem braces_append (name : String) (rest : List Char) :
    braces name ++ rest = '{' :: (name.toList ++ '}' :: rest) := by
  simp [braces]

/-- Where a sample begins, its name is read. -/
theorem name?_of_begins (h : (name, value) ∈ samples) (hp : braces name <+: '{' :: after) :
    ∃ rest, name? after = some (name, rest) := by
  obtain ⟨rest, hrest⟩ := hp
  rw [braces_append] at hrest
  exact ⟨rest, name?_eq_some_iff.mpr ⟨isName_of_mem h, (List.cons.inj hrest).2.symm⟩⟩

/-! ### The substitution is determined by the text -/

/-- At most one sample begins a text. -/
theorem eq_of_braces_append {name' value' : String} {rest' : List Char}
    (h : (name, value) ∈ samples) (h' : (name', value') ∈ samples)
    (heq : braces name ++ rest = braces name' ++ rest') : value = value' ∧ rest = rest' := by
  rw [braces_append, braces_append, List.cons.injEq] at heq
  have hname : name? (name.toList ++ '}' :: rest) = some (name, rest) :=
    name?_eq_some_iff.mpr ⟨isName_of_mem h, rfl⟩
  have hname' : name? (name.toList ++ '}' :: rest) = some (name', rest') :=
    name?_eq_some_iff.mpr ⟨isName_of_mem h', heq.2⟩
  obtain ⟨rfl, rfl⟩ := Prod.mk.inj (Option.some.inj (hname.symm.trans hname'))
  have hvalue := (value?_eq_some_iff.mpr h).symm.trans (value?_eq_some_iff.mpr h')
  exact ⟨Option.some.inj hvalue, rfl⟩

theorem Substituted.eq (h : Substituted cs out) (h' : Substituted cs out') : out = out' := by
  induction h generalizing out' with
  | done =>
    cases h' with
    | done => rfl
    | replaced _ begins _ => cases begins
  | replaced known begins _ ih =>
    cases h' with
    | done => cases begins
    | replaced known' begins' h' =>
      obtain ⟨rfl, rfl⟩ := eq_of_braces_append known known' (begins.symm.trans begins')
      rw [ih h']
    | copied plain _ => exact absurd ⟨_, begins.symm⟩ (plain _ known)
  | copied plain _ ih =>
    cases h' with
    | replaced known begins _ => exact absurd ⟨_, begins.symm⟩ (plain _ known)
    | copied _ h' => rw [ih h']

/-- No placeholder begins within a text without opening braces. -/
theorem Substituted.verbatim {w : List Char} (hw : '{' ∉ w) (h : Substituted rest out) :
    Substituted (w ++ rest) (w ++ out) := by
  induction w with
  | nil => exact h
  | cons c w ih =>
    obtain ⟨hc, hw⟩ := List.ne_and_not_mem_of_not_mem_cons hw
    refine .copied (fun sample _ hp => ?_) (ih hw)
    exact hc (List.cons_prefix_cons.mp hp).1

/-! ### The pieces of a text -/

/-- What an opening brace starts: a sample, or something verbatim that hides none. -/
inductive Braced (after : List Char) : Piece → List Char → Prop where
  | known {name value : String} {rest : List Char} (listed : (name, value) ∈ samples)
      (reads : after = name.toList ++ '}' :: rest) : Braced after (.known name value) rest
  | verbatim {w rest : List Char} (plain : ∀ sample ∈ samples, ¬ braces sample.1 <+: '{' :: after)
      (reads : after = w ++ rest) (opens : '{' ∉ w) : Braced after (.verbatim ('{' :: w)) rest

theorem braced_spec (after : List Char) : Braced after (braced after).1 (braced after).2 := by
  unfold braced
  cases hname : name? after with
  | none =>
    refine .verbatim (fun sample hs hp => ?_) rfl List.not_mem_nil
    obtain ⟨rest, hrest⟩ := name?_of_begins hs hp
    cases hname.symm.trans hrest
  | some read =>
    obtain ⟨name, rest⟩ := read
    obtain ⟨hisName, hreads⟩ := name?_eq_some_iff.mp hname
    dsimp only
    cases hvalue : value? name with
    | some value => exact .known (value?_eq_some_iff.mp hvalue) hreads
    | none =>
      refine .verbatim (w := name.toList ++ ['}']) (fun sample hs hp => ?_) ?_ ?_
      · obtain ⟨rest', hrest'⟩ := name?_of_begins hs hp
        cases hname.symm.trans hrest'
        cases hvalue.symm.trans (value?_eq_some_iff.mpr hs)
      · rw [hreads, List.append_assoc]
        rfl
      · rw [List.mem_append, not_or]
        exact ⟨hisName.not_mem rfl, by decide⟩

theorem Braced.substituted (hb : Braced after piece rest) (h : Substituted rest out) :
    Substituted ('{' :: after) (piece.printed ++ out) := by
  cases hb with
  | known listed reads => exact .replaced listed (by rw [reads, braces_append]) h
  | verbatim plain reads opens =>
    subst reads
    exact .copied plain (h.verbatim opens)

theorem Braced.source_append (hb : Braced after piece rest) :
    piece.source ++ rest = '{' :: after := by
  cases hb with
  | known listed reads =>
    rw [reads]
    exact braces_append _ rest
  | verbatim plain reads opens =>
    rw [reads]
    rfl

/-- A text is its pieces: the characters before an opening brace, what the brace starts, and so on. -/
theorem pieces_induction {motive : List Char → List Piece → Prop}
    (last : ∀ cs, '{' ∉ cs → motive cs [.verbatim cs])
    (brace : ∀ w after piece rest, '{' ∉ w → Braced after piece rest → motive rest (pieces rest) →
      motive (w ++ '{' :: after) (.verbatim w :: piece :: pieces rest)) (cs : List Char) :
    motive cs (pieces cs) := by
  induction cs using pieces.induct with
  | case1 cs hdrop =>
    rw [pieces]
    split
    · refine last cs fun hmem => ?_
      have hall := List.dropWhile_eq_nil_iff.mp hdrop '{' hmem
      exact absurd hall (by decide)
    · next hcons => cases hdrop.symm.trans hcons
  | case2 cs c after hdrop ih =>
    rw [pieces]
    split
    · next hnil => cases hdrop.symm.trans hnil
    · next c' after' hcons =>
      cases hdrop.symm.trans hcons
      have hbefore : '{' ∉ cs.takeWhile (· ≠ '{') := by
        intro hmem
        exact absurd (List.mem_takeWhile_imp hmem) (by decide)
      have hstep := brace _ after _ _ hbefore (braced_spec after) ih
      rwa [takeWhile_append_cons hdrop] at hstep

theorem substituted_pieces (cs : List Char) :
    Substituted cs ((pieces cs).flatMap Piece.printed) := by
  refine pieces_induction (motive := fun cs ps => Substituted cs (ps.flatMap Piece.printed))
    ?_ ?_ cs
  · intro cs hcs
    rw [List.flatMap_singleton]
    have h := Substituted.done.verbatim hcs
    rwa [List.append_nil] at h
  · intro w after piece rest hw hb h
    simp only [List.flatMap_cons]
    exact (hb.substituted h).verbatim hw

/-- Nothing of a text is lost or repeated in its pieces. -/
theorem source_pieces (cs : List Char) : (pieces cs).flatMap Piece.source = cs := by
  refine pieces_induction (motive := fun cs ps => ps.flatMap Piece.source = cs) ?_ ?_ cs
  · intro cs _
    simp [Piece.source]
  · intro w after piece rest _ hb h
    simp only [List.flatMap_cons, h, hb.source_append]
    rfl

theorem mem_samples_of_mem_pieces (h : .known name value ∈ pieces cs) :
    (name, value) ∈ samples := by
  revert h
  refine pieces_induction (motive := fun _ ps => .known name value ∈ ps → (name, value) ∈ samples)
    ?_ ?_ cs
  · intro cs _ h
    cases List.mem_singleton.mp h
  · intro w after piece rest _ hb ih h
    rcases List.mem_cons.mp h with h | h
    · cases h
    rcases List.mem_cons.mp h with rfl | h
    · cases hb with
      | known listed _ => exact listed
    · exact ih h

/-- A value never begins like the placeholder that it stands for, so every known name shows. -/
theorem printed_eq_source_iff {ps : List Piece}
    (h : ∀ name value, .known name value ∈ ps → (name, value) ∈ samples) :
    ps.flatMap Piece.printed = ps.flatMap Piece.source ↔ ps.any Piece.isKnown = false := by
  induction ps with
  | nil => exact iff_of_true rfl rfl
  | cons piece ps ih =>
    rw [List.flatMap_cons, List.flatMap_cons, List.any_cons]
    cases piece with
    | verbatim cs =>
      have ih := ih fun name value hmem => h name value (List.mem_cons_of_mem _ hmem)
      simpa [Piece.printed, Piece.source, Piece.isKnown] using ih
    | known name value =>
      refine iff_of_false (fun heq => ?_) (by simp [Piece.isKnown])
      have hlisted := h name value List.mem_cons_self
      obtain ⟨c, cs, hvalue, hc⟩ := exists_value_eq_cons hlisted
      simp only [Piece.printed, Piece.source, hvalue, List.cons_append, List.cons.injEq] at heq
      exact hc _ hlisted (heq.1 ▸ List.mem_cons_self)

/-! ### Resolving -/

theorem toList_resolve (s : String) :
    (resolve s).toList = (pieces s.toList).flatMap Piece.printed := by
  rw [resolve, String.toList_ofList]

theorem substituted_iff {s : String} : Substituted s.toList out ↔ out = (resolve s).toList := by
  have h := substituted_pieces s.toList
  rw [← toList_resolve] at h
  constructor
  · intro h'
    exact h'.eq h
  · rintro rfl
    exact h

/-- Resolving a text is substitution from the left, and the pieces on the way are the text itself. A
text is a template exactly if resolving changes it. -/
theorem resolve_substitutes_from_left (s : String) :
    (∀ out, Substituted s.toList out ↔ out = (resolve s).toList) ∧
    (pieces s.toList).flatMap Piece.source = s.toList ∧
    (∀ name value, .known name value ∈ pieces s.toList → (name, value) ∈ samples) ∧
    (isTemplate s = true ↔ resolve s ≠ s) := by
  refine ⟨fun out => substituted_iff, source_pieces s.toList,
    fun name value h => mem_samples_of_mem_pieces h, ?_⟩
  have hsame : resolve s = s ↔ isTemplate s = false := by
    rw [← String.toList_inj, toList_resolve]
    have hlisted : ∀ name value, .known name value ∈ pieces s.toList → (name, value) ∈ samples :=
      fun _ _ => mem_samples_of_mem_pieces
    have h := printed_eq_source_iff hlisted
    rwa [source_pieces] at h
  rw [ne_eq, hsame, Bool.not_eq_false]

/-- Braces around a placeholder, an unknown name right before one, and braces that hold no name. -/
theorem stray_braces_stand_for_themselves :
    Substituted "{{date}} {nickname}{total}{ } \x7btax".toList
        "{12/04/2024} {nickname}$30.19{ } \x7btax".toList ∧
      ("total", "$30.19") ∈ samples ∧
      isTemplate "{{date}} {nickname}{total}{ } \x7btax" = true ∧
      isTemplate "{nickname}{ } \x7btax" = false := by
  obtain ⟨hsubstituted, -, hlisted, htemplate⟩ :=
    resolve_substitutes_from_left "{{date}} {nickname}{total}{ } \x7btax"
  obtain ⟨-, -, -, hplain⟩ := resolve_substitutes_from_left "{nickname}{ } \x7btax"
  refine ⟨(hsubstituted _).mpr (by decide +kernel), hlisted _ _ (by decide +kernel),
    htemplate.mpr (by decide +kernel), ?_⟩
  rw [← Bool.not_eq_true, hplain, not_not]
  decide +kernel

end Receipt.Placeholder
