import Mathlib.Logic.Relation
import Receipt.Proofs.Layout.Grammar
import Receipt.Proofs.Lookup

/-!
# What the reader of layouts tolerates

Documents are edited in ways that should not matter: members that mean nothing, nulls, alignments that
are none, and the order of the members of a section. A section is judged by what its members say, so
the faults of a document stay the same as well.
-/

namespace Receipt

open Json

/-! ### Members -/

namespace Json

/-- A later member of the same key hides a value. -/
theorem value?_middle (before after : Members) (k : String) (v : Value) :
    Members.value? (before ++ (k, v) :: after) k = some ((Members.value? after k).getD v) := by
  rw [Members.value?_append, Members.value?_cons, if_pos rfl]
  cases Members.value? after k <;> rfl

/-- A member does not hide the values of other keys. -/
theorem value?_insert_of_ne {k key : String} (h : key ≠ k) (before after : Members) (v : Value) :
    Members.value? (before ++ (k, v) :: after) key = Members.value? (before ++ after) key := by
  rw [Members.value?_append, Members.value?_cons, if_neg h, Option.or_none, Members.value?_append]

theorem value?_insert_of_absent {before after : Members} {k : String}
    (h : Members.value? (before ++ after) k = none) (v : Value) :
    Members.value? (before ++ (k, v) :: after) k = some v := by
  rw [Members.value?_append, Option.or_eq_none_iff] at h
  rw [value?_middle, h.1]
  rfl

theorem value?_eq_some_iff {ms : Members} (hkeys : (ms.map Prod.fst).Nodup) {key : String}
    {v : Value} : Members.value? ms key = some v ↔ (key, v) ∈ ms := by
  unfold Members.value?
  rw [lookup_reverse hkeys, lookup_eq_some_iff hkeys]

/-- If no key is repeated, the order of the members says nothing. -/
theorem value?_perm {ms ns : Members} (hkeys : (ms.map Prod.fst).Nodup) (h : ms.Perm ns)
    (key : String) : Members.value? ms key = Members.value? ns key := by
  have hkeys' : (ns.map Prod.fst).Nodup := (h.map Prod.fst).nodup_iff.mp hkeys
  ext v
  rw [value?_eq_some_iff hkeys, value?_eq_some_iff hkeys', h.mem_iff]

/-- Fields that hold the same, where a null is nothing. -/
def SameField (a b : Option Value) : Prop :=
  a = b ∨ (a = none ∧ b = some .null)

theorem sameField_insert_null {before after : Members} {k : String}
    (h : Members.value? (before ++ after) k = none) (key : String) :
    SameField (Members.value? (before ++ after) key)
      (Members.value? (before ++ (k, .null) :: after) key) := by
  by_cases hkey : key = k
  · subst hkey
    exact .inr ⟨h, value?_insert_of_absent h .null⟩
  · exact .inl (value?_insert_of_ne hkey before after .null).symm

theorem SameField.optional_eq {α : Type} {a b : Option Value} (h : SameField a b)
    (meaning : Value → Except Mismatch α) : optional meaning a = optional meaning b := by
  rcases h with rfl | ⟨rfl, rfl⟩
  · rfl
  · rfl

end Json

/-! ### Sections -/

namespace Section

/-- The keys of a section that may be left out. -/
def leavableKeys : List String :=
  ["content", "alignment", "lines", "style"]

/-- One edit of the members of a section that should not matter. -/
inductive Edit : Members → Members → Prop where
  | unknown (before after : Members) (key : String) (v : Value)
      (unknown : key ∉ "type" :: leavableKeys) : Edit (before ++ after) (before ++ (key, v) :: after)
  | null (before after : Members) (key : String) (leavable : key ∈ leavableKeys)
      (absent : Members.value? (before ++ after) key = none) :
      Edit (before ++ after) (before ++ (key, .null) :: after)
  | alignment (before after : Members) (v : Value) (m : Mismatch)
      (absent : Members.value? (before ++ after) "alignment" = none)
      (rejected : Words.ofValue Alignment.words v = .error m) :
      Edit (before ++ after) (before ++ ("alignment", v) :: after)
  | permutation (ms ns : Members) (keys : (ms.map Prod.fst).Nodup) (perm : ms.Perm ns) : Edit ms ns

/-- Members that say the same about a section. -/
structure SameFields (ms ns : Members) : Prop where
  tag : Members.value? ms "type" = Members.value? ns "type"
  content : SameField (Members.value? ms "content") (Members.value? ns "content")
  alignment :
    alignmentOf? (Members.value? ms "alignment") = alignmentOf? (Members.value? ns "alignment")
  lines : SameField (Members.value? ms "lines") (Members.value? ns "lines")
  style : SameField (Members.value? ms "style") (Members.value? ns "style")

theorem SameFields.ofMembers_eq {ms ns : Members} (h : SameFields ms ns) :
    ofMembers ms = ofMembers ns := by
  unfold ofMembers
  rw [h.tag, h.alignment, h.content.optional_eq, h.lines.optional_eq, h.style.optional_eq]

theorem alignmentOf?_rejected {v : Value} {m : Mismatch}
    (h : Words.ofValue Alignment.words v = .error m) :
    alignmentOf? (some v) = alignmentOf? none := by
  unfold alignmentOf?
  rw [Option.bind_some, h]
  rfl

theorem alignmentOf?_sameField {a b : Option Value} (h : SameField a b) :
    alignmentOf? a = alignmentOf? b := by
  rcases h with rfl | ⟨rfl, rfl⟩
  · rfl
  · rfl

/-- An alignment that is none is read as if it were not there. -/
theorem alignmentOf?_insert_rejected {before after : Members} {v : Value} {m : Mismatch}
    (habsent : Members.value? (before ++ after) "alignment" = none)
    (hrejected : Words.ofValue Alignment.words v = .error m) :
    alignmentOf? (Members.value? (before ++ after) "alignment") =
      alignmentOf? (Members.value? (before ++ ("alignment", v) :: after) "alignment") := by
  rw [value?_insert_of_absent habsent, habsent, alignmentOf?_rejected hrejected]

theorem Edit.sameFields {ms ns : Members} (h : Edit ms ns) : SameFields ms ns := by
  cases h with
  | unknown before after key v unknown =>
    have hsame : ∀ k ∈ "type" :: leavableKeys,
        Members.value? (before ++ after) k = Members.value? (before ++ (key, v) :: after) k := by
      intro k hk
      have hne : k ≠ key := fun h => unknown (h ▸ hk)
      exact (value?_insert_of_ne hne before after v).symm
    exact ⟨hsame _ (by decide), .inl (hsame _ (by decide)), congrArg _ (hsame _ (by decide)),
      .inl (hsame _ (by decide)), .inl (hsame _ (by decide))⟩
  | null before after key leavable absent =>
    have hsame := sameField_insert_null absent
    have htag : "type" ≠ key := by
      rintro rfl
      exact absurd leavable (by decide)
    exact ⟨(value?_insert_of_ne htag before after .null).symm, hsame _,
      alignmentOf?_sameField (hsame _), hsame _, hsame _⟩
  | alignment before after v m absent rejected =>
    have hsame : ∀ k, k ≠ "alignment" → Members.value? (before ++ after) k =
        Members.value? (before ++ ("alignment", v) :: after) k :=
      fun k hk => (value?_insert_of_ne hk before after v).symm
    exact ⟨hsame _ (by decide), .inl (hsame _ (by decide)),
      alignmentOf?_insert_rejected absent rejected, .inl (hsame _ (by decide)),
      .inl (hsame _ (by decide))⟩
  | permutation _ _ keys perm =>
    have hsame := value?_perm keys perm
    exact ⟨hsame _, .inl (hsame _), congrArg _ (hsame _), .inl (hsame _), .inl (hsame _)⟩

theorem Edit.ofValue_eq {ms ns : Members} (h : Edit ms ns) :
    ofValue (.object ms) = ofValue (.object ns) := by
  have hdecode : decode (.object ms) = decode (.object ns) := h.sameFields.ofMembers_eq
  unfold ofValue
  rw [hdecode]

end Section

/-! ### Documents -/

namespace Layout

/-- One edit of a document that should not matter: of a section of its layout, or of the alignment of
the layout. -/
inductive Edit : Value → Value → Prop where
  | entry (root₁ root₂ layout₁ layout₂ : Members) (items₁ items₂ : List Value) (ms ns : Members)
      (edit : Section.Edit ms ns) :
      Edit
        (.object (root₁ ++ ("layout", .object
          (layout₁ ++ ("sections", .array (items₁ ++ .object ms :: items₂)) :: layout₂)) :: root₂))
        (.object (root₁ ++ ("layout", .object
          (layout₁ ++ ("sections", .array (items₁ ++ .object ns :: items₂)) :: layout₂)) :: root₂))
  | alignment (root₁ root₂ layout₁ layout₂ : Members) (v : Value) (m : Mismatch)
      (absent : Members.value? (layout₁ ++ layout₂) "alignment" = none)
      (rejected : Words.ofValue Alignment.words v = .error m) :
      Edit (.object (root₁ ++ ("layout", .object (layout₁ ++ layout₂)) :: root₂))
        (.object (root₁ ++ ("layout", .object (layout₁ ++ ("alignment", v) :: layout₂)) :: root₂))

/-- An entry counts by its answer alone, be it a section or a fault. -/
theorem sectionsOf_congr {u v : Value} (h : Section.ofValue u = Section.ofValue v)
    (index : Nat) (before after : List Value) :
    sectionsOf index (before ++ u :: after) = sectionsOf index (before ++ v :: after) := by
  induction before generalizing index with
  | nil => rw [List.nil_append, List.nil_append, sectionsOf_cons, sectionsOf_cons, h]
  | cons w before ih =>
    rw [List.cons_append, List.cons_append, sectionsOf_cons, sectionsOf_cons, ih]

theorem ofValue_congr {ms ns : Members}
    (halignment : Section.alignmentOf? (Members.value? ms "alignment") =
      Section.alignmentOf? (Members.value? ns "alignment"))
    (hsections : Members.value? ms "sections" = Members.value? ns "sections") :
    ofValue (.object ms) = ofValue (.object ns) := by
  unfold ofValue
  dsimp only
  rw [halignment, hsections]

theorem ofValue_section_congr {u v : Value} (h : Section.ofValue u = Section.ofValue v)
    (layout₁ layout₂ : Members) (before after : List Value) :
    ofValue (.object (layout₁ ++ ("sections", .array (before ++ u :: after)) :: layout₂)) =
      ofValue (.object (layout₁ ++ ("sections", .array (before ++ v :: after)) :: layout₂)) := by
  have hne : "alignment" ≠ "sections" := by decide
  unfold ofValue
  dsimp only
  rw [value?_insert_of_ne hne, value?_insert_of_ne hne, value?_middle, value?_middle]
  cases Members.value? layout₂ "sections" with
  | some w => rfl
  | none =>
    dsimp only [Option.getD_none]
    rw [sectionsOf_congr h]

theorem ofDocument_congr {u v : Value} (h : ofValue u = ofValue v) (root₁ root₂ : Members) :
    ofDocument (.object (root₁ ++ ("layout", u) :: root₂)) =
      ofDocument (.object (root₁ ++ ("layout", v) :: root₂)) := by
  unfold ofDocument
  dsimp only
  rw [value?_middle, value?_middle]
  cases Members.value? root₂ "layout" with
  | some w => rfl
  | none =>
    dsimp only [Option.getD_none]
    rw [h]

theorem Edit.ofDocument_eq {v w : Value} (h : Edit v w) : ofDocument v = ofDocument w := by
  cases h with
  | entry root₁ root₂ layout₁ layout₂ items₁ items₂ ms ns edit =>
    have hlayout := ofValue_section_congr edit.ofValue_eq layout₁ layout₂ items₁ items₂
    exact ofDocument_congr hlayout root₁ root₂
  | alignment root₁ root₂ layout₁ layout₂ v m absent rejected =>
    have hne : "sections" ≠ "alignment" := by decide
    have hlayout := ofValue_congr (Section.alignmentOf?_insert_rejected absent rejected)
      (value?_insert_of_ne hne layout₁ layout₂ v).symm
    exact ofDocument_congr hlayout root₁ root₂

theorem ofDocument_eq_of_edits {v w : Value} (h : Relation.EqvGen Edit v w) :
    ofDocument v = ofDocument w := by
  induction h with
  | rel v w edit => exact edit.ofDocument_eq
  | refl v => rfl
  | symm v w _ ih => exact ih.symm
  | trans u v w _ _ ih₁ ih₂ => exact ih₁.trans ih₂

end Layout

/-- Edits that should not matter do not, in whatever number and direction: two documents that they lead
from one to the other have the same layout or the same fault. -/
theorem edits_keep_layout (before after : String) (v w : Value)
    (hbefore : Value.read before = .ok v) (hafter : Value.read after = .ok w)
    (hedits : Relation.EqvGen Layout.Edit v w) : Layout.read? before = Layout.read? after := by
  rw [Layout.read?_of_json hbefore, Layout.read?_of_json hafter]
  exact Layout.ofDocument_eq_of_edits hedits

set_option maxRecDepth 4000 in
/-- A section that asks for no lines is refused all the same with a note, a null, two alignments that
are none and its members in another order. -/
theorem spacer_with_trimmings_is_refused :
    Layout.read? "\x7b\"layout\":\x7b\"sections\":[\x7b\"type\":\"a\",\"lines\":0\x7d]\x7d\x7d" =
        .error (.badSection 0 .noLines) ∧
      Layout.read?
          ("\x7b\"layout\":\x7b\"alignment\":[],\"sections\":[\x7b\"note\":\x7b\"type\":1\x7d," ++
            "\"type\":\"a\",\"alignment\":7,\"lines\":0,\"content\":null\x7d]\x7d\x7d") =
        .error (.badSection 0 .noLines) := by
  let type : String × Value := ("type", .text "a")
  let lines : String × Value := ("lines", .integer 0)
  let note : String × Value := ("note", .object [("type", .integer 1)])
  let alignment : String × Value := ("alignment", .integer 7)
  let content : String × Value := ("content", .null)
  let layout (ms : Members) : Members := [("sections", .array [.object ms])]
  let document (ms : Members) : Value := .object [("layout", .object ms)]
  have hsection {ms ns : Members} (h : Section.Edit ms ns) :
      Relation.EqvGen Layout.Edit (document (layout ms)) (document (layout ns)) :=
    .rel _ _ (.entry [] [] [] [] [] [] ms ns h)
  have hnull := hsection (.null [type, lines] [] "content" (by decide) rfl)
  have halignment := hsection (.alignment [type] [lines, content] (.integer 7) _ rfl rfl)
  have hnote := hsection (.unknown [type] [alignment, lines, content] "note" note.2 (by decide))
  have hswap := hsection (.permutation [type, note, alignment, lines, content] _ (by decide)
    (.swap note type _))
  have hlayout : Relation.EqvGen Layout.Edit
      (document (layout [note, type, alignment, lines, content]))
      (document (("alignment", .array []) :: layout [note, type, alignment, lines, content])) :=
    .rel _ _ (.alignment [] [] [] (layout _) (.array []) _ rfl rfl)
  have hedits := (((hnull.trans _ _ _ halignment).trans _ _ _ hnote).trans _ _ _ hswap).trans _ _ _
    hlayout
  refine ⟨?plain, (edits_keep_layout _ _ _ _ ?before ?after hedits).symm.trans ?plain⟩
  case plain => rfl
  case before => rfl
  case after => rfl

end Receipt
