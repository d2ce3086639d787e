import Receipt.Proofs.Layout.RoundTrip

/-!
# The grammar of layouts

Which values are sections, said without reading them, and what the reader answers for every document.
An entry counts by itself: it is a section or it is not, whatever stands beside it, and the first entry
that is none is the one that is reported.
-/

namespace Receipt

open Json

/-! ### Kinds of values -/

namespace Json

def IsText (v : Value) : Prop :=
  ∃ s, v = .text s

def IsBoolean (v : Value) : Prop :=
  ∃ b, v = .boolean b

/-- One of a list of words, or an object that holds it as its key. -/
def IsWord {α : Type} (words : Words α) (v : Value) : Prop :=
  ∃ a, Words.ofValue words v = .ok a

/-- A field that may be left out: it is absent, null or of its kind. -/
def Leavable (kind : Value → Prop) (field : Option Value) : Prop :=
  field = none ∨ field = some .null ∨ ∃ v, field = some v ∧ kind v

end Json

/-- A number of lines that can be fed: an integer of 32 bits, and not zero. -/
def IsLineCount (v : Value) : Prop :=
  ∃ n : Int, v = .integer n ∧ 1 ≤ n ∧ n ≤ 4294967295

/-- A style: an object, or an array of the two fields. -/
inductive IsStyle : Value → Prop where
  | object (ms : Members) (bold : Leavable IsBoolean (Members.value? ms "bold"))
      (size : Leavable (IsWord TextSize.words) (Members.value? ms "size")) : IsStyle (.object ms)
  | array (items : List Value) (bold : Leavable IsBoolean items[0]?)
      (size : Leavable (IsWord TextSize.words) items[1]?) (short : items.length ≤ 2) :
      IsStyle (.array items)

/-- A section: an object, of which the alignment may be anything, or an array of the five fields. -/
inductive IsSection : Value → Prop where
  | object (ms : Members) (tag : ∃ s, Members.value? ms "type" = some (.text s))
      (content : Leavable IsText (Members.value? ms "content"))
      (lines : Leavable IsLineCount (Members.value? ms "lines"))
      (style : Leavable IsStyle (Members.value? ms "style")) : IsSection (.object ms)
  | array (items : List Value) (tag : ∃ s, items[0]? = some (.text s))
      (content : Leavable IsText items[1]?)
      (alignment : Leavable (IsWord Alignment.words) items[2]?)
      (lines : Leavable IsLineCount items[3]?) (style : Leavable IsStyle items[4]?)
      (short : items.length ≤ 5) : IsSection (.array items)

/-! ### Fields -/

namespace Json

theorem ofValue_text_ok_iff {v : Value} {s : String} :
    Scalar.text.ofValue v = .ok s ↔ v = .text s := by
  cases v with
  | text t => simp [Scalar.ofValue, Scalar.text]
  | _ => exact iff_of_false nofun nofun

theorem ofValue_boolean_ok_iff {v : Value} {b : Bool} :
    Scalar.boolean.ofValue v = .ok b ↔ v = .boolean b := by
  cases v with
  | boolean c => simp [Scalar.ofValue, Scalar.boolean]
  | _ => exact iff_of_false nofun nofun

theorem ofValue_word32_ok_iff {v : Value} {n : UInt32} :
    Scalar.word32.ofValue v = .ok n ↔ v = .integer n.toNat := by
  constructor
  · intro h
    cases v with
    | integer k =>
      unfold Scalar.ofValue Scalar.word32 Scalar.map Scalar.below at h
      dsimp only at h
      split at h
      · next hrange =>
        cases h
        have hk : k.toNat < UInt32.size := by omega
        rw [UInt32.toNat_ofNat_of_lt' hk, Int.toNat_of_nonneg hrange.1]
      · cases h
    | _ => cases h
  · intro h
    rw [h]
    exact ofValue_word32 n

/-- A field is read with some result if what it holds is, or if nothing is asked for. -/
theorem exists_optional_ok_iff {α : Type} (meaning : Value → Except Mismatch α)
    (field : Option Value) {p : Option α → Prop} (hnone : p none) :
    (∃ o, optional meaning field = .ok o ∧ p o) ↔
      Leavable (fun v => ∃ a, meaning v = .ok a ∧ p (some a)) field := by
  unfold Leavable
  constructor
  · intro h
    obtain ⟨o, ho, hp⟩ := h
    unfold optional at ho
    split at ho
    · exact .inl rfl
    · exact .inr (.inl rfl)
    · next v _ =>
      cases hv : meaning v with
      | error m =>
        rw [hv] at ho
        cases ho
      | ok a =>
        rw [hv] at ho
        cases ho
        exact .inr (.inr ⟨v, rfl, a, hv, hp⟩)
  · intro h
    rcases h with rfl | rfl | ⟨v, rfl, a, ha, hp⟩
    · exact ⟨none, rfl, hnone⟩
    · exact ⟨none, rfl, hnone⟩
    · by_cases hv : v = .null
      · rw [hv]
        exact ⟨none, rfl, hnone⟩
      · refine ⟨some a, ?_, hp⟩
        unfold optional
        split
        · next heq => cases heq
        · next heq => exact absurd (Option.some.inj heq) hv
        · next heq =>
          obtain rfl := Option.some.inj heq
          rw [ha]
          rfl

theorem optional_accepts_iff {α : Type} (meaning : Value → Except Mismatch α)
    (field : Option Value) :
    (∃ o, optional meaning field = .ok o) ↔ Leavable (fun v => ∃ a, meaning v = .ok a) field := by
  have h := exists_optional_ok_iff meaning field (p := fun _ => True) trivial
  simpa only [and_true] using h

theorem atMost_ok_iff {fields : Nat} {items : List Value} {u : Unit} :
    atMost fields items = .ok u ↔ items.length ≤ fields := by
  unfold atMost
  split
  · next h => exact iff_of_true rfl h
  · next h => exact iff_of_false nofun h

end Json

/-! ### Styles -/

theorem ofFields_ok_iff {bold size : Option Value} {style : SectionStyle} :
    SectionStyle.ofFields bold size = .ok style ↔
      optional Scalar.boolean.ofValue bold = .ok style.bold ∧
        optional (Words.ofValue TextSize.words) size = .ok style.size := by
  unfold SectionStyle.ofFields
  simp only [bind_eq_ok_iff]
  constructor
  · intro h
    obtain ⟨b, hb, s, hs, h⟩ := h
    cases h
    exact ⟨hb, hs⟩
  · intro h
    exact ⟨style.bold, h.1, style.size, h.2, rfl⟩

theorem ofFields_accepts_iff {bold size : Option Value} :
    (∃ style, SectionStyle.ofFields bold size = .ok style) ↔
      Leavable IsBoolean bold ∧ Leavable (IsWord TextSize.words) size := by
  have hbold := optional_accepts_iff Scalar.boolean.ofValue bold
  have hsize := optional_accepts_iff (Words.ofValue TextSize.words) size
  simp only [ofValue_boolean_ok_iff] at hbold
  simp only [ofFields_ok_iff]
  constructor
  · intro h
    obtain ⟨style, hb, hs⟩ := h
    exact ⟨hbold.mp ⟨_, hb⟩, hsize.mp ⟨_, hs⟩⟩
  · intro h
    obtain ⟨b, hb⟩ := hbold.mpr h.1
    obtain ⟨s, hs⟩ := hsize.mpr h.2
    exact ⟨{ bold := b, size := s }, hb, hs⟩

theorem style_accepts_iff {v : Value} :
    (∃ style, SectionStyle.ofValue v = .ok style) ↔ IsStyle v := by
  cases v with
  | object ms =>
    refine ofFields_accepts_iff.trans ⟨fun h => .object ms h.1 h.2, fun h => ?_⟩
    cases h with
    | object _ bold size => exact ⟨bold, size⟩
  | array items =>
    have harray : (∃ style, SectionStyle.ofValue (.array items) = .ok style) ↔
        (∃ style, SectionStyle.ofFields items[0]? items[1]? = .ok style) ∧ items.length ≤ 2 := by
      unfold SectionStyle.ofValue
      simp only [bind_eq_ok_iff, atMost_ok_iff]
      constructor
      · intro h
        obtain ⟨style, style', hfields, _, hshort, -⟩ := h
        exact ⟨⟨style', hfields⟩, hshort⟩
      · intro h
        obtain ⟨⟨style, hfields⟩, hshort⟩ := h
        exact ⟨style, style, hfields, (), hshort, rfl⟩
    rw [harray, ofFields_accepts_iff]
    constructor
    · intro h
      exact .array items h.1.1 h.1.2 h.2
    · intro h
      cases h with
      | array _ bold size short => exact ⟨⟨bold, size⟩, short⟩
  | _ => exact iff_of_false (fun h => nomatch h.choose_spec) nofun

/-! ### Sections -/

/-- What the fields of a section come to, wherever they are written. -/
structure ReadsFields (tag content lines style : Option Value) (s : Section) : Prop where
  tag : tag = some (.text s.tag)
  content : optional Scalar.text.ofValue content = .ok s.content
  lines : optional Scalar.word32.ofValue lines = .ok s.lines
  style : optional SectionStyle.ofValue style = .ok s.style

theorem ofMembers_ok_iff {ms : Members} {s : Section} :
    Section.ofMembers ms = .ok s ↔
      ReadsFields (Members.value? ms "type") (Members.value? ms "content")
        (Members.value? ms "lines") (Members.value? ms "style") s ∧
      s.alignment = Section.alignmentOf? (Members.value? ms "alignment") := by
  unfold Section.ofMembers
  cases htype : Members.value? ms "type" with
  | none =>
    refine iff_of_false ?_ fun h => nomatch h.1.tag
    intro h
    simp only [bind_eq_ok_iff] at h
    obtain ⟨_, _, _, _, _, _, h⟩ := h
    cases h
  | some v =>
    simp only [bind_eq_ok_iff, ofValue_text_ok_iff]
    constructor
    · intro h
      obtain ⟨content, hcontent, lines, hlines, style, hstyle, tag, rfl, h⟩ := h
      cases h
      exact ⟨⟨rfl, hcontent, hlines, hstyle⟩, rfl⟩
    · intro h
      obtain ⟨⟨htag, hcontent, hlines, hstyle⟩, halignment⟩ := h
      refine ⟨_, hcontent, _, hlines, _, hstyle, _, Option.some.inj htag, ?_⟩
      rw [← halignment]
      rfl

theorem ofItems_ok_iff {items : List Value} {s : Section} :
    Section.ofItems items = .ok s ↔
      ReadsFields items[0]? items[1]? items[3]? items[4]? s ∧
      optional (Words.ofValue Alignment.words) items[2]? = .ok s.alignment ∧ items.length ≤ 5 := by
  unfold Section.ofItems
  cases htype : items[0]? with
  | none => exact iff_of_false nofun fun h => nomatch h.1.tag
  | some v =>
    simp only [bind_eq_ok_iff, ofValue_text_ok_iff, atMost_ok_iff]
    constructor
    · intro h
      obtain ⟨tag, rfl, content, hcontent, alignment, halignment, lines, hlines, style, hstyle, _,
        hshort, h⟩ := h
      cases h
      exact ⟨⟨rfl, hcontent, hlines, hstyle⟩, halignment, hshort⟩
    · intro h
      obtain ⟨⟨htag, hcontent, hlines, hstyle⟩, halignment, hshort⟩ := h
      exact ⟨_, Option.some.inj htag, _, hcontent, _, halignment, _, hlines, _, hstyle, (), hshort,
        rfl⟩

theorem lineCount_accepts_iff {v : Value} :
    (∃ n, Scalar.word32.ofValue v = .ok n ∧ some n ≠ some 0) ↔ IsLineCount v := by
  simp only [ofValue_word32_ok_iff, ne_eq, Option.some.injEq]
  constructor
  · intro h
    obtain ⟨n, rfl, hn⟩ := h
    have hpos : n.toNat ≠ 0 := fun hzero => hn (UInt32.toNat_inj.mp hzero)
    have hlt : n.toNat < 4294967296 := n.toNat_lt_size
    exact ⟨n.toNat, rfl, by omega, by omega⟩
  · intro h
    obtain ⟨k, rfl, hone, hmax⟩ := h
    have hk : k.toNat < UInt32.size := by
      change k.toNat < 4294967296
      omega
    refine ⟨UInt32.ofNat k.toNat, ?_, fun hzero => ?_⟩
    · rw [UInt32.toNat_ofNat_of_lt' hk, Int.toNat_of_nonneg (by omega)]
    · have hval := congrArg UInt32.toNat hzero
      rw [UInt32.toNat_ofNat_of_lt' hk] at hval
      change k.toNat = 0 at hval
      omega

/-- The fields can be read, into a section that asks for some lines, if each is of its kind. -/
theorem readsFields_accepts_iff (tag content lines style : Option Value)
    (alignment : Option Alignment) :
    (∃ s, (ReadsFields tag content lines style s ∧ s.alignment = alignment) ∧ s.lines ≠ some 0) ↔
      (∃ t, tag = some (.text t)) ∧ Leavable IsText content ∧ Leavable IsLineCount lines ∧
        Leavable IsStyle style := by
  have hcontent := optional_accepts_iff Scalar.text.ofValue content
  have hlines := exists_optional_ok_iff Scalar.word32.ofValue lines (p := (· ≠ some 0)) nofun
  have hstyle := optional_accepts_iff SectionStyle.ofValue style
  simp only [ofValue_text_ok_iff] at hcontent
  simp only [lineCount_accepts_iff] at hlines
  simp only [style_accepts_iff] at hstyle
  constructor
  · intro h
    obtain ⟨s, ⟨hs, -⟩, hzero⟩ := h
    exact ⟨⟨s.tag, hs.tag⟩, hcontent.mp ⟨_, hs.content⟩, hlines.mp ⟨_, hs.lines, hzero⟩,
      hstyle.mp ⟨_, hs.style⟩⟩
  · intro h
    obtain ⟨⟨t, ht⟩, hc, hl, hst⟩ := h
    obtain ⟨c, hc⟩ := hcontent.mpr hc
    obtain ⟨l, hl, hzero⟩ := hlines.mpr hl
    obtain ⟨st, hst⟩ := hstyle.mpr hst
    exact ⟨{ tag := t, content := c, alignment, lines := l, style := st }, ⟨⟨ht, hc, hl, hst⟩, rfl⟩,
      hzero⟩

/-- An entry is accepted exactly if it is a section. -/
theorem section_accepts_iff {v : Value} : (∃ s, Section.ofValue v = .ok s) ↔ IsSection v := by
  simp only [Section.ofValue_ok_iff]
  cases v with
  | object ms =>
    show (∃ s, Section.ofMembers ms = .ok s ∧ _) ↔ _
    simp only [ofMembers_ok_iff, readsFields_accepts_iff]
    constructor
    · intro h
      obtain ⟨tag, content, lines, style⟩ := h
      exact .object ms tag content lines style
    · intro h
      cases h with
      | object _ tag content lines style => exact ⟨tag, content, lines, style⟩
  | array items =>
    have halignment := optional_accepts_iff (Words.ofValue Alignment.words) items[2]?
    show (∃ s, Section.ofItems items = .ok s ∧ _) ↔ _
    simp only [ofItems_ok_iff]
    constructor
    · intro h
      obtain ⟨s, ⟨hs, ha, hshort⟩, hzero⟩ := h
      obtain ⟨tag, content, lines, style⟩ :=
        (readsFields_accepts_iff _ _ _ _ s.alignment).mp ⟨s, ⟨hs, rfl⟩, hzero⟩
      exact .array items tag content (halignment.mp ⟨_, ha⟩) lines style hshort
    · intro h
      cases h with
      | array _ tag content alignment lines style short =>
        obtain ⟨a, ha⟩ := halignment.mpr alignment
        obtain ⟨s, ⟨hs, rfl⟩, hzero⟩ :=
          (readsFields_accepts_iff _ _ _ _ a).mpr ⟨tag, content, lines, style⟩
        exact ⟨s, ⟨hs, ha, short⟩, hzero⟩
  | _ => exact iff_of_false (fun h => nomatch h.choose_spec.1) nofun

namespace Layout

/-- A document whose layout has an array of sections, with the members of the layout and the entries
of the array. -/
def Entries (document : Value) (ms : Members) (items : List Value) : Prop :=
  (∃ root, document = .object root ∧ Members.value? root "layout" = some (.object ms)) ∧
    Members.value? ms "sections" = some (.array items)

theorem sectionsOf_cons (index : Nat) (v : Value) (vs : List Value) :
    sectionsOf index (v :: vs) =
      match Section.ofValue v with
      | .error g => .error (.badSection index g)
      | .ok s => (sectionsOf (index + 1) vs).map (s :: ·) := by
  rw [sectionsOf]
  cases Section.ofValue v with
  | error g => rfl
  | ok s =>
    change (sectionsOf (index + 1) vs >>= fun rest => pure (s :: rest)) = _
    cases sectionsOf (index + 1) vs <;> rfl

/-- Reading stops at the first entry that is no section, and tells its index. -/
theorem sectionsOf_error_iff (index : Nat) (vs : List Value) (f : Layout.Fault) :
    sectionsOf index vs = .error f ↔
      ∃ before v after g, vs = before ++ v :: after ∧
        (∀ u ∈ before, ∃ s, Section.ofValue u = .ok s) ∧ Section.ofValue v = .error g ∧
        f = .badSection (index + before.length) g := by
  induction vs generalizing index with
  | nil => exact iff_of_false nofun fun ⟨_, _, _, _, h, _⟩ => by simp at h
  | cons w vs ih =>
    rw [sectionsOf_cons]
    cases hw : Section.ofValue w with
    | error g =>
      constructor
      · intro h
        cases h
        exact ⟨[], w, vs, g, rfl, List.forall_mem_nil _, hw, rfl⟩
      · intro h
        obtain ⟨before, v, after, g', hsplit, hbefore, hv, rfl⟩ := h
        cases before with
        | nil =>
          obtain ⟨rfl, -⟩ := List.cons.inj hsplit
          cases hw.symm.trans hv
          rfl
        | cons u before =>
          obtain ⟨rfl, -⟩ := List.cons.inj hsplit
          obtain ⟨s, hs⟩ := hbefore w List.mem_cons_self
          cases hw.symm.trans hs
    | ok s =>
      have hrest : (sectionsOf (index + 1) vs).map (s :: ·) = .error f ↔
          sectionsOf (index + 1) vs = .error f := by
        cases sectionsOf (index + 1) vs with
        | error g => exact Iff.rfl
        | ok rest => exact iff_of_false nofun nofun
      rw [hrest, ih]
      constructor
      · intro h
        obtain ⟨before, v, after, g, rfl, hbefore, hv, rfl⟩ := h
        refine ⟨w :: before, v, after, g, rfl, List.forall_mem_cons.mpr ⟨⟨s, hw⟩, hbefore⟩, hv, ?_⟩
        rw [List.length_cons, Nat.add_right_comm, Nat.add_assoc]
      · intro h
        obtain ⟨before, v, after, g, hsplit, hbefore, hv, rfl⟩ := h
        cases before with
        | nil =>
          obtain ⟨rfl, -⟩ := List.cons.inj hsplit
          cases hw.symm.trans hv
        | cons u before =>
          refine ⟨before, v, after, g, (List.cons.inj hsplit).2,
            (List.forall_mem_cons.mp hbefore).2, hv, ?_⟩
          rw [List.length_cons, Nat.add_right_comm, Nat.add_assoc]

/-- Every answer of the reader, with what it says about the document. -/
inductive Answer : Value → Except Layout.Fault (Option Layout) → Prop where
  | notAnObject {v : Value} (other : ∀ root, v ≠ .object root) : Answer v (.error .notAnObject)
  | absent {root : Members} (absent : Members.value? root "layout" = none) :
      Answer (.object root) (.ok none)
  | layoutNotAnObject {root : Members} {w : Value} (present : Members.value? root "layout" = some w)
      (other : ∀ ms, w ≠ .object ms) : Answer (.object root) (.error .layoutNotAnObject)
  | noSections {root ms : Members} (present : Members.value? root "layout" = some (.object ms))
      (absent : Members.value? ms "sections" = none ∨ Members.value? ms "sections" = some .null) :
      Answer (.object root) (.error .noSections)
  | sectionsNotAnArray {root ms : Members} {u : Value}
      (present : Members.value? root "layout" = some (.object ms))
      (sections : Members.value? ms "sections" = some u) (notNull : u ≠ .null)
      (other : ∀ items, u ≠ .array items) : Answer (.object root) (.error .sectionsNotAnArray)
  | layout {v : Value} {ms : Members} {items : List Value} {l : Layout} (entries : Entries v ms items)
      (alignment : l.alignment = Section.alignmentOf? (Members.value? ms "alignment"))
      (all : List.Forall₂ (fun entry s => Section.ofValue entry = .ok s) items l.sections) :
      Answer v (.ok (some l))
  | badSection {v entry : Value} {ms : Members} {before after : List Value} {g : Section.Fault}
      (entries : Entries v ms (before ++ entry :: after)) (sound : ∀ e ∈ before, IsSection e)
      (bad : Section.ofValue entry = .error g) : Answer v (.error (.badSection before.length g))

section Shapes

variable {root ms : Members} {w u : Value}

theorem ofDocument_other (h : ∀ root, w ≠ .object root) : ofDocument w = .error .notAnObject := by
  cases w with
  | object root => exact absurd rfl (h root)
  | _ => rfl

theorem ofDocument_absent (h : Members.value? root "layout" = none) :
    ofDocument (.object root) = .ok none := by
  unfold ofDocument
  simp only [h]
  rfl

theorem ofDocument_layout_other (hlayout : Members.value? root "layout" = some w)
    (h : ∀ ms, w ≠ .object ms) : ofDocument (.object root) = .error .layoutNotAnObject := by
  unfold ofDocument
  simp only [hlayout]
  cases w with
  | object ms => exact absurd rfl (h ms)
  | _ => rfl

variable (hlayout : Members.value? root "layout" = some (.object ms))

include hlayout

theorem ofDocument_noSections
    (h : Members.value? ms "sections" = none ∨ Members.value? ms "sections" = some .null) :
    ofDocument (.object root) = .error .noSections := by
  unfold ofDocument ofValue
  rcases h with h | h <;> simp only [hlayout, h] <;> rfl

theorem ofDocument_sections_other (hsections : Members.value? ms "sections" = some u)
    (hnull : u ≠ .null) (h : ∀ items, u ≠ .array items) :
    ofDocument (.object root) = .error .sectionsNotAnArray := by
  unfold ofDocument ofValue
  simp only [hlayout, hsections]
  cases u with
  | null => exact absurd rfl hnull
  | array items => exact absurd rfl (h items)
  | _ => rfl

end Shapes

theorem ofDocument_entries {v : Value} {ms : Members} {items : List Value}
    (h : Entries v ms items) :
    ofDocument v = (sectionsOf 0 items).map fun sections =>
      some { alignment := Section.alignmentOf? (Members.value? ms "alignment"), sections } := by
  obtain ⟨⟨root, rfl, hlayout⟩, hsections⟩ := h
  unfold ofDocument ofValue
  simp only [hlayout, hsections]
  cases sectionsOf 0 items <;> rfl

theorem answer_of_entries {v : Value} {ms : Members} {items : List Value} (h : Entries v ms items) :
    Answer v (ofDocument v) := by
  rw [ofDocument_entries h]
  cases hsections : sectionsOf 0 items with
  | ok sections => exact .layout h rfl (sectionsOf_ok_iff.mp hsections)
  | error f =>
    obtain ⟨before, entry, after, g, rfl, hbefore, hbad, rfl⟩ :=
      (sectionsOf_error_iff 0 items f).mp hsections
    rw [Nat.zero_add]
    exact .badSection h (fun e he => section_accepts_iff.mp (hbefore e he)) hbad

theorem answer_ofDocument (v : Value) : Answer v (ofDocument v) := by
  by_cases hobject : ∃ root, v = .object root
  · obtain ⟨root, rfl⟩ := hobject
    cases hlayout : Members.value? root "layout" with
    | none =>
      rw [ofDocument_absent hlayout]
      exact .absent hlayout
    | some w =>
      by_cases hw : ∃ ms, w = .object ms
      · obtain ⟨ms, rfl⟩ := hw
        by_cases habsent :
            Members.value? ms "sections" = none ∨ Members.value? ms "sections" = some .null
        · rw [ofDocument_noSections hlayout habsent]
          exact .noSections hlayout habsent
        · rw [not_or] at habsent
          obtain ⟨u, hu⟩ := Option.ne_none_iff_exists'.mp habsent.1
          by_cases harray : ∃ items, u = .array items
          · obtain ⟨items, rfl⟩ := harray
            exact answer_of_entries ⟨⟨root, rfl, hlayout⟩, hu⟩
          · have hnull : u ≠ .null := fun h => habsent.2 (h ▸ hu)
            rw [not_exists] at harray
            rw [ofDocument_sections_other hlayout hu hnull harray]
            exact .sectionsNotAnArray hlayout hu hnull harray
      · rw [not_exists] at hw
        rw [ofDocument_layout_other hlayout hw]
        exact .layoutNotAnObject hlayout hw
  · rw [not_exists] at hobject
    rw [ofDocument_other hobject]
    exact .notAnObject hobject

/-! ### Answers and documents -/

theorem notAnObject_iff {v : Value} :
    ofDocument v = .error .notAnObject ↔ ∀ root, v ≠ .object root := by
  constructor
  · intro h
    have hanswer := answer_ofDocument v
    rw [h] at hanswer
    cases hanswer with
    | notAnObject other => exact other
  · exact ofDocument_other

theorem absent_iff {v : Value} :
    ofDocument v = .ok none ↔ ∃ root, v = .object root ∧ Members.value? root "layout" = none := by
  constructor
  · intro h
    have hanswer := answer_ofDocument v
    rw [h] at hanswer
    cases hanswer with
    | absent absent => exact ⟨_, rfl, absent⟩
  · intro h
    obtain ⟨root, rfl, habsent⟩ := h
    exact ofDocument_absent habsent

theorem layoutNotAnObject_iff {v : Value} :
    ofDocument v = .error .layoutNotAnObject ↔
      ∃ root w, v = .object root ∧ Members.value? root "layout" = some w ∧
        ∀ ms, w ≠ .object ms := by
  constructor
  · intro h
    have hanswer := answer_ofDocument v
    rw [h] at hanswer
    cases hanswer with
    | layoutNotAnObject present other => exact ⟨_, _, rfl, present, other⟩
  · intro h
    obtain ⟨root, w, rfl, hpresent, hother⟩ := h
    exact ofDocument_layout_other hpresent hother

theorem sectionsNotAnArray_iff {v : Value} :
    ofDocument v = .error .sectionsNotAnArray ↔
      ∃ root ms u, v = .object root ∧ Members.value? root "layout" = some (.object ms) ∧
        Members.value? ms "sections" = some u ∧ u ≠ .null ∧ ∀ items, u ≠ .array items := by
  constructor
  · intro h
    have hanswer := answer_ofDocument v
    rw [h] at hanswer
    cases hanswer with
    | sectionsNotAnArray present sections notNull other =>
      exact ⟨_, _, _, rfl, present, sections, notNull, other⟩
  · intro h
    obtain ⟨root, ms, u, rfl, hpresent, hsections, hnull, hother⟩ := h
    exact ofDocument_sections_other hpresent hsections hnull hother

theorem noSections_iff {v : Value} :
    ofDocument v = .error .noSections ↔
      ∃ root ms, v = .object root ∧ Members.value? root "layout" = some (.object ms) ∧
        (Members.value? ms "sections" = none ∨ Members.value? ms "sections" = some .null) := by
  constructor
  · intro h
    have hanswer := answer_ofDocument v
    rw [h] at hanswer
    cases hanswer with
    | noSections present absent => exact ⟨_, _, rfl, present, absent⟩
  · intro h
    obtain ⟨root, ms, rfl, hpresent, habsent⟩ := h
    exact ofDocument_noSections hpresent habsent

theorem layout_iff {v : Value} {l : Layout} :
    ofDocument v = .ok (some l) ↔
      ∃ ms items, Entries v ms items ∧
        l.alignment = Section.alignmentOf? (Members.value? ms "alignment") ∧
        List.Forall₂ (fun entry s => Section.ofValue entry = .ok s) items l.sections := by
  constructor
  · intro h
    have hanswer := answer_ofDocument v
    rw [h] at hanswer
    cases hanswer with
    | layout entries alignment all => exact ⟨_, _, entries, alignment, all⟩
  · intro h
    obtain ⟨ms, items, hentries, halignment, hall⟩ := h
    rw [ofDocument_entries hentries, sectionsOf_ok_iff.mpr hall, ← halignment]
    rfl

theorem accepts_iff {v : Value} :
    (∃ l, ofDocument v = .ok (some l)) ↔
      ∃ ms items, Entries v ms items ∧ ∀ entry ∈ items, IsSection entry := by
  simp only [layout_iff, ← section_accepts_iff, ← exists_forall₂_iff]
  constructor
  · intro h
    obtain ⟨l, ms, items, hentries, -, hall⟩ := h
    exact ⟨ms, items, hentries, _, hall⟩
  · intro h
    obtain ⟨ms, items, hentries, sections, hall⟩ := h
    exact ⟨⟨_, sections⟩, ms, items, hentries, rfl, hall⟩

theorem badSection_iff {v : Value} {i : Nat} :
    (∃ f, ofDocument v = .error (.badSection i f)) ↔
      ∃ ms before entry after, Entries v ms (before ++ entry :: after) ∧ before.length = i ∧
        (∀ e ∈ before, IsSection e) ∧ ¬ IsSection entry := by
  constructor
  · intro h
    obtain ⟨f, hf⟩ := h
    have hanswer := answer_ofDocument v
    rw [hf] at hanswer
    cases hanswer with
    | badSection entries sound bad =>
      refine ⟨_, _, _, _, entries, rfl, sound, fun hentry => ?_⟩
      obtain ⟨s, hs⟩ := section_accepts_iff.mpr hentry
      cases hs.symm.trans bad
  · intro h
    obtain ⟨ms, before, entry, after, hentries, rfl, hsound, hbad⟩ := h
    cases hentry : Section.ofValue entry with
    | ok s => exact absurd (section_accepts_iff.mp ⟨s, hentry⟩) hbad
    | error g =>
      have hsections := (sectionsOf_error_iff 0 _ _).mpr ⟨before, entry, after, g, rfl,
        fun e he => section_accepts_iff.mpr (hsound e he), hentry, rfl⟩
      rw [ofDocument_entries hentries, hsections, Nat.zero_add]
      exact ⟨g, rfl⟩

theorem read?_of_json {text : String} {v : Value} (h : Value.read text = .ok v) :
    read? text = ofDocument v := by
  unfold read?
  rw [h]
  rfl

end Layout

/-- The reader accepts its grammar and nothing else, entry by entry, and each way to miss the grammar
has its own answer. -/
theorem reader_accepts_grammar (text : String) (v : Value) (hjson : Value.read text = .ok v) :
    (Layout.read? text = .error .notAnObject ↔ ∀ root, v ≠ .object root) ∧
    (Layout.read? text = .ok none ↔
      ∃ root, v = .object root ∧ Members.value? root "layout" = none) ∧
    (Layout.read? text = .error .layoutNotAnObject ↔
      ∃ root w, v = .object root ∧ Members.value? root "layout" = some w ∧ ∀ ms, w ≠ .object ms) ∧
    (Layout.read? text = .error .sectionsNotAnArray ↔
      ∃ root ms u, v = .object root ∧ Members.value? root "layout" = some (.object ms) ∧
        Members.value? ms "sections" = some u ∧ u ≠ .null ∧ ∀ items, u ≠ .array items) ∧
    (Layout.read? text = .error .noSections ↔
      ∃ root ms, v = .object root ∧ Members.value? root "layout" = some (.object ms) ∧
        (Members.value? ms "sections" = none ∨ Members.value? ms "sections" = some .null)) ∧
    ((∃ l, Layout.read? text = .ok (some l)) ↔
      ∃ ms items, Layout.Entries v ms items ∧ ∀ entry ∈ items, IsSection entry) ∧
    -- One section for each entry, in order, and read from that entry alone.
    (∀ l, Layout.read? text = .ok (some l) ↔
      ∃ ms items, Layout.Entries v ms items ∧
        l.alignment = Section.alignmentOf? (Members.value? ms "alignment") ∧
        List.Forall₂ (fun entry s => Section.ofValue entry = .ok s) items l.sections) ∧
    (∀ i, (∃ f, Layout.read? text = .error (.badSection i f)) ↔
      ∃ ms before entry after, Layout.Entries v ms (before ++ entry :: after) ∧ before.length = i ∧
        (∀ e ∈ before, IsSection e) ∧ ¬ IsSection entry) ∧
    ∀ entry, (∃ s, Section.ofValue entry = .ok s) ↔ IsSection entry := by
  rw [Layout.read?_of_json hjson]
  exact ⟨Layout.notAnObject_iff, Layout.absent_iff, Layout.layoutNotAnObject_iff,
    Layout.sectionsNotAnArray_iff, Layout.noSections_iff, Layout.accepts_iff,
    fun _ => Layout.layout_iff, fun _ => Layout.badSection_iff, fun _ => section_accepts_iff⟩

set_option maxRecDepth 4000 in
/-- An alignment that is none does no harm to an object. An array may leave fields out, but a number is
no content, so the second entry is the first that is no section. -/
theorem second_entry_is_no_section :
    let a : Value := .object [("type", .text "a"), ("alignment", .integer 7)]
    let b : Value := .array [.text "b", .integer 0]
    IsSection a ∧ ¬ IsSection b ∧ ∃ f,
      Layout.read? ("\x7b\"layout\":\x7b\"sections\":[" ++
        "\x7b\"type\":\"a\",\"alignment\":7\x7d,[\"b\",0],[]]\x7d\x7d") = .error (.badSection 1 f) := by
  intro a b
  let v : Value := .object [("layout", .object [("sections", .array [a, b, .array []])])]
  have ha : IsSection a := .object _ ⟨"a", rfl⟩ (.inl rfl) (.inl rfl) (.inl rfl)
  have hb : ¬ IsSection (.array [.text "b", .integer 0]) := by
    intro h
    cases h with
    | array _ tag content alignment lines style short =>
      rcases content with h | h | ⟨u, hu, s, rfl⟩
      · cases h
      · cases h
      · cases hu
  have hrefused {text : String} (hjson : Value.read text = .ok v) :
      ∃ f, Layout.read? text = .error (.badSection 1 f) := by
    obtain ⟨-, -, -, -, -, -, -, hbad, -⟩ := reader_accepts_grammar text v hjson
    exact (hbad 1).mpr ⟨_, [a], b, [.array []], ⟨⟨_, rfl, rfl⟩, rfl⟩, rfl,
      List.forall_mem_singleton.mpr ha, hb⟩
  exact ⟨ha, hb, hrefused rfl⟩

end Receipt
