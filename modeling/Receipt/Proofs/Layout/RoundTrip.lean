import Receipt.Dialect
import Receipt.Layout.Writer
import Receipt.Proofs.Except
import Receipt.Proofs.Json.Typed

/-!
# Layouts written and read

A layout is read back from its own text exactly as it was, unless a section asks for zero lines: the
reader refuses that section, and the first of several counts. The reader never makes such a section, so
every layout that has been read may be written and read again without a change.
-/

namespace Receipt

open Json

/-! ### Fields -/

/-- A field that is written is read, and one that is left out stays open. -/
theorem optional_map {α : Type} (meaning : Value → Except Mismatch α) (spell : α → Value)
    (hread : ∀ a, meaning (spell a) = .ok a) (hnull : ∀ a, spell a ≠ .null) (o : Option α) :
    Json.optional meaning (o.map spell) = .ok o := by
  cases o with
  | none => rfl
  | some a =>
    rw [Option.map_some]
    unfold Json.optional
    split
    · next heq => cases heq
    · next heq => exact absurd (Option.some.inj heq) (hnull a)
    · next heq =>
      obtain rfl := Option.some.inj heq
      rw [hread]
      rfl

theorem ofValue_alignment (a : Alignment) :
    Words.ofValue Alignment.words (.text a.name) = .ok a := by
  cases a <;> rfl

theorem ofValue_size (s : TextSize) : Words.ofValue TextSize.words (.text s.name) = .ok s := by
  cases s <;> rfl

theorem alignmentOf?_map (a : Option Alignment) :
    Section.alignmentOf? (a.map (.text ·.name)) = a := by
  cases a with
  | none => rfl
  | some a =>
    show (Words.ofValue Alignment.words (.text a.name)).toOption = some a
    rw [ofValue_alignment]
    rfl

/-! ### Sections -/

theorem SectionStyle.ofValue_toValue (s : SectionStyle) :
    SectionStyle.ofValue s.toValue = .ok s := by
  have hbold := optional_map Scalar.boolean.ofValue .boolean
    (fun _ => rfl) (fun _ => nofun) s.bold
  have hsize := optional_map (Words.ofValue TextSize.words)
    (fun size : TextSize => .text size.name) ofValue_size (fun _ => nofun) s.size
  unfold SectionStyle.toValue SectionStyle.ofValue ofFields
  simp only [Members.value?_append, value?_member?, String.reduceEq, ↓reduceIte, Option.none_or,
    Option.or_none, hbold, hsize]
  rfl

/-- A written section is decoded as it was. -/
theorem Section.decode_toValue (s : Section) : Section.decode s.toValue = .ok s := by
  have hcontent := optional_map Scalar.text.ofValue .text
    (fun _ => rfl) (fun _ => nofun) s.content
  have hlines := optional_map Scalar.word32.ofValue
    (fun n : UInt32 => .integer n.toNat) ofValue_word32 (fun _ => nofun) s.lines
  have hstyle := optional_map SectionStyle.ofValue SectionStyle.toValue
    SectionStyle.ofValue_toValue (fun _ => nofun) s.style
  unfold Section.toValue Section.decode ofMembers
  simp only [List.cons_append, Members.value?_cons, Members.value?_append, value?_member?,
    String.reduceEq, ↓reduceIte, Option.none_or, Option.or_none, hcontent, hlines, hstyle,
    alignmentOf?_map]
  rfl

theorem Section.ofValue_toValue (s : Section) :
    Section.ofValue s.toValue = if s.lines = some 0 then .error .noLines else .ok s := by
  unfold Section.ofValue
  rw [Section.decode_toValue]
  show (if s.lines = some 0 then throw Fault.noLines else pure s) = _
  rfl

/-- A section is accepted if it can be decoded and does not ask for zero lines. -/
theorem Section.ofValue_ok_iff {v : Value} {s : Section} :
    Section.ofValue v = .ok s ↔ Section.decode v = .ok s ∧ s.lines ≠ some 0 := by
  unfold Section.ofValue
  rw [bind_eq_ok_iff]
  constructor
  · intro h
    obtain ⟨t, ht, h⟩ := h
    obtain ⟨hlines, h⟩ := refuse_if_eq_ok_iff.mp h
    cases h
    exact ⟨mapError_eq_ok_iff.mp ht, hlines⟩
  · intro h
    exact ⟨s, mapError_eq_ok_iff.mpr h.1, refuse_if_eq_ok_iff.mpr ⟨h.2, rfl⟩⟩

namespace Layout

/-- Written sections are read back up to the first that asks for no lines. -/
theorem sectionsOf_toValue (index : Nat) (sections : List Section) :
    sectionsOf index (sections.map Section.toValue) =
      match sections.findIdx? (·.lines = some 0) with
      | some i => .error (.badSection (index + i) .noLines)
      | none => .ok sections := by
  -- The reader counts from `index`, the search for the first bad section from zero.
  induction sections generalizing index with
  | nil => rfl
  | cons s rest ih =>
    rw [List.map_cons, sectionsOf, Section.ofValue_toValue, List.findIdx?_cons]
    by_cases hzero : s.lines = some 0
    · simp only [hzero]
      rfl
    · simp only [hzero, ↓reduceIte, decide_false, Bool.false_eq_true]
      show (sectionsOf (index + 1) _ >>= fun rest => pure (s :: rest)) = _
      rw [ih]
      cases rest.findIdx? (·.lines = some 0) with
      | none => rfl
      | some i =>
        show Except.error _ = Except.error _
        rw [Nat.add_assoc, Nat.add_comm 1 i]

/-- The sections of an array are those of its values, one by one. -/
theorem sectionsOf_ok_iff {index : Nat} {vs : List Value} {sections : List Section} :
    sectionsOf index vs = .ok sections ↔
      List.Forall₂ (fun v s => Section.ofValue v = .ok s) vs sections := by
  induction vs generalizing index sections with
  | nil =>
    rw [List.forall₂_nil_left_iff]
    constructor
    · intro h
      cases h
      rfl
    · intro h
      rw [h]
      rfl
  | cons v vs ih =>
    rw [sectionsOf, bind_eq_ok_iff, List.forall₂_cons_left_iff]
    constructor
    · intro h
      obtain ⟨s, hs, h⟩ := h
      obtain ⟨rest, hrest, h⟩ := bind_eq_ok_iff.mp h
      cases h
      exact ⟨s, rest, mapError_eq_ok_iff.mp hs, ih.mp hrest, rfl⟩
    · intro h
      obtain ⟨s, rest, hs, hrest, rfl⟩ := h
      exact ⟨s, mapError_eq_ok_iff.mpr hs, bind_eq_ok_iff.mpr ⟨rest, ih.mpr hrest, rfl⟩⟩

/-! ### Whole layouts -/

theorem ofDocument_toDocument (l : Layout) :
    ofDocument l.toDocument =
      match l.sections.findIdx? (·.lines = some 0) with
      | some i => .error (.badSection i .noLines)
      | none => .ok (some l) := by
  have hvalue : ofValue l.toValue =
      (sectionsOf 0 (l.sections.map Section.toValue) >>= fun sections =>
        pure { alignment := l.alignment, sections }) := by
    unfold toValue ofValue
    simp only [Members.value?_cons, Members.value?_append, value?_member?, Members.value?_nil,
      String.reduceEq, ↓reduceIte, Option.none_or, Option.or_none, alignmentOf?_map]
  show some <$> ofValue l.toValue = _
  rw [hvalue, sectionsOf_toValue]
  cases l.sections.findIdx? (·.lines = some 0) with
  | none => rfl
  | some i =>
    show Except.error _ = Except.error _
    rw [Nat.zero_add]

end Layout

/-! ### Texts -/

/-- A field that may be left out is legible if what it holds is. -/
theorem legible_member? {α : Type} {spell : α → Value} {depth : Nat}
    (h : ∀ a, (spell a).Legible depth) (key : String) (o : Option α) :
    ∀ m ∈ member? key (o.map spell), m.2.Legible depth := by
  intro m hm
  obtain ⟨a, -, ha⟩ := Option.map_eq_some_iff.mp (mem_member? hm)
  rw [← ha]
  exact h a

theorem legible_text (depth : Nat) (s : String) : (Value.text s).Legible depth :=
  .scalar depth (.text s)

theorem SectionStyle.legible_toValue (depth : Nat) (s : SectionStyle) :
    s.toValue.Legible (depth + 1) := by
  refine .object ?_
  rw [List.forall_mem_append]
  exact ⟨legible_member? (fun b => .scalar depth (.boolean b)) _ _,
    legible_member? (fun size : TextSize => legible_text depth size.name) _ _⟩

theorem Section.legible_toValue (depth : Nat) (s : Section) : s.toValue.Legible (depth + 2) := by
  have hlines : ∀ n : UInt32, (Value.integer n.toNat).Legible (depth + 1) := by
    intro n
    have hlow : -(Nat.pow 2 63 : Nat) ≤ (n.toNat : Int) := by omega
    have hhigh : n.toNat < UInt64.size := Nat.lt_trans n.toNat_lt (by decide)
    exact .scalar _ (.integer ⟨hlow, Int.ofNat_lt.mpr hhigh⟩)
  refine .object ?_
  simp only [List.cons_append, List.forall_mem_cons, List.forall_mem_append]
  exact ⟨legible_text _ s.tag, ⟨⟨legible_member? (legible_text _) _ _,
    legible_member? (fun a : Alignment => legible_text _ a.name) _ _⟩, legible_member? hlines _ _⟩,
    legible_member? (SectionStyle.legible_toValue depth) _ _⟩

namespace Layout

/-- At most five brackets of a written layout are open at a time. -/
theorem legible_toDocument (depth : Nat) (l : Layout) : l.toDocument.Legible (depth + 5) := by
  have hsections : (Value.array (l.sections.map Section.toValue)).Legible (depth + 3) := by
    refine .array ?_
    intro v hv
    obtain ⟨s, -, rfl⟩ := List.mem_map.mp hv
    exact Section.legible_toValue depth s
  have hlayout : l.toValue.Legible (depth + 4) := by
    refine .object ?_
    rw [List.forall_mem_append, List.forall_mem_singleton]
    exact ⟨legible_member? (fun a : Alignment => legible_text _ a.name) _ _, hsections⟩
  exact .object (List.forall_mem_singleton.mpr hlayout)

theorem read?_write (l : Layout) :
    read? l.write =
      match l.sections.findIdx? (·.lines = some 0) with
      | some i => .error (.badSection i .noLines)
      | none => .ok (some l) := by
  unfold read? write
  rw [read_pretty (legible_toDocument 122 l)]
  exact ofDocument_toDocument l

theorem lines_ne_zero_of_sectionsOf {index : Nat} {vs : List Value} {sections : List Section}
    (h : sectionsOf index vs = .ok sections) : ∀ s ∈ sections, s.lines ≠ some 0 := by
  have hall := sectionsOf_ok_iff.mp h
  clear h
  induction hall with
  | nil => exact List.forall_mem_nil _
  | cons hs _ ih => exact List.forall_mem_cons.mpr ⟨(Section.ofValue_ok_iff.mp hs).2, ih⟩

theorem lines_ne_zero_of_ofValue {v : Value} {l : Layout} (h : ofValue v = .ok l) :
    ∀ s ∈ l.sections, s.lines ≠ some 0 := by
  cases v with
  | object members =>
    unfold ofValue at h
    dsimp only at h
    split at h
    · cases h
    · cases h
    · obtain ⟨sections, hsections, hl⟩ := bind_eq_ok_iff.mp h
      cases hl
      exact lines_ne_zero_of_sectionsOf hsections
    · cases h
  | _ => cases h

/-- No layout that has been read has a section of zero lines. -/
theorem lines_ne_zero_of_read {text : String} {l : Layout} (h : read text = .ok l) :
    ∀ s ∈ l.sections, s.lines ≠ some 0 := by
  unfold read read? at h
  obtain ⟨found, hfound, hl⟩ := bind_eq_ok_iff.mp h
  obtain ⟨v, -, hv⟩ := bind_eq_ok_iff.mp hfound
  cases hl
  cases v with
  | object members =>
    unfold ofDocument at hv
    dsimp only at hv
    split at hv
    · cases hv
      exact List.forall_mem_singleton.mpr nofun
    · next w _ =>
      cases hw : ofValue w with
      | error f =>
        rw [hw] at hv
        cases hv
      | ok l =>
        rw [hw] at hv
        cases hv
        exact lines_ne_zero_of_ofValue hw
  | _ => cases hv

end Layout

/-! ### The first section of zero lines -/

theorem exists_first_zero {sections : List Section} (h : ∃ s ∈ sections, s.lines = some 0) :
    ∃ before s after, sections = before ++ s :: after ∧ (∀ t ∈ before, t.lines ≠ some 0) ∧
      s.lines = some 0 := by
  obtain ⟨t, ht, hzero⟩ := h
  have hsome : (sections.find? (·.lines = some 0)).isSome = true :=
    List.find?_isSome.mpr ⟨t, ht, decide_eq_true hzero⟩
  obtain ⟨s, hs⟩ := Option.isSome_iff_exists.mp hsome
  obtain ⟨hs, before, after, hsplit, hbefore⟩ := List.find?_eq_some_iff_append.mp hs
  exact ⟨before, s, after, hsplit, fun t ht => by simpa using hbefore t ht, of_decide_eq_true hs⟩

theorem findIdx?_first_zero {before after : List Section} {s : Section}
    (hbefore : ∀ t ∈ before, t.lines ≠ some 0) (hs : s.lines = some 0) :
    (before ++ s :: after).findIdx? (·.lines = some 0) = some before.length := by
  have hnone : before.findIdx? (·.lines = some 0) = none := by
    rw [List.findIdx?_eq_none_iff]
    exact fun t ht => decide_eq_false (hbefore t ht)
  rw [List.findIdx?_append, hnone, List.findIdx?_cons, decide_eq_true hs]
  simp

/-- A layout without sections of zero lines is read back from its text unchanged, and prints the same
either way. Another is refused, at the first such section. What was read can be written and read. -/
theorem layout_round_trip (l : Layout) :
    ((∀ s ∈ l.sections, s.lines ≠ some 0) →
      Layout.read l.write = .ok l ∧
        ∀ (d : Dialect) (order : Option Order), d.receipt order l.write = d.receiptOf order l) ∧
    ((∃ s ∈ l.sections, s.lines = some 0) →
      ∃ before s after, l.sections = before ++ s :: after ∧ (∀ t ∈ before, t.lines ≠ some 0) ∧
        s.lines = some 0 ∧
        Layout.read l.write = .error (.badSection before.length .noLines)) ∧
    ∀ text, Layout.read text = .ok l → Layout.read l.write = .ok l := by
  have hback : (∀ s ∈ l.sections, s.lines ≠ some 0) → Layout.read? l.write = .ok (some l) := by
    intro h
    have hnone : l.sections.findIdx? (·.lines = some 0) = none := by
      rw [List.findIdx?_eq_none_iff]
      exact fun s hs => decide_eq_false (h s hs)
    rw [Layout.read?_write, hnone]
  have hread : (∀ s ∈ l.sections, s.lines ≠ some 0) → Layout.read l.write = .ok l := by
    intro h
    unfold Layout.read
    rw [hback h]
    rfl
  refine ⟨fun h => ⟨hread h, fun d order => ?_⟩, fun h => ?_, fun text htext => ?_⟩
  · unfold Dialect.receipt Dialect.receiptOf Dialect.body
    rw [hback h]
    rfl
  · obtain ⟨before, s, after, hsplit, hbefore, hs⟩ := exists_first_zero h
    refine ⟨before, s, after, hsplit, hbefore, hs, ?_⟩
    unfold Layout.read
    rw [Layout.read?_write, hsplit, findIdx?_first_zero hbefore hs]
    rfl
  · exact hread (Layout.lines_ne_zero_of_read htext)

/-- Quotes, controls, a character beyond `U+FFFF` and an empty style come back, a document without a
layout can be written, and the first of two empty spacers is refused. -/
theorem empty_style_comes_back :
    let l : Layout := {
      alignment := some .center
      sections := [
        { tag := "\"", content := some "\\\x01\n😀", lines := some 4294967295, style := some {} }] }
    let spacers : Layout := { sections := [{ tag := "text" }, .spacer 0, .spacer 0] }
    (∀ s ∈ l.sections, s.lines ≠ some 0) ∧ Layout.read l.write = .ok l ∧
      (∃ s ∈ spacers.sections, s.lines = some 0) ∧
      Layout.read spacers.write = .error (.badSection 1 .noLines) ∧
      Layout.read "{}" = .ok .fallback ∧
      Layout.read Layout.fallback.write = .ok .fallback := by
  intro l spacers
  have hl : ∀ s ∈ l.sections, s.lines ≠ some 0 := by decide
  have hspacers : ∃ s ∈ spacers.sections, s.lines = some 0 := by decide
  have hempty : Layout.read "{}" = .ok .fallback := by rfl
  obtain ⟨before, s, after, hsplit, hbefore, hs, hread⟩ := (layout_round_trip spacers).2.1 hspacers
  have hindex : before.length = 1 := by
    match before, hsplit, hbefore with
    | [], hsplit, _ =>
      cases hsplit
      cases hs
    | [t], _, _ => rfl
    | t :: u :: before, hsplit, hbefore =>
      obtain ⟨-, htail⟩ := List.cons.inj hsplit
      obtain ⟨rfl, -⟩ := List.cons.inj htail
      exact absurd rfl (hbefore (.spacer 0) (by simp))
  rw [hindex] at hread
  exact ⟨hl, ((layout_round_trip l).1 hl).1, hspacers, hread, hempty,
    (layout_round_trip .fallback).2.2 "{}" hempty⟩

end Receipt
