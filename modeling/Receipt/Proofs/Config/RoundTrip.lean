import Receipt.Config
import Receipt.Proofs.Except
import Receipt.Proofs.Json.Forms
import Receipt.Proofs.Json.Typed
import Receipt.Proofs.TagMap

/-!
# Configurations written and read

A configuration is read back from its own text exactly as it was, without blanks or over several lines.
Nothing is asked of it: its tags may be any texts, also the names of options, and its rules any rules.
The reader goes through the members in the order in which they were written; a rule field by field,
the section types tag by tag, and the options once all members have been read.
-/

namespace Receipt

open Json

/-! ### Rules -/

namespace Rule

/-- A field is taken if its value is; the fields behind it are taken into the rule with that value. -/
theorem takes_field {f : Form} {depth : Nat} {α : Type} {name : String} {reader : Nat → Reader α}
    {set : Rule → α → Rule}
    (hfield : record.fields.find? (·.name == name) = some (field name reader set))
    {seen : List String} (hseen : name ∉ seen) {rule : Rule} {v : Value} {a : α}
    (hread : Reads (reader depth) (f.gap ++ f.inner.write v) a) {l : List (String × List Char)}
    {last : List String × Rule}
    (more : Takes (record.member depth) (name :: seen, set rule a) l last) :
    Takes (record.member depth) (seen, rule) (f.member (name, v) :: l) last :=
  .cons (Record.reads_member hfield hseen (hread.map (set rule))) more

section Values

variable {f : Form} {blank : List Char} (hblank : Blank blank)

include hblank

theorem reads_boolean (b : Bool) : Reads Scalar.boolean.read (blank ++ f.write (.boolean b)) b := by
  rw [f.write_simple (.boolean b)]
  exact reads_scalar hblank (.boolean b) rfl

theorem reads_name {α : Type} {words : Words α} {word : String} {a : α}
    (h : words.meaning word = .ok a) (depth : Nat) :
    Reads (Words.read words depth) (blank ++ f.write (.text word)) a := by
  rw [f.write_simple (.text word)]
  exact reads_word hblank h depth

/-- A value that may be missing is written as null or as a text. -/
theorem reads_orNull {α : Type} {reader : Reader α} {spell : α → String}
    (h : ∀ a, Reads reader (writeText (spell a)) a) (o : Option α) :
    Reads (readOption reader) (blank ++ f.write (orNull (o.map fun a => .text (spell a)))) o := by
  cases o with
  | none =>
    rw [Option.map_none, orNull, Option.getD_none, f.write_simple .null]
    exact reads_null hblank reader
  | some a =>
    rw [Option.map_some, orNull, Option.getD_some, f.write_simple (.text _)]
    exact reads_some hblank (h a)

end Values

/-- The members of a written rule. -/
def members (r : Rule) : Members := [
  ("kind", .text r.kind.name),
  ("alignment", orNull (r.alignment.map (.text ·.name))),
  ("content", orNull (r.content.map .text)),
  ("emphasis", .text r.emphasis.name),
  ("size", .text r.size.name),
  ("multiline", .boolean r.multiline),
  ("binding", orNull (r.binding.map (.text ·.name)))]

theorem toValue_eq (r : Rule) : r.toValue = .object r.members := rfl

theorem takes_members (f : Form) (depth : Nat) (r : Rule) :
    ∃ seen, Takes (record.member depth) ([], record.blank) (r.members.map f.member) (seen, r) := by
  have hgap := f.blank_gap
  have hkind : Kind.words.meaning r.kind.name = .ok r.kind := by
    cases r.kind <;> rfl
  have halignment : ∀ a : Alignment, Words.meaning Alignment.words a.name = .ok a := by
    intro a
    cases a <;> rfl
  have hemphasis : Emphasis.words.meaning r.emphasis.name = .ok r.emphasis := by
    cases r.emphasis <;> rfl
  have hsize : Words.meaning TextSize.words r.size.name = .ok r.size := by
    cases r.size <;> rfl
  have hpart : ∀ part : Order.Part, Words.meaning Order.Part.words part.name = .ok part := by
    intro part
    cases part <;> rfl
  apply Exists.intro
  refine takes_field rfl (by decide) (reads_name hgap hkind depth) ?_
  refine takes_field rfl (by decide)
    (reads_orNull hgap (fun a => reads_word blank_nil (halignment a) depth) r.alignment) ?_
  refine takes_field rfl (by decide)
    (reads_orNull hgap (fun s => reads_scalar blank_nil (.text s) rfl) r.content) ?_
  refine takes_field rfl (by decide) (reads_name hgap hemphasis depth) ?_
  refine takes_field rfl (by decide) (reads_name hgap hsize depth) ?_
  refine takes_field rfl (by decide) (reads_boolean hgap r.multiline) ?_
  refine takes_field rfl (by decide)
    (reads_orNull hgap (fun part => reads_word blank_nil (hpart part) depth) r.binding) ?_
  exact .nil _

/-- A written rule is taken as it was. -/
theorem reads_toValue (f : Form) {blank : List Char} (hblank : Blank blank) (depth : Nat) (r : Rule) :
    Reads (record.read (depth + 1)) (blank ++ f.write r.toValue) r := by
  have hoptional : ∀ field ∈ record.fields, field.required = false := by
    simp [record, field]
  obtain ⟨tail, htail, hwrite⟩ := f.write_object r.members
  rw [toValue_eq, hwrite]
  exact Record.reads_object hblank hoptional f.blank_lead htail (r.takes_members f depth)

end Rule

namespace Config

/-! ### Section types -/

/-- The members of written section types, tag by tag. -/
def typeMembers (l : List (String × Rule)) : Members :=
  l.map fun (tag, rule) => (tag, rule.toValue)

/-- Each section type is put into those read before. -/
theorem takes_types (f : Form) (depth : Nat) (l : List (String × Rule)) (types : TagMap Rule) :
    Takes (readSectionTypes.entry (depth + 1)) types ((typeMembers l).map f.member)
      (types.insertAll l) := by
  induction l generalizing types with
  | nil => exact .nil types
  | cons e l ih =>
    obtain ⟨tag, rule⟩ := e
    have hrule := Rule.reads_toValue f.inner f.blank_gap depth rule
    exact .cons (hrule.behindColon.map (types.insert tag)) (ih (types.insert tag rule))

theorem reads_types (f : Form) {blank : List Char} (hblank : Blank blank) (depth : Nat)
    (types : TagMap Rule) :
    Reads (readSectionTypes (depth + 2)) (blank ++ f.write (.object (typeMembers types.entries)))
      types := by
  intro rest hrest
  obtain ⟨tail, htail, hwrite⟩ := f.write_object (typeMembers types.entries)
  have htakes := takes_types f depth types.entries ∅
  rw [TagMap.insertAll_entries] at htakes
  rw [hwrite]
  unfold readSectionTypes
  rw [skipSpace_open hblank (by decide)]
  exact reads_members f.blank_lead htail htakes rest hrest

/-! ### Options -/

def optionMembers (o : Options) : Members := [
  ("auto_feed", .boolean o.autoFeed),
  ("placeholders", .boolean o.placeholders),
  ("unknown_sections", .text o.unknownSections.name),
  ("line_width", .integer o.lineWidth.toNat)]

theorem optionsOf_cons {key : String} {set : Value → Options → Except Mismatch Options}
    (hkey : option? key = some set) {seen : List String} (hseen : key ∉ seen) {v : Value}
    {o o' : Options} (hset : set v o = .ok o') {ms : Members} :
    optionsOf seen o ((key, v) :: ms) = optionsOf (key :: seen) o' ms := by
  unfold optionsOf
  simp only [hkey, hseen, ↓reduceIte]
  show (set v o >>= fun o' => optionsOf (key :: seen) o' ms) = _
  rw [hset]
  cases ms <;> rfl

/-- The options that are written say everything about the options. -/
theorem optionsOf_optionMembers (o : Options) : optionsOf [] {} (optionMembers o) = .ok o := by
  have hpolicy : ∀ (b : Options) (p : UnknownPolicy),
      (do pure { b with unknownSections := ← policyOf (.text p.name) } : Except Mismatch Options) =
        .ok { b with unknownSections := p } := by
    intro b p
    cases p <;> rfl
  have hwidth : ∀ (b : Options) (n : UInt64),
      (do pure { b with lineWidth := ← Scalar.word64.ofValue (.integer n.toNat) } :
        Except Mismatch Options) = .ok { b with lineWidth := n } := by
    intro b n
    rw [ofValue_word64]
    rfl
  -- One option at a time; those that have not been read yet stand at their defaults.
  calc optionsOf [] {} (optionMembers o)
    _ = optionsOf ["auto_feed"] { autoFeed := o.autoFeed } ((optionMembers o).drop 1) :=
      optionsOf_cons rfl (by decide) rfl
    _ = optionsOf ["placeholders", "auto_feed"]
        { autoFeed := o.autoFeed, placeholders := o.placeholders } ((optionMembers o).drop 2) :=
      optionsOf_cons rfl (by decide) rfl
    _ = optionsOf ["unknown_sections", "placeholders", "auto_feed"] { o with lineWidth := 32 }
        ((optionMembers o).drop 3) := by
      apply optionsOf_cons rfl (by decide)
      exact hpolicy _ o.unknownSections
    _ = optionsOf ["line_width", "unknown_sections", "placeholders", "auto_feed"] o [] := by
      apply optionsOf_cons rfl (by decide)
      exact hwidth { o with lineWidth := 32 } o.lineWidth
    _ = .ok o := rfl

theorem simple_optionMembers (o : Options) :
    ∀ m ∈ optionMembers o, m.1 ≠ "section_types" ∧ m.2.Simple := by
  have hlow : -(Nat.pow 2 63 : Nat) ≤ (o.lineWidth.toNat : Int) := by omega
  have hwidth : Fits o.lineWidth.toNat := ⟨hlow, Int.ofNat_lt.mpr o.lineWidth.toNat_lt_size⟩
  simp only [optionMembers, List.forall_mem_cons]
  exact ⟨⟨by decide, .boolean _⟩, ⟨by decide, .boolean _⟩, ⟨by decide, .text _⟩,
    ⟨by decide, .integer hwidth⟩, List.forall_mem_nil _⟩

/-- Members other than the section types are kept, the last in front. -/
theorem takes_others (f : Form) (depth : Nat) {ms : Members}
    (h : ∀ m ∈ ms, m.1 ≠ "section_types" ∧ m.2.Simple) (draft : Draft) :
    Takes (readMember depth) draft (ms.map f.member)
      { draft with others := ms.reverse ++ draft.others } := by
  induction ms generalizing draft with
  | nil => exact .nil draft
  | cons m ms ih =>
    obtain ⟨key, v⟩ := m
    obtain ⟨⟨hkey, hv⟩, hrest⟩ := List.forall_mem_cons.mp h
    change key ≠ "section_types" at hkey
    have hvalue : Reads (readValue depth) (f.gap ++ f.inner.write v) v := by
      rw [f.inner.write_simple hv]
      exact reads_value f.blank_gap hv
    have hstep : Reads (readMember depth key draft) (':' :: (f.gap ++ f.inner.write v))
        { draft with others := (key, v) :: draft.others } := by
      unfold readMember
      simp only [hkey, ↓reduceIte]
      exact hvalue.behindColon.map fun v => { draft with others := (key, v) :: draft.others }
    have hmore := ih hrest { draft with others := (key, v) :: draft.others }
    rw [List.reverse_cons, List.append_assoc, List.singleton_append]
    exact .cons hstep hmore

/-- The section types are put where there were none. -/
theorem reads_member_types {depth : Nat} {draft : Draft} (hnone : draft.sectionTypes = none)
    {text : List Char} {types : TagMap Rule} (h : Reads (readSectionTypes depth) text types) :
    Reads (readMember depth "section_types" draft) (':' :: text)
      { draft with sectionTypes := some types } := by
  unfold readMember
  simp only [↓reduceIte, hnone]
  exact h.behindColon.map fun types => { draft with sectionTypes := some types }

/-! ### Whole configurations -/

/-- The members of a written configuration. -/
def members (c : Config) : Members :=
  optionMembers c.options ++ [("section_types", .object (typeMembers c.sectionTypes.entries))]

theorem toValue_eq (c : Config) : c.toValue = .object c.members := rfl

theorem takes_members (f : Form) (depth : Nat) (c : Config) :
    Takes (readMember (depth + 2)) {} (c.members.map f.member)
      { sectionTypes := some c.sectionTypes, others := (optionMembers c.options).reverse } := by
  have hothers := takes_others f (depth + 2) (simple_optionMembers c.options) {}
  have htypes := reads_types f.inner f.blank_gap depth c.sectionTypes
  rw [List.append_nil] at hothers
  unfold members
  rw [List.map_append]
  exact hothers.append (.cons (reads_member_types rfl htypes) (.nil _))

theorem reads_toValue (f : Form) (depth : Nat) (c : Config) :
    Reads (reader (depth + 3)) (f.write c.toValue) c := by
  intro rest hrest
  obtain ⟨tail, htail, hwrite⟩ := f.write_object c.members
  have hmembers := reads_members f.blank_lead htail (takes_members f depth c) rest hrest
  have hoptions : optionsOf [] {} (optionMembers c.options).reverse.reverse = .ok c.options := by
    rw [List.reverse_reverse, optionsOf_optionMembers]
  rw [toValue_eq, hwrite, List.cons_append]
  unfold reader
  rw [skipSpace_cons (by decide)]
  show (readObject (readMember (depth + 2)) {} _ >>= fun p =>
    settle (optionsOf [] {} p.1.others.reverse) p.2 >>= fun q =>
      pure (Config.mk q.1 (p.1.sectionTypes.getD ∅), q.2)) = _
  rw [hmembers]
  show (settle (optionsOf [] {} (optionMembers c.options).reverse.reverse) rest >>= fun q =>
    pure (Config.mk q.1 c.sectionTypes, q.2)) = _
  rw [hoptions]
  rfl

/-- A configuration is what its own text says, in either form. -/
theorem read_toValue (f : Form) (c : Config) : read (String.ofList (f.write c.toValue)) = .ok c := by
  have hread : reader maxDepth (f.write c.toValue ++ []) = .ok (c, []) :=
    reads_toValue f 124 c [] endsNumber_nil
  rw [List.append_nil] at hread
  unfold read readWhole
  dsimp only
  rw [String.toList_ofList, hread]
  rfl

end Config

/-- Every configuration is read back from its own text unchanged, and what has been read from a text
can be written and read again. -/
theorem configuration_round_trip :
    (∀ c : Config, Config.read c.write = .ok c ∧ Config.read c.toValue.pretty = .ok c) ∧
    ∀ text, (Config.read text >>= fun c => Config.read c.write) = Config.read text := by
  have hback : ∀ c : Config, Config.read c.write = .ok c := Config.read_toValue .compact
  refine ⟨fun c => ⟨hback c, Config.read_toValue (.pretty 0) c⟩, fun text => ?_⟩
  cases Config.read text with
  | error e => rfl
  | ok c => exact bind_eq_ok_iff.mpr ⟨c, rfl, hback c⟩

end Receipt
