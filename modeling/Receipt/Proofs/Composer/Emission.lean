import Receipt.Composer

/-!
# What one section contributes

A composer holds an alignment register and the primitives recorded so far. Taking a section reads
neither: what the section adds and the fault that it meets depend on the section, the dialect and the
order alone. `push_eq` says so for one section, `compose_eq_ok_iff` and `compose_eq_error_iff` for a
whole layout. Which sections meet a fault is the subject of `Receipt.Proofs.Composer.FirstFault`.
-/

namespace Receipt.Composer

/-- The primitives that a section adds, its fault set aside. -/
def emission (d : Dialect) (order : Option Order) (s : Section) : Program :=
  match d.vocabulary.get? s.tag with
  | none => []
  | some rule =>
    match rule.kind with
    | .spacer => feedOps (s.lines.getD 1)
    | .text =>
      .align (alignmentOf s rule) ::
        match textOf d.options order s rule with
        | .ok text => textOps d.options rule (styleOf s rule) text
        | .error _ => []

/-- The fault that a section meets, if it meets one. -/
def fault? (d : Dialect) (order : Option Order) (s : Section) : Option Fault :=
  match d.vocabulary.get? s.tag with
  | none =>
    match d.options.unknownSections with
    | .skip => none
    | .error => some (.unknownType s.tag)
  | some rule =>
    match rule.kind with
    | .spacer => none
    | .text =>
      match textOf d.options order s rule with
      | .ok _ => none
      | .error f => some (.order f)

/-- A composer after some more primitives; its register follows the alignments among them. -/
def took (c : Composer) (ops : Program) : Composer :=
  { c with alignment := ops.register c.alignment, program := c.program ++ ops }

@[simp] theorem took_nil (c : Composer) : c.took [] = c := by
  simp [took]

@[simp] theorem took_took (c : Composer) (p q : Program) : (c.took p).took q = c.took (p ++ q) := by
  simp [took]

/-! ### Primitives that leave the register alone -/

theorem register_eq_of_no_align {p : Program} (h : ∀ a, Op.align a ∉ p) (before : Alignment) :
    p.register before = before := by
  induction p with
  | nil => rfl
  | cons op p ih =>
    have hp : ∀ a, Op.align a ∉ p := fun a ha => h a (List.mem_cons_of_mem _ ha)
    cases op with
    | align a => exact absurd List.mem_cons_self (h a)
    | text content style => exact ih hp
    | feed lines => exact ih hp
    | cut => exact ih hp

/-- A text becomes lines in its style and single feeds. -/
theorem mem_textOps {o : Options} {rule : Rule} {style : Option TextStyle} {text : String} {op : Op}
    (h : op ∈ textOps o rule style text) : (∃ line, op = .text line style) ∨ op = .feed 1 := by
  unfold textOps at h
  split at h
  · obtain ⟨line, _, hop⟩ := List.mem_flatMap.mp h
    simp only [List.mem_cons, List.not_mem_nil, or_false] at hop
    exact hop.imp_left fun he => ⟨line, he⟩
  · rcases List.mem_cons.mp h with he | hfeed
    · exact .inl ⟨text, he⟩
    · split at hfeed
      · exact .inr (List.mem_singleton.mp hfeed)
      · exact absurd hfeed List.not_mem_nil

/-- A spacer becomes feeds, none of them of zero lines. -/
theorem mem_feedOps {lines : UInt32} {op : Op} (h : op ∈ feedOps lines) :
    ∃ n, n ≠ 0 ∧ op = .feed n := by
  by_cases hnone : lines = 0
  · rw [hnone, feedOps_zero] at h
    exact absurd h List.not_mem_nil
  · rw [feedOps_of_ne_zero hnone] at h
    rcases List.mem_cons.mp h with hnext | hrest
    · refine ⟨_, fun hzero => ?_, hnext⟩
      have hfed := one_le_toNat_nextFeed hnone
      rw [hzero] at hfed
      exact absurd hfed (by decide)
    · exact mem_feedOps hrest
termination_by lines.toNat
decreasing_by exact toNat_behindFeed_lt hnone

theorem register_textOps (o : Options) (rule : Rule) (style : Option TextStyle) (text : String)
    (before : Alignment) : Program.register (textOps o rule style text) before = before := by
  refine register_eq_of_no_align (fun a ha => ?_) before
  rcases mem_textOps ha with ⟨line, he⟩ | he <;> cases he

theorem register_feedOps (lines : UInt32) (before : Alignment) :
    Program.register (feedOps lines) before = before := by
  refine register_eq_of_no_align (fun a ha => ?_) before
  obtain ⟨n, _, he⟩ := mem_feedOps ha
  cases he

/-! ### One section, many sections -/

/-- Taking a section appends its emission, whatever was recorded before. -/
theorem push_eq (c : Composer) (s : Section) :
    c.push s = (c.took (emission c.dialect c.order s), fault? c.dialect c.order s) := by
  unfold push emission fault?
  cases c.dialect.vocabulary.get? s.tag with
  | none => cases c.dialect.options.unknownSections <;> simp
  | some rule =>
    cases hkind : rule.kind with
    | spacer => simp [hkind, took, record, register_feedOps]
    | text =>
      simp only [hkind, pushText, setAlignment, record]
      cases textOf c.dialect.options c.order s rule with
      | ok text =>
        have hreg : Program.register (.align (alignmentOf s rule) ::
            textOps c.dialect.options rule (styleOf s rule) text) c.alignment =
            alignmentOf s rule := register_textOps _ _ _ _ _
        simp [took, hreg]
      | error f => simp [took, Program.register, Op.register]

theorem pushAll_eq (c : Composer) (sections : List Section) :
    c.pushAll sections =
      match sections.findSome? (fault? c.dialect c.order) with
      | some f => .error f
      | none => .ok (c.took (sections.flatMap (emission c.dialect c.order))) := by
  induction sections generalizing c with
  | nil => simp [pushAll]
  | cons s rest ih =>
    rw [pushAll, push_eq, List.findSome?_cons]
    cases fault? c.dialect c.order s with
    | some f => rfl
    | none =>
      dsimp only
      rw [ih]
      simp only [took_took, List.flatMap_cons]
      rfl

theorem compose_eq (d : Dialect) (order : Option Order) (sections : List Section) :
    d.compose order sections =
      match sections.findSome? (fault? d order) with
      | some f => .error f
      | none => .ok (sections.flatMap (emission d order)) := by
  unfold Dialect.compose
  rw [pushAll_eq]
  dsimp only
  cases sections.findSome? (fault? d order) <;> rfl

/-- A layout is composed if no section of it meets a fault; the emissions then stand in its order. -/
theorem compose_eq_ok_iff (d : Dialect) (order : Option Order) (sections : List Section)
    (p : Program) :
    d.compose order sections = .ok p ↔
      (∀ s ∈ sections, fault? d order s = none) ∧ p = sections.flatMap (emission d order) := by
  rw [compose_eq]
  cases hf : sections.findSome? (fault? d order) with
  | some f =>
    have hsome : ¬ ∀ s ∈ sections, fault? d order s = none := by
      rw [← List.findSome?_eq_none_iff, hf]
      exact Option.some_ne_none f
    exact iff_of_false nofun fun h => hsome h.1
  | none =>
    have hnone := List.findSome?_eq_none_iff.mp hf
    constructor
    · intro h
      cases h
      exact ⟨hnone, rfl⟩
    · intro h
      rw [h.2]

/-- A layout fails by the fault of the first section that meets one. -/
theorem compose_eq_error_iff (d : Dialect) (order : Option Order) (sections : List Section)
    (f : Fault) :
    d.compose order sections = .error f ↔
      ∃ before s after, sections = before ++ s :: after ∧ fault? d order s = some f ∧
        ∀ t ∈ before, fault? d order t = none := by
  rw [← List.findSome?_eq_some_iff, compose_eq]
  cases sections.findSome? (fault? d order) with
  | some g =>
    constructor
    · intro h
      cases h
      rfl
    · intro h
      cases h
      rfl
  | none => exact iff_of_false nofun nofun

end Receipt.Composer
