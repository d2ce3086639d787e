import Mathlib.Data.List.Forall2
import Receipt.Proofs.Composer.Emission

/-!
# Layouts in pieces

The composer is a loop over a register and a growing program. Since a section reads neither, a layout
may be cut anywhere: the pieces compose on their own and their programs stand one behind the other. The
same holds of sections that are pushed one by one into a composer that is already under way.
-/

namespace Receipt.Composer

/-- The composer after sections that are pushed one by one, each whatever became of those before. -/
def pushEach (c : Composer) (sections : List Section) : Composer :=
  sections.foldl (fun c s => (c.push s).1) c

theorem pushEach_eq (c : Composer) (sections : List Section) :
    c.pushEach sections = c.took (sections.flatMap (emission c.dialect c.order)) := by
  unfold pushEach
  induction sections generalizing c with
  | nil => simp
  | cons s rest ih =>
    rw [List.foldl_cons, push_eq, ih, List.flatMap_cons, ← took_took]
    rfl

@[simp] theorem dialect_pushEach (c : Composer) (sections : List Section) :
    (c.pushEach sections).dialect = c.dialect := by
  rw [pushEach_eq]
  rfl

@[simp] theorem order_pushEach (c : Composer) (sections : List Section) :
    (c.pushEach sections).order = c.order := by
  rw [pushEach_eq]
  rfl

theorem compose_append (d : Dialect) (order : Option Order) (xs ys : List Section) :
    d.compose order (xs ++ ys) =
      match d.compose order xs, d.compose order ys with
      | .ok a, .ok b => .ok (a ++ b)
      | .error f, _ => .error f
      | .ok _, .error f => .error f := by
  simp only [compose_eq, List.findSome?_append, List.flatMap_append]
  cases xs.findSome? (fault? d order) with
  | some f => rfl
  | none => cases ys.findSome? (fault? d order) <;> rfl

theorem compose_singleton_eq_ok_iff (d : Dialect) (order : Option Order) (s : Section)
    (p : Program) :
    d.compose order [s] = .ok p ↔ fault? d order s = none ∧ emission d order s = p := by
  rw [compose_eq_ok_iff, List.forall_mem_singleton, List.flatMap_singleton, eq_comm (a := p)]

/-- The programs of the sections, each composed alone, make up the program of the layout. -/
theorem compose_eq_ok_iff_parts (d : Dialect) (order : Option Order) (sections : List Section)
    (p : Program) :
    d.compose order sections = .ok p ↔
      ∃ parts : List Program,
        List.Forall₂ (fun s part => d.compose order [s] = .ok part) sections parts ∧
          p = parts.flatten := by
  have hparts : ∀ parts : List Program,
      List.Forall₂ (fun s part => d.compose order [s] = .ok part) sections parts ↔
        (∀ s ∈ sections, fault? d order s = none) ∧
          sections.map (emission d order) = parts := by
    intro parts
    simp only [compose_singleton_eq_ok_iff]
    rw [List.forall₂_and_left, ← List.forall₂_map_left_iff (R := Eq), List.forall₂_eq_eq_eq]
  rw [compose_eq_ok_iff]
  constructor
  · intro h
    refine ⟨sections.map (emission d order), (hparts _).mpr ⟨h.1, rfl⟩, ?_⟩
    rw [h.2, List.flatMap_def]
  · intro h
    obtain ⟨parts, hall, hp⟩ := h
    obtain ⟨hnone, rfl⟩ := (hparts parts).mp hall
    exact ⟨hnone, by rw [hp, List.flatMap_def]⟩

/-! ### What a section depends on -/

section Dependence

variable {d d' : Dialect} {s : Section} (hoptions : d'.options = d.options)
  (hrule : d'.vocabulary.get? s.tag = d.vocabulary.get? s.tag)

include hoptions hrule

theorem emission_congr (order : Option Order) : emission d' order s = emission d order s := by
  unfold emission
  rw [hrule, hoptions]

theorem fault?_congr (order : Option Order) : fault? d' order s = fault? d order s := by
  unfold fault?
  rw [hrule, hoptions]

end Dependence

/-- A text section first sets its own alignment. -/
theorem emission_text {d : Dialect} {s : Section} {rule : Rule}
    (hrule : d.vocabulary.get? s.tag = some rule) (hkind : rule.kind = .text)
    (order : Option Order) :
    ∃ rest, emission d order s = .align (alignmentOf s rule) :: rest := by
  unfold emission
  rw [hrule]
  dsimp only
  rw [hkind]
  exact ⟨_, rfl⟩

/-- Composing works section by section, in the order of the layout. -/
theorem compose_sectionwise (d : Dialect) (order : Option Order) :
    (∀ xs ys : List Section, d.compose order (xs ++ ys) =
      match d.compose order xs, d.compose order ys with
      | .ok a, .ok b => .ok (a ++ b)
      | .error f, _ => .error f
      | .ok _, .error f => .error f) ∧
    -- One by one into one composer: no push fails, and the program at the end is the same.
    (∀ (sections : List Section) (p : Program), d.compose order sections = .ok p ↔
      (∀ before s after, sections = before ++ s :: after →
        ((pushEach { dialect := d, order } before).push s).2 = none) ∧
      (pushEach { dialect := d, order } sections).program = p) ∧
    -- What is around a section does not matter, nor do rules of other types.
    (∀ (c c' : Composer) (s : Section), c'.dialect.options = c.dialect.options →
      c'.dialect.vocabulary.get? s.tag = c.dialect.vocabulary.get? s.tag → c'.order = c.order →
      (c'.push s).2 = (c.push s).2 ∧
        ∃ ops, (c.push s).1.program = c.program ++ ops ∧
          (c'.push s).1.program = c'.program ++ ops) ∧
    (∀ (before : List Section) (s : Section) (rule : Rule) (p : Program),
      d.vocabulary.get? s.tag = some rule → rule.kind = .text → s.alignment = none →
      d.compose order (before ++ [s]) = .ok p →
      ∃ q rest, d.compose order before = .ok q ∧
        p = q ++ .align (rule.alignment.getD .left) :: rest) ∧
    -- Each section has its part, in place.
    (∀ (sections : List Section) (p : Program), d.compose order sections = .ok p ↔
      ∃ parts : List Program,
        List.Forall₂ (fun s part => d.compose order [s] = .ok part) sections parts ∧
          p = parts.flatten) := by
  refine ⟨compose_append d order, fun sections p => ?_, fun c c' s hoptions hrule horder => ?_,
    fun before s rule p hrule hkind hleft hp => ?_, compose_eq_ok_iff_parts d order⟩
  · simp only [push_eq, pushEach_eq]
    rw [compose_eq_ok_iff]
    refine and_congr ⟨?_, ?_⟩ ⟨Eq.symm, Eq.symm⟩
    · intro h before s after hsplit
      exact h s (hsplit ▸ List.mem_append_cons_self)
    · intro h s hs
      obtain ⟨before, after, hsplit⟩ := List.append_of_mem hs
      exact h before s after hsplit
  · simp only [push_eq]
    rw [horder, fault?_congr hoptions hrule]
    refine ⟨rfl, emission c.dialect c.order s, rfl, ?_⟩
    rw [← emission_congr hoptions hrule]
    rfl
  · obtain ⟨hnone, rfl⟩ := (compose_eq_ok_iff d order _ p).mp hp
    obtain ⟨rest, hrest⟩ := emission_text hrule hkind order
    have hbefore : d.compose order before = .ok (before.flatMap (emission d order)) :=
      (compose_eq_ok_iff d order before _).mpr
        ⟨fun t ht => hnone t (List.mem_append_left _ ht), rfl⟩
    refine ⟨_, rest, hbefore, ?_⟩
    rw [List.flatMap_append, List.flatMap_singleton, hrest]
    unfold alignmentOf
    rw [hleft, Option.none_or]

/-- A line behind one at the right side stands at the left; the composer under way makes no difference,
and an unknown section at the end counts only because what stands before it can be printed. -/
theorem left_line_behind_right_line :
    let d : Dialect := {
      vocabulary := .insertAll ∅ [("text", {})]
      options := { placeholders := false, unknownSections := .error } }
    let right : Section := { tag := "text", content := some "a", alignment := some .right }
    let left : Section := { tag := "text", content := some "b" }
    let busy : Composer := {
      dialect := { d with
        vocabulary := .insertAll ∅ [("spacer", { kind := .spacer }), ("text", {})] }
      alignment := .center
      program := [.cut] }
    d.compose none [right] = .ok [.align .right, .text "a" none] ∧
      d.compose none ([right] ++ [left]) =
        .ok ([.align .right, .text "a" none] ++ [.align .left, .text "b" none]) ∧
      d.compose none ([right] ++ [{ tag := "logo" }]) = .error (.unknownType "logo") ∧
      (busy.push left).2 = (push { dialect := d } left).2 ∧
      (∃ q rest, d.compose none [right] = .ok q ∧
        [.align .right, .text "a" none, .align .left, .text "b" none] =
          q ++ .align .left :: rest) := by
  intro d right left busy
  have hright : d.compose none [right] = .ok [.align .right, .text "a" none] := rfl
  have hleft : d.compose none [left] = .ok [.align .left, .text "b" none] := rfl
  have hlogo : d.compose none [{ tag := "logo" }] = .error (.unknownType "logo") := rfl
  obtain ⟨happend, -, hapart, haligned, -⟩ := compose_sectionwise d none
  have hboth := happend [right] [left]
  rw [hright, hleft] at hboth
  have hunknown := happend [right] [{ tag := "logo" }]
  rw [hright, hlogo] at hunknown
  exact ⟨hright, hboth, hunknown, (hapart { dialect := d } busy left rfl rfl rfl).1,
    haligned [right] left {} _ rfl rfl rfl hboth⟩

end Receipt.Composer
