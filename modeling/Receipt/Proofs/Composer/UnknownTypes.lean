import Receipt.Proofs.Composer.Concatenation
import Receipt.Proofs.Composer.Sources

/-!
# Sections of unknown types

A vocabulary does not list every type that a layout may use. Under the policy `skip` a section of an
unknown type is as good as absent, for a composer in any state. Under the policy `error` it ends the
receipt, but only if the sections in front of it can be printed: up to the first unknown section both
policies come to the same. `unknown_sections_leave_no_trace` relates the two over whole layouts.
-/

namespace Receipt

def Vocabulary.knows (v : Vocabulary) (s : Section) : Bool :=
  (v.get? s.tag).isSome

/-- A layout without the sections whose type is not known. -/
def Layout.known (v : Vocabulary) (l : Layout) : Layout :=
  { l with sections := l.sections.filter v.knows }

/-- The dialect that differs at most in what becomes of unknown sections. -/
def Dialect.under (d : Dialect) (policy : UnknownPolicy) : Dialect :=
  { d with options := { d.options with unknownSections := policy } }

theorem knows_eq_false_iff {v : Vocabulary} {s : Section} :
    v.knows s = false ↔ v.get? s.tag = none := by
  unfold Vocabulary.knows
  rw [Option.isSome_eq_false_iff, Option.isNone_iff_eq_none]

namespace Composer

/-! ### One section -/

theorem push_unknown {c : Composer} {s : Section} (hskip : c.dialect.options.unknownSections = .skip)
    (h : c.dialect.vocabulary.knows s = false) : c.push s = (c, none) := by
  unfold push
  rw [knows_eq_false_iff.mp h, hskip]

theorem fault?_unknown {d : Dialect} {s : Section} (h : d.vocabulary.knows s = false)
    (order : Option Order) : fault? (d.under .error) order s = some (.unknownType s.tag) := by
  have hnone : (d.under .error).vocabulary.get? s.tag = none := knows_eq_false_iff.mp h
  unfold fault?
  rw [hnone]
  rfl

/-- The policy concerns unknown sections alone. -/
theorem outcome_under {d : Dialect} {s : Section} (h : d.vocabulary.knows s = true)
    (order : Option Order) (p q : UnknownPolicy) :
    outcome (d.under p) order s = outcome (d.under q) order s := by
  obtain ⟨rule, hrule⟩ := Option.isSome_iff_exists.mp h
  have hlisted : ∀ p, (d.under p).vocabulary.get? s.tag = some rule := fun _ => hrule
  cases hkind : rule.kind with
  | spacer =>
    rw [outcome_eq, outcome_eq]
    unfold emission fault?
    simp only [hlisted, hkind]
  | text =>
    rw [outcome_text (hlisted p) hkind, outcome_text (hlisted q) hkind]
    rfl

/-! ### Skipping -/

/-- A composer that skips takes the known sections and nothing else, whatever it holds already. -/
theorem pushAll_known {c : Composer} (hskip : c.dialect.options.unknownSections = .skip)
    (sections : List Section) :
    c.pushAll (sections.filter c.dialect.vocabulary.knows) = c.pushAll sections := by
  induction sections generalizing c with
  | nil => rfl
  | cons s rest ih =>
    by_cases hs : c.dialect.vocabulary.knows s = true
    · have hdialect : ((c.push s).1).dialect = c.dialect := by
        rw [push_eq]
        rfl
      have hrest := ih (c := (c.push s).1) (by rw [hdialect]; exact hskip)
      rw [hdialect] at hrest
      rw [List.filter_cons_of_pos hs, pushAll, pushAll]
      cases hp : c.push s with
      | mk c' fault =>
        rw [hp] at hrest
        cases fault with
        | none => exact hrest
        | some f => rfl
    · have hunknown : c.dialect.vocabulary.knows s = false := by simpa using hs
      rw [List.filter_cons_of_neg hs, ih hskip, pushAll, push_unknown hskip hunknown]

theorem compose_known (d : Dialect) (order : Option Order) (l : Layout) :
    (d.under .skip).compose order (l.known d.vocabulary).sections =
      (d.under .skip).compose order l.sections := by
  unfold Dialect.compose
  have hskip := pushAll_known (c := { dialect := d.under .skip, order }) rfl l.sections
  exact congrArg (fun r => r >>= fun c => pure c.program) hskip

/-! ### Refusing -/

theorem compose_under {d : Dialect} {sections : List Section}
    (h : ∀ s ∈ sections, d.vocabulary.knows s = true) (order : Option Order) (p q : UnknownPolicy) :
    (d.under p).compose order sections = (d.under q).compose order sections :=
  compose_congr fun s hs => outcome_under (h s hs) order p q

/-- The first unknown section is refused if the sections in front of it are printed. -/
theorem compose_first_unknown {d : Dialect} {before : List Section} {s : Section}
    (hbefore : ∀ t ∈ before, d.vocabulary.knows t = true) (hs : d.vocabulary.knows s = false)
    (order : Option Order) (after : List Section) :
    (d.under .error).compose order (before ++ s :: after) =
      match (d.under .skip).compose order before with
      | .ok _ => .error (.unknownType s.tag)
      | .error f => .error f := by
  have hrest : (d.under .error).compose order (s :: after) = .error (.unknownType s.tag) := by
    rw [compose_eq, List.findSome?_cons, fault?_unknown hs order]
  rw [compose_append, hrest, compose_under hbefore order .error .skip]
  cases (d.under .skip).compose order before <;> rfl

theorem knows_of_compose_ok {d : Dialect} {order : Option Order} {sections : List Section}
    {p : Program} (h : (d.under .error).compose order sections = .ok p) :
    ∀ s ∈ sections, d.vocabulary.knows s = true := by
  intro s hs
  by_contra hunknown
  have hunknown : d.vocabulary.knows s = false := by simpa using hunknown
  have hnone := ((compose_eq_ok_iff _ order sections p).mp h).1 s hs
  rw [fault?_unknown hunknown order] at hnone
  cases hnone

/-! ### Sections on their own -/

theorem compose_alone_ok_iff (d : Dialect) (order : Option Order) (s : Section) :
    (∃ p, d.compose order [s] = .ok p) ↔ fault? d order s = none := by
  simp only [compose_singleton_eq_ok_iff, exists_and_left, exists_eq', and_true]

theorem compose_alone_error_iff (d : Dialect) (order : Option Order) (s : Section) (f : Fault) :
    d.compose order [s] = .error f ↔ fault? d order s = some f := by
  rw [compose_eq, List.findSome?_singleton]
  cases fault? d order s <;> simp

/-- Unknown sections leave no trace where they are skipped, and where they are refused they only add
failures: the first of them is the fault unless a known section in front of it has one already. -/
theorem unknown_sections_leave_no_trace (d : Dialect) (order : Option Order) (l : Layout) :
    (d.under .skip).compose order l.sections =
      (d.under .skip).compose order (l.known d.vocabulary).sections ∧
    -- The same from any state on: register and program end up equal as well.
    (∀ c : Composer, c.dialect = d.under .skip →
      c.pushAll l.sections = c.pushAll (l.known d.vocabulary).sections) ∧
    ((∀ s ∈ l.sections, d.vocabulary.knows s = true) →
      (d.under .error).compose order l.sections = (d.under .skip).compose order l.sections) ∧
    (∀ before s after, l.sections = before ++ s :: after →
      (∀ t ∈ before, d.vocabulary.knows t = true) → d.vocabulary.knows s = false →
      ((∀ t ∈ before, ∃ p, (d.under .skip).compose order [t] = .ok p) →
        (d.under .error).compose order l.sections = .error (.unknownType s.tag)) ∧
      (∀ earlier t later f, before = earlier ++ t :: later →
        (∀ u ∈ earlier, ∃ p, (d.under .skip).compose order [u] = .ok p) →
        (d.under .skip).compose order [t] = .error f →
        (d.under .error).compose order l.sections = .error f)) ∧
    (∀ p, (d.under .error).compose order l.sections = .ok p ↔
      (∀ s ∈ l.sections, d.vocabulary.knows s = true) ∧
        (d.under .skip).compose order l.sections = .ok p) := by
  refine ⟨(compose_known d order l).symm, fun c hc => ?_, fun h => compose_under h order _ _,
    fun before s after hsplit hbefore hs =>
      ⟨fun hfine => ?_, fun earlier t later f hearlier hfine ht => ?_⟩,
    fun p => ⟨fun hp => ?_, fun h => ?_⟩⟩
  · have hskip : c.dialect.options.unknownSections = .skip := by
      rw [hc]
      rfl
    have hknown := pushAll_known hskip l.sections
    rw [hc] at hknown
    exact hknown.symm
  · simp only [compose_alone_ok_iff] at hfine
    have hlenient := (compose_eq_ok_iff (d.under .skip) order before _).mpr ⟨hfine, rfl⟩
    rw [hsplit, compose_first_unknown hbefore hs, hlenient]
  · simp only [compose_alone_ok_iff] at hfine
    rw [compose_alone_error_iff] at ht
    have hlenient := (compose_eq_error_iff (d.under .skip) order before f).mpr
      ⟨earlier, t, later, hearlier, ht, hfine⟩
    rw [hsplit, compose_first_unknown hbefore hs, hlenient]
  · have hknown := knows_of_compose_ok hp
    exact ⟨hknown, (compose_under hknown order .skip .error).trans hp⟩
  · exact (compose_under h.1 order .error .skip).trans h.2

/-- A section of an unknown type between two others goes unnoticed under one policy. Under the other it
is the fault, unless the missing total stands in front of it. -/
theorem logo_before_and_behind_total :
    let d : Dialect := {
      vocabulary := .insertAll ∅ [("text", {}), ("total", { binding := some .total })]
      options := { placeholders := false } }
    let line : Section := { tag := "text", content := some "a" }
    let logo : Section := { tag := "logo" }
    let total : Section := { tag := "total" }
    let busy : Composer := {
      dialect := d.under .skip, order := some {}, alignment := .right, program := [.cut] }
    (d.under .skip).compose none [line, logo, line] =
        .ok [.align .left, .text "a" none, .align .left, .text "a" none] ∧
      busy.pushAll [line, logo, line] = busy.pushAll [line, line] ∧
      (d.under .error).compose none [line, line] = (d.under .skip).compose none [line, line] ∧
      (d.under .error).compose (some {}) [line, logo, total] = .error (.unknownType "logo") ∧
      (d.under .error).compose (some {}) [line, total, logo] = .error (.order (.missing .total)) := by
  intro d line logo total busy
  have hline : ∃ p, (d.under .skip).compose (some {}) [line] = .ok p := ⟨_, rfl⟩
  have hfine : ∀ s ∈ [line], ∃ p, (d.under .skip).compose (some {}) [s] = .ok p :=
    List.forall_mem_singleton.mpr hline
  obtain ⟨hskip, hstate, -, -, -⟩ :=
    unknown_sections_leave_no_trace d none { sections := [line, logo, line] }
  obtain ⟨-, -, hsame, -, -⟩ := unknown_sections_leave_no_trace d none { sections := [line, line] }
  obtain ⟨-, -, -, hbehind, -⟩ :=
    unknown_sections_leave_no_trace d (some {}) { sections := [line, logo, total] }
  obtain ⟨-, -, -, hbefore, -⟩ :=
    unknown_sections_leave_no_trace d (some {}) { sections := [line, total, logo] }
  exact ⟨hskip.trans rfl, hstate busy rfl, hsame (by decide),
    (hbehind [line] logo [total] rfl (by decide) (by decide)).1 hfine,
    (hbefore [line, total] logo [] rfl (by decide) (by decide)).2 [line] total [] _ rfl hfine rfl⟩

end Composer

end Receipt
