import Receipt.Proofs.Composer.UnknownTypes

/-!
# Going on after a fault

A composer may be given further sections after one that failed. A section that fails leaves behind the
alignment that it has set, in the register and in the program alike, or nothing at all. So the register
tells the last alignment of the program at all times, and what comes later is added as to a new composer.

`Taking` lists the five ways in which a section can be taken and `push_taking` says that there is no
sixth; what holds after any number of sections follows from it, one section at a time.
-/

namespace Receipt.Composer

/-- How a section is taken: the primitives that it adds, and its fault if it meets one. -/
inductive Taking (d : Dialect) (order : Option Order) (s : Section) :
    Program → Option Fault → Prop where
  | skipped (unlisted : d.vocabulary.get? s.tag = none)
      (lenient : d.options.unknownSections = .skip) : Taking d order s [] none
  | refused (unlisted : d.vocabulary.get? s.tag = none)
      (strict : d.options.unknownSections = .error) :
      Taking d order s [] (some (.unknownType s.tag))
  | fed {rule : Rule} (listed : d.vocabulary.get? s.tag = some rule)
      (feeds : rule.kind = .spacer) : Taking d order s (feedOps (s.lines.getD 1)) none
  | printed {rule : Rule} {text : String} (listed : d.vocabulary.get? s.tag = some rule)
      (prints : rule.kind = .text) (found : textOf d.options order s rule = .ok text) :
      Taking d order s
        (.align (alignmentOf s rule) :: textOps d.options rule (styleOf s rule) text) none
  | blocked {rule : Rule} {f : Order.Fault} (listed : d.vocabulary.get? s.tag = some rule)
      (prints : rule.kind = .text) (failed : textOf d.options order s rule = .error f) :
      Taking d order s [.align (alignmentOf s rule)] (some (.order f))

/-! ### One section -/

theorem taking (d : Dialect) (order : Option Order) (s : Section) :
    Taking d order s (emission d order s) (fault? d order s) := by
  unfold emission fault?
  cases hlisted : d.vocabulary.get? s.tag with
  | none =>
    cases hpolicy : d.options.unknownSections with
    | skip => exact .skipped hlisted hpolicy
    | error => exact .refused hlisted hpolicy
  | some rule =>
    cases hkind : rule.kind with
    | spacer => simpa only [hkind] using Taking.fed hlisted hkind
    | text =>
      cases htext : textOf d.options order s rule with
      | ok text => simpa only [hkind, htext] using Taking.printed hlisted hkind htext
      | error f => simpa only [hkind, htext] using Taking.blocked hlisted hkind htext

theorem Taking.emission_eq {d : Dialect} {order : Option Order} {s : Section} {p : Program}
    {fault : Option Fault} (h : Taking d order s p fault) : emission d order s = p := by
  unfold emission
  cases h with
  | skipped unlisted => rw [unlisted]
  | refused unlisted => rw [unlisted]
  | fed listed feeds => simp only [listed, feeds]
  | printed listed prints found => simp only [listed, prints, found]
  | blocked listed prints failed => simp only [listed, prints, failed]

/-- Whatever a composer holds, a section is taken in one of the five ways. -/
theorem push_taking (c : Composer) (s : Section) :
    ∃ ops fault, Taking c.dialect c.order s ops fault ∧ c.push s = (c.took ops, fault) :=
  ⟨_, _, taking c.dialect c.order s, push_eq c s⟩

theorem push_of_unknownType {c : Composer} {s : Section} {tag : String}
    (h : (c.push s).2 = some (.unknownType tag)) : (c.push s).1 = c := by
  obtain ⟨ops, fault, htaking, hpush⟩ := push_taking c s
  rw [hpush] at h ⊢
  cases htaking with
  | refused => exact c.took_nil
  | _ => cases h

/-- A section that an order does not fill has set its alignment and nothing else. -/
theorem push_of_order {c : Composer} {s : Section} {f : Order.Fault}
    (h : (c.push s).2 = some (.order f)) :
    ∃ rule, c.dialect.vocabulary.get? s.tag = some rule ∧ rule.kind = .text ∧
      (c.push s).1 = c.took [.align (alignmentOf s rule)] := by
  obtain ⟨ops, fault, htaking, hpush⟩ := push_taking c s
  rw [hpush] at h ⊢
  cases htaking with
  | @blocked rule g listed prints => exact ⟨rule, listed, prints, rfl⟩
  | _ => cases h

theorem push_spacer {c : Composer} {s : Section} {rule : Rule}
    (hlisted : c.dialect.vocabulary.get? s.tag = some rule) (hkind : rule.kind = .spacer) :
    c.push s = (c.took (feedOps (s.lines.getD 1)), none) := by
  unfold push took
  rw [hlisted, register_feedOps]
  dsimp only
  rw [hkind]
  rfl

/-! ### Any number of sections -/

/-- The register tells the alignment that the program has set last. -/
def Consistent (c : Composer) : Prop :=
  c.alignment = c.program.lastAlignment?.getD .left

theorem Consistent.took {c : Composer} (h : c.Consistent) (ops : Program) :
    (c.took ops).Consistent := by
  have hbefore : Program.register c.program .left = c.alignment := by
    rw [Program.register_eq_lastAlignment?]
    exact h.symm
  unfold Consistent
  rw [← Program.register_eq_lastAlignment?]
  show ops.register c.alignment = Program.register (c.program ++ ops) .left
  rw [Program.register_append, hbefore]

theorem Consistent.push {c : Composer} (h : c.Consistent) (s : Section) :
    (c.push s).1.Consistent := by
  obtain ⟨ops, fault, -, hpush⟩ := push_taking c s
  rw [hpush]
  exact h.took ops

theorem Consistent.pushEach {c : Composer} (h : c.Consistent) (sections : List Section) :
    (c.pushEach sections).Consistent := by
  unfold Composer.pushEach
  induction sections generalizing c with
  | nil => exact h
  | cons s rest ih => exact ih (h.push s)

/-- What a section adds is the same for a composer under way as for a new one. -/
theorem push_as_new {c : Composer} {d : Dialect} {order : Option Order} (hd : c.dialect = d)
    (horder : c.order = order) (s : Section) :
    let new : Composer := { dialect := d, order }
    (c.push s).2 = (new.push s).2 ∧
      (c.push s).1.program = c.program ++ (new.push s).1.program := by
  subst hd horder
  dsimp only
  rw [push_eq, push_eq]
  exact ⟨rfl, rfl⟩

/-- After any sections, failed ones among them, the register tells the last alignment of the program. A
section of an unknown type leaves the composer as it was, one that the order does not fill leaves its
alignment and nothing else, a spacer leaves the register; all that follows is added as to a new composer. -/
theorem composer_goes_on_after_faults (d : Dialect) (order : Option Order) (taken : List Section) :
    let new : Composer := { dialect := d, order }
    let c := new.pushEach taken
    c.alignment = c.program.lastAlignment?.getD .left ∧
    ∀ s : Section,
      (∀ tag, (c.push s).2 = some (.unknownType tag) → (c.push s).1 = c) ∧
      (∀ f, (c.push s).2 = some (.order f) →
        ∃ rule, d.vocabulary.get? s.tag = some rule ∧ rule.kind = .text ∧
          let a := (s.alignment.or rule.alignment).getD .left
          (c.push s).1 = { c with alignment := a, program := c.program ++ [.align a] }) ∧
      (∀ rule, d.vocabulary.get? s.tag = some rule → rule.kind = .spacer →
        (c.push s).2 = none ∧ (c.push s).1.alignment = c.alignment) ∧
      (d.vocabulary.get? s.tag = none → d.options.unknownSections = .skip →
        c.push s = (c, none)) ∧
      (c.push s).2 = (new.push s).2 ∧
        (c.push s).1.program = c.program ++ (new.push s).1.program := by
  intro new c
  have hconsistent : c.Consistent := Consistent.pushEach (c := new) rfl taken
  have hdialect : c.dialect = d := new.dialect_pushEach taken
  have horder : c.order = order := new.order_pushEach taken
  refine ⟨hconsistent, fun s => ⟨fun tag h => push_of_unknownType h, fun f h => ?_,
    fun rule hlisted hkind => ?_, fun hunlisted hskip => ?_, push_as_new hdialect horder s⟩⟩
  · obtain ⟨rule, hlisted, hkind, hpush⟩ := push_of_order h
    rw [hdialect] at hlisted
    exact ⟨rule, hlisted, hkind, hpush⟩
  · rw [← hdialect] at hlisted
    rw [push_spacer hlisted hkind]
    exact ⟨rfl, register_feedOps _ _⟩
  · rw [← hdialect] at hunlisted hskip
    exact push_unknown hskip (knows_eq_false_iff.mpr hunlisted)

/-- The total is missing and the logo is unknown: only the alignment of the total stays behind, the
spacer does not touch it, and a line after all that is set as the first of a receipt would be. -/
theorem missing_total_leaves_alignment :
    let d : Dialect := {
      vocabulary := .insertAll ∅ [
        ("spacer", { kind := .spacer }), ("text", {}), ("total", { binding := some .total })]
      options := { placeholders := false, unknownSections := .error } }
    let lenient : Dialect := { d with options := { d.options with unknownSections := .skip } }
    let total : Section := { tag := "total", alignment := some .right }
    let logo : Section := { tag := "logo" }
    let c := pushEach { dialect := d, order := some {} } [total, logo]
    let c' := pushEach { dialect := lenient, order := some {} } [total, logo]
    c.program = [.align .right] ∧ c.alignment = .right ∧
      (c.push logo).2 = some (.unknownType "logo") ∧ (c.push logo).1 = c ∧
      (c.push total).2 = some (.order (.missing .total)) ∧
      (c.push total).1.program = c.program ++ [.align .right] ∧
      (c.push (.spacer 3)).1.alignment = .right ∧
      c'.push logo = (c', none) ∧
      (c.push { tag := "text", content := some "a" }).1.program =
        c.program ++ [.align .left, .text "a" none] := by
  intro d lenient total logo c c'
  have hlogo : (c.push logo).2 = some (.unknownType "logo") := rfl
  have htotal : (c.push total).2 = some (.order (.missing .total)) := rfl
  obtain ⟨hregister, htakes⟩ := composer_goes_on_after_faults d (some {}) [total, logo]
  obtain ⟨hunknown, -⟩ := htakes logo
  obtain ⟨-, hunfilled, -⟩ := htakes total
  obtain ⟨-, -, hspacer, -⟩ := htakes (.spacer 3)
  obtain ⟨-, -, -, -, -, hline⟩ := htakes { tag := "text", content := some "a" }
  obtain ⟨-, hlenient⟩ := composer_goes_on_after_faults lenient (some {}) [total, logo]
  obtain ⟨-, -, -, hskipped, -⟩ := hlenient logo
  obtain ⟨rule, hrule, -, hpush⟩ := hunfilled _ htotal
  have hright : (c.push total).1.program = c.program ++ [.align .right] := by
    rw [hpush]
    rfl
  exact ⟨rfl, hregister.trans rfl, hlogo, hunknown _ hlogo, htotal, hright,
    (hspacer _ rfl rfl).2, hskipped rfl rfl, hline⟩

end Receipt.Composer
