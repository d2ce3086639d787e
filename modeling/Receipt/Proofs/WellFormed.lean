import Receipt.Dialect
import Receipt.Proofs.Composer.Emission

/-!
# The form of receipts

A receipt has three sources: the sections of a layout, the notice for a document without one, and the
notice of a fault. Each gives a well-formed body, and the feed and the cut at the end are added to all
of them alike. `receipts_wellFormed` puts the three together; nothing is asked of the vocabulary, the
options, the order or the layout.
-/

namespace Receipt

open Composer

/-- What holds of a receipt before its final feed and cut. -/
structure Program.WellFormed (p : Program) : Prop where
  no_cut : .cut ∉ p
  no_empty_feed : .feed 0 ∉ p
  /-- A line stands behind an alignment of the same program. -/
  aligned : ∀ before content style after,
    p = before ++ .text content style :: after → ∃ a, .align a ∈ before
  /-- A plain line carries no style at all. -/
  no_plain_style : ∀ content, .text content (some { bold := false, size := .normal }) ∉ p

/-! ### Building well-formed programs -/

theorem wellFormed_nil : Program.WellFormed [] := by
  constructor
  · exact List.not_mem_nil
  · exact List.not_mem_nil
  · intro before content style after h
    exact absurd h.symm (List.append_ne_nil_of_right_ne_nil _ (List.cons_ne_nil _ _))
  · intro content
    exact List.not_mem_nil

/-- Lines of the first program keep their alignment, those of the second bring their own. -/
theorem Program.WellFormed.append {p q : Program} (hp : p.WellFormed) (hq : q.WellFormed) :
    Program.WellFormed (p ++ q) := by
  constructor
  · exact fun h => (List.mem_append.mp h).elim hp.no_cut hq.no_cut
  · exact fun h => (List.mem_append.mp h).elim hp.no_empty_feed hq.no_empty_feed
  · intro before content style after h
    rcases List.append_eq_append_iff.mp h with ⟨mid, hbefore, hq'⟩ | ⟨mid, hp', hrest⟩
    · obtain ⟨a, ha⟩ := hq.aligned mid content style after hq'
      exact ⟨a, hbefore ▸ List.mem_append_right p ha⟩
    · cases mid with
      | nil =>
        obtain ⟨a, ha⟩ := hq.aligned [] content style after hrest.symm
        exact absurd ha List.not_mem_nil
      | cons op mid =>
        obtain ⟨rfl, -⟩ := List.cons.inj hrest
        exact hp.aligned before content style mid hp'
  · exact fun content h =>
      (List.mem_append.mp h).elim (hp.no_plain_style content) (hq.no_plain_style content)

theorem wellFormed_flatMap {α : Type} {f : α → Program} (h : ∀ x, (f x).WellFormed) (l : List α) :
    Program.WellFormed (l.flatMap f) := by
  induction l with
  | nil => exact wellFormed_nil
  | cons x l ih =>
    rw [List.flatMap_cons]
    exact (h x).append ih

/-- Feeds of some lines need no alignment. -/
theorem wellFormed_of_feeds {p : Program} (h : ∀ op ∈ p, ∃ n, n ≠ 0 ∧ op = .feed n) :
    p.WellFormed := by
  constructor
  · intro hm
    obtain ⟨n, -, he⟩ := h _ hm
    cases he
  · intro hm
    obtain ⟨n, hn, he⟩ := h _ hm
    cases he
    exact hn rfl
  · intro before content style after hp
    obtain ⟨n, -, he⟩ := h (.text content style) (hp ▸ List.mem_append_cons_self)
    cases he
  · intro content hm
    obtain ⟨n, -, he⟩ := h _ hm
    cases he

/-- An alignment serves all lines that follow it. -/
theorem wellFormed_align_cons (a : Alignment) {p : Program}
    (h : ∀ op ∈ p, (∃ line style, style ≠ some .plain ∧ op = .text line style) ∨ op = .feed 1) :
    Program.WellFormed (.align a :: p) := by
  constructor
  · intro hm
    rcases h _ (List.mem_of_ne_of_mem (by simp) hm) with ⟨line, style, -, he⟩ | he <;> cases he
  · intro hm
    rcases h _ (List.mem_of_ne_of_mem (by simp) hm) with ⟨line, style, -, he⟩ | he <;> cases he
  · intro before content style after hp
    cases before with
    | nil => cases hp
    | cons op before =>
      obtain ⟨rfl, -⟩ := List.cons.inj hp
      exact ⟨a, List.mem_cons_self⟩
  · intro content hm
    rcases h _ (List.mem_of_ne_of_mem (by simp) hm) with ⟨line, style, hne, he⟩ | he
    · cases he
      exact hne rfl
    · cases he

/-! ### The three sources -/

theorem emission_wellFormed (d : Dialect) (order : Option Order) (s : Section) :
    (emission d order s).WellFormed := by
  unfold emission
  cases d.vocabulary.get? s.tag with
  | none => exact wellFormed_nil
  | some rule =>
    cases hkind : rule.kind with
    | spacer =>
      simp only [hkind]
      exact wellFormed_of_feeds fun op hop => mem_feedOps hop
    | text =>
      simp only [hkind]
      cases textOf d.options order s rule with
      | error f => exact wellFormed_align_cons _ fun op hop => absurd hop List.not_mem_nil
      | ok text =>
        refine wellFormed_align_cons _ fun op hop => ?_
        rcases mem_textOps hop with ⟨line, he⟩ | he
        · exact .inl ⟨line, styleOf s rule, TextStyle.mark_ne_plain _, he⟩
        · exact .inr he

theorem bodyOf_wellFormed {d : Dialect} {order : Option Order} {l : Layout} {p : Program}
    (h : d.bodyOf order l = .ok p) : p.WellFormed := by
  unfold Dialect.bodyOf at h
  cases hc : d.compose order l.sections with
  | error f =>
    rw [hc] at h
    cases h
  | ok q =>
    rw [hc] at h
    cases h
    obtain ⟨-, rfl⟩ := (compose_eq_ok_iff d order l.sections p).mp hc
    exact wellFormed_flatMap (emission_wellFormed d order) l.sections

theorem absentLayout_wellFormed : Program.absentLayout.WellFormed :=
  wellFormed_align_cons _ fun op hop =>
    .inl ⟨Layout.absentNotice, none, by simp, List.mem_singleton.mp hop⟩

theorem notice_wellFormed (f : Fault) : f.notice.WellFormed :=
  wellFormed_align_cons _ fun op hop =>
    .inl ⟨"ERROR: " ++ f.message, some .emphasis, by decide, List.mem_singleton.mp hop⟩

theorem body_wellFormed {d : Dialect} {order : Option Order} {text : String} {p : Program}
    (h : d.body order text = .ok p) : p.WellFormed := by
  unfold Dialect.body at h
  cases hr : Layout.read? text with
  | error f =>
    rw [hr] at h
    cases h
  | ok layout =>
    rw [hr] at h
    cases layout with
    | none =>
      cases h
      exact absentLayout_wellFormed
    | some l => exact bodyOf_wellFormed h

/-- A fault replaces the body, so the form of the receipt does not hang on success. -/
theorem complete_wellFormed {outcome : Except Fault Program}
    (h : ∀ p, outcome = .ok p → p.WellFormed) :
    ∃ body : Program, Dialect.complete outcome = body ++ [.feed 2, .cut] ∧ body.WellFormed := by
  cases outcome with
  | ok p => exact ⟨p, rfl, h p rfl⟩
  | error f => exact ⟨f.notice, rfl, notice_wellFormed f⟩

/-- Every receipt, from a text or from a layout, is a well-formed body with one feed of two lines and
one cut behind it. -/
theorem receipts_wellFormed (d : Dialect) (order : Option Order) :
    (∀ text, ∃ body : Program,
      d.receipt order text = body ++ [.feed 2, .cut] ∧ body.WellFormed) ∧
    (∀ l, ∃ body : Program,
      d.receiptOf order l = body ++ [.feed 2, .cut] ∧ body.WellFormed) := by
  constructor
  · intro text
    exact complete_wellFormed fun p hp => body_wellFormed hp
  · intro l
    exact complete_wellFormed fun p hp => bodyOf_wellFormed hp

end Receipt
