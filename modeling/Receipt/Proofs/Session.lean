import Receipt.Preview
import Receipt.Proofs.WellFormed

/-!
# Receipts on one printer

A preview keeps its alignment from one receipt to the next, and a receipt starts by no command that
resets it. Still no receipt shows in another: every line of a receipt stands behind an alignment of its
own. `drawing_eq` makes that precise, and `receipts_apart` carries it through whole sessions.
-/

namespace Receipt

/-- Each line of a program stands behind an alignment of the same program. -/
def Program.Aligned (p : Program) : Prop :=
  ∀ before content style after,
    p = before ++ .text content style :: after → ∃ a, .align a ∈ before

theorem Program.Aligned.tail {op : Op} {p : Program} (hop : ∀ a, op ≠ .align a)
    (h : Program.Aligned (op :: p)) : p.Aligned := by
  intro before content style after hp
  obtain ⟨a, ha⟩ := h (op :: before) content style after (congrArg (op :: ·) hp)
  exact ⟨a, List.mem_of_ne_of_mem (hop a).symm ha⟩

/-! ### What a program draws -/

/-- The lines that a program adds to paper of some width, under an alignment that is in force before. -/
def Preview.drawing (width : Nat) : Alignment → Program → List String
  | _, [] => []
  | a, op :: p => drawn width a op ++ drawing width (op.register a) p

namespace Preview

theorem drawing_append (width : Nat) (a : Alignment) (p q : Program) :
    drawing width a (p ++ q) = drawing width a p ++ drawing width (p.register a) q := by
  induction p generalizing a with
  | nil => rfl
  | cons op p ih =>
    rw [List.cons_append, drawing, ih, drawing, List.append_assoc]
    rfl

theorem width_replay (p : Program) (paper : Preview) : (p.replay paper).width = paper.width := by
  induction p generalizing paper with
  | nil => rfl
  | cons op p ih => exact (ih (Printer.issue paper op)).trans (width_issue paper op)

theorem lines_replay (p : Program) (paper : Preview) :
    (p.replay paper).lines.toList =
      paper.lines.toList ++ drawing paper.width paper.alignment p := by
  induction p generalizing paper with
  | nil => simp [drawing]
  | cons op p ih =>
    have hstep : Program.replay (op :: p) paper = Program.replay p (Printer.issue paper op) := rfl
    rw [hstep, ih, lines_issue, width_issue, alignment_issue, List.append_assoc, drawing]

/-- A program whose lines are aligned by itself draws the same, whatever was in force before. -/
theorem drawing_eq {p : Program} (h : p.Aligned) (width : Nat) (a b : Alignment) :
    drawing width a p = drawing width b p := by
  -- No text stands in front of the first alignment, and from there on both runs agree.
  induction p generalizing a b with
  | nil => rfl
  | cons op p ih =>
    cases op with
    | align c => rfl
    | text content style =>
      obtain ⟨c, hc⟩ := h [] content style p rfl
      exact absurd hc List.not_mem_nil
    | feed lines =>
      show drawn width a (.feed lines) ++ drawing width a p = drawn width b (.feed lines) ++ _
      rw [ih (h.tail (by simp)) a b]
      rfl
    | cut =>
      show drawn width a .cut ++ drawing width a p = drawn width b .cut ++ _
      rw [ih (h.tail (by simp)) a b]
      rfl

/-- The feed and the cut at the end need no alignment. -/
theorem drawing_ending (width : Nat) (a b : Alignment) :
    drawing width a Program.ending = drawing width b Program.ending := rfl

end Preview

/-! ### Receipts -/

open Preview

theorem drawing_receipt (d : Dialect) (order : Option Order) (text : String) (width : Nat)
    (a b : Alignment) :
    drawing width a (d.receipt order text) = drawing width b (d.receipt order text) := by
  have hwellFormed : ∀ p, d.body order text = .ok p → p.WellFormed := fun _ hp =>
    body_wellFormed hp
  obtain ⟨body, hreceipt, hbody⟩ := complete_wellFormed hwellFormed
  have hsplit : d.receipt order text = body ++ Program.ending := hreceipt
  rw [hsplit, drawing_append, drawing_append, drawing_eq hbody.aligned width a b]
  exact congrArg _ (drawing_ending width _ _)

/-- A receipt adds to paper in use the lines that it shows on fresh paper of that width. -/
theorem lines_print (d : Dialect) (order : Option Order) (text : String) (paper : Preview) :
    (d.print order text paper).lines =
      paper.lines ++ (d.print order text (Preview.blank paper.width)).lines := by
  have hwidth : (Preview.blank paper.width).width = paper.width :=
    Nat.max_eq_left paper.width_pos
  have hfresh : (d.print order text (Preview.blank paper.width)).lines.toList =
      drawing paper.width .left (d.receipt order text) := by
    unfold Dialect.print
    rw [lines_replay, hwidth]
    rfl
  apply Array.toList_inj.mp
  rw [Array.toList_append, hfresh]
  unfold Dialect.print
  rw [lines_replay, drawing_receipt d order text paper.width paper.alignment .left]

/-! ### Sessions -/

/-- What is handed over for one receipt: an order, if there is one, and the text of a layout. -/
structure Ticket where
  order : Option Order
  text : String

/-- Prints one receipt after the other. -/
def Dialect.printAll {σ : Type} [Printer σ] (d : Dialect) (tickets : List Ticket)
    (printer : σ) : σ :=
  tickets.foldl (fun printer t => d.print t.order t.text printer) printer

theorem printAll_concat {σ : Type} [Printer σ] (d : Dialect) (tickets : List Ticket) (t : Ticket)
    (printer : σ) :
    d.printAll (tickets ++ [t]) printer = d.print t.order t.text (d.printAll tickets printer) := by
  unfold Dialect.printAll
  rw [List.foldl_append, List.foldl_cons, List.foldl_nil]

theorem width_printAll (d : Dialect) (tickets : List Ticket) (paper : Preview) :
    (d.printAll tickets paper).width = paper.width := by
  induction tickets generalizing paper with
  | nil => rfl
  | cons t tickets ih => exact (ih _).trans (width_replay _ paper)

theorem lines_printAll (d : Dialect) (tickets : List Ticket) (paper : Preview) :
    (d.printAll tickets paper).lines.toList =
      paper.lines.toList ++ tickets.flatMap fun t =>
        (d.print t.order t.text (Preview.blank paper.width)).lines.toList := by
  induction tickets generalizing paper with
  | nil => simp [Dialect.printAll]
  | cons t tickets ih =>
    have hwidth : (d.print t.order t.text paper).width = paper.width := width_replay _ paper
    show (d.printAll tickets (d.print t.order t.text paper)).lines.toList = _
    rw [ih, hwidth, lines_print, Array.toList_append, List.append_assoc, List.flatMap_cons]

theorem printAll_program (d : Dialect) (tickets : List Ticket) (recorded : Program) :
    d.printAll tickets recorded =
      recorded ++ tickets.flatMap fun t => d.receipt t.order t.text := by
  induction tickets generalizing recorded with
  | nil => simp [Dialect.printAll]
  | cons t tickets ih =>
    have ht : d.print t.order t.text recorded = recorded ++ d.receipt t.order t.text :=
      Program.replay_program _ _
    show d.printAll tickets (d.print t.order t.text recorded) = _
    rw [ih, ht, List.append_assoc, List.flatMap_cons]

/-- In a session on one printer every receipt comes out as if it were the only one: on a preview, the
lines that a fresh preview of the same width shows, and on a recorded program, its own primitives. -/
theorem receipts_apart (d : Dialect) (tickets : List Ticket) :
    (∀ (paper : Preview) (t : Ticket),
      (d.printAll (tickets ++ [t]) paper).lines =
        (d.printAll tickets paper).lines ++
          (d.print t.order t.text (Preview.blank paper.width)).lines) ∧
    (∀ paper : Preview,
      (d.printAll tickets paper).lines.toList =
        paper.lines.toList ++ tickets.flatMap fun t =>
          (d.print t.order t.text (Preview.blank paper.width)).lines.toList) ∧
    (∀ (recorded : Program) (t : Ticket),
      d.printAll (tickets ++ [t]) recorded =
        d.printAll tickets recorded ++ d.receipt t.order t.text) ∧
    (∀ recorded : Program,
      d.printAll tickets recorded =
        recorded ++ tickets.flatMap fun t => d.receipt t.order t.text) := by
  refine ⟨fun paper t => ?_, lines_printAll d tickets, fun recorded t => ?_,
    printAll_program d tickets⟩
  · rw [printAll_concat, lines_print, width_printAll]
  · rw [printAll_concat]
    exact Program.replay_program _ _

end Receipt
