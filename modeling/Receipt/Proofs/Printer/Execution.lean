import Mathlib.Data.List.Forall2
import Receipt.Proofs.Printer.ReadBack

/-!
# What a job does to the printer

A program has a meaning of its own: the lines, feeds and cuts that its primitives ask for, each line
under the alignment set last before it and in its own style. `job_executes_program` shows that a printer
in any state does just that when it is sent the job, provided that no text has a line break or an escape
in it. Texts with commands in them are the subject of `Receipt.Proofs.Printer.CutOnce`.
-/

namespace Receipt

open Printer Printer.Signal

/-! ### The meaning of a program -/

/-- How far the characters of a size are enlarged. -/
def TextSize.enlargement : TextSize → UInt8
  | .normal => 0
  | .large => 1

/-- What one primitive causes on paper under an alignment. -/
def Op.event? (a : Alignment) : Op → Option Event
  | .align _ => none
  | .text content style =>
    let s := style.getD .plain
    some (.printed (CodePage.encode content) (Command.registerOf a) s.bold s.size.enlargement
      s.size.enlargement)
  | .feed lines => some (.fed lines)
  | .cut => some (.cut 2)

/-- What a program causes on paper, each primitive under the alignment set last before it. -/
def Program.events (a : Alignment) : Program → List Event
  | [] => []
  | op :: p => (op.event? a).toList ++ Program.events (op.register a) p

/-- The texts of a program are single lines without escapes. -/
def Program.Clean (p : Program) : Prop :=
  ∀ line ∈ p.lines, '\n' ∉ line.toList ∧ '\x1b' ∉ line.toList

/-- Two primitives that mean the same to a printer. -/
inductive Op.Agree : Op → Op → Prop where
  | align (a : Alignment) : Agree (.align a) (.align a)
  | text (content content' : String) (style style' : Option TextStyle)
      (bytes : CodePage.encode content = CodePage.encode content')
      (look : style.getD .plain = style'.getD .plain) :
      Agree (.text content style) (.text content' style')
  | feed (lines : UInt8) : Agree (.feed lines) (.feed lines)
  | cut : Agree .cut .cut

/-! ### Clean texts -/

theorem escape_not_mem_encode {line : String} (h : '\x1b' ∉ line.toList) :
    escape ∉ CodePage.encode line := by
  have hbyte : CodePage.byte '\x1b' = escape := by decide +kernel
  rw [← hbyte, CodePage.mem_encode_iff line (by decide) (by decide)]
  exact h

theorem lineFeed_not_mem_encode {line : String} (h : '\n' ∉ line.toList) :
    Printer.lineFeed ∉ CodePage.encode line := by
  have hbyte : CodePage.byte '\n' = Printer.lineFeed := by decide +kernel
  rw [← hbyte, CodePage.mem_encode_iff line (by decide) (by decide)]
  exact h

theorem Program.Clean.inert {p : Program} (h : p.Clean) : p.Inert := by
  intro line hline opener _ hi
  exact escape_not_mem_encode (h line hline).2 (hi.subset List.mem_cons_self)

theorem ofText_of_no_lineFeed {bs : List UInt8} (h : Printer.lineFeed ∉ bs) :
    Signal.ofText bs = bs.map .byte := by
  refine List.map_congr_left fun b hb => if_neg ?_
  intro he
  exact h (he ▸ hb)

theorem doubleSize_eq : Command.doubleSize = .size 1 1 := by decide

theorem normalSize_eq : Command.normalSize = .size 0 0 := by decide

theorem clean_cons {op : Op} {p : Program} :
    Program.Clean (op :: p) ↔ Program.Clean [op] ∧ p.Clean := by
  unfold Program.Clean
  rw [← List.forall_mem_append, ← Program.lines_append, List.singleton_append]

theorem signals_text {content : String} {style : Option TextStyle}
    (h : Program.Clean [.text content style]) :
    (Op.text content style).signals =
      (style.getD .plain).enter.map .command ++ ((CodePage.encode content).map .byte ++
        .lineFeed :: (style.getD .plain).leave.map .command) := by
  obtain ⟨hline, -⟩ := h content (by simp [Program.lines, Op.line?])
  simp only [Op.signals, ofText_of_no_lineFeed (lineFeed_not_mem_encode hline), List.append_assoc]

/-! ### Runs -/

namespace Printer.Machine

/-- A printer between two primitives of a job: of what was sent only the alignment is left. -/
def resting (a : Alignment) : Machine where
  alignment := Command.registerOf a
  page := 1

theorem run_bytes (m : Machine) (bs : List UInt8) :
    m.run (bs.map .byte) = ({ m with buffer := m.buffer ++ bs }, []) := by
  induction bs generalizing m with
  | nil => simp [run]
  | cons b bs ih =>
    rw [List.map_cons, run]
    simp only [step, ih, List.append_assoc, List.singleton_append, Option.toList_none,
      List.nil_append]

/-- The brackets around a text set its style for that line and nothing else. -/
theorem run_op (a : Alignment) {op : Op} (h : Program.Clean [op]) :
    (resting a).run op.signals = (resting (op.register a), (op.event? a).toList) := by
  cases op with
  | align b => rfl
  | feed lines => rfl
  | cut => rfl
  | text content style =>
    rw [signals_text h, run_append, run_append, run_bytes]
    cases hs : style.getD .plain with
    | mk bold size =>
      cases bold <;> cases size <;>
        simp [TextStyle.enter, TextStyle.leave, run, step, resting, Op.register, Op.event?, hs,
          TextSize.enlargement, doubleSize_eq, normalSize_eq]

theorem run_ops (a : Alignment) {p : Program} (h : p.Clean) :
    (resting a).run (p.flatMap Op.signals) = (resting (p.register a), p.events a) := by
  induction p generalizing a with
  | nil => rfl
  | cons op p ih =>
    obtain ⟨hop, hp⟩ := clean_cons.mp h
    rw [List.flatMap_cons, run_append, run_op a hop, ih _ hp]
    rfl

/-- The preamble forgets whatever state the printer was left in. -/
theorem run_signals (m : Machine) {p : Program} (h : p.Clean) :
    m.run p.signals = (resting (p.register .left), p.events .left) := by
  have hpreamble : m.run [.command .reset, .command Command.selectPage437] = (resting .left, []) :=
    rfl
  unfold Program.signals
  rw [run_append, hpreamble, run_ops .left h]
  rfl

end Printer.Machine

/-! ### Jobs with the same bytes -/

theorem line_ne_command (bs : List UInt8) (c : Command) (more more' : List Signal) :
    bs.map Signal.byte ++ .lineFeed :: more ≠ .command c :: more' := by
  cases bs with
  | nil => exact nofun
  | cons b bs => exact nofun

theorem line_cancel {bs bs' : List UInt8} {more more' : List Signal}
    (h : bs.map Signal.byte ++ .lineFeed :: more = bs'.map .byte ++ .lineFeed :: more') :
    bs = bs' ∧ more = more' := by
  induction bs generalizing bs' with
  | nil =>
    cases bs' with
    | nil => exact ⟨rfl, (List.cons.inj h).2⟩
    | cons b' bs' => cases (List.cons.inj h).1
  | cons b bs ih =>
    cases bs' with
    | nil => cases (List.cons.inj h).1
    | cons b' bs' =>
      obtain ⟨hb, hrest⟩ := List.cons.inj h
      obtain ⟨rfl, hmore⟩ := ih hrest
      cases hb
      exact ⟨rfl, hmore⟩

/-- The commands before a line tell its style. -/
theorem enter_cancel {s s' : TextStyle} {bs bs' : List UInt8} {more more' : List Signal}
    (h : s.enter.map Signal.command ++ (bs.map .byte ++ .lineFeed :: more) =
      s'.enter.map .command ++ (bs'.map .byte ++ .lineFeed :: more')) :
    s = s' ∧ bs = bs' ∧ more = more' := by
  obtain ⟨bold, size⟩ := s
  obtain ⟨bold', size'⟩ := s'
  cases bold <;> cases size <;> cases bold' <;> cases size' <;>
    simp [TextStyle.enter, doubleSize_eq, line_ne_command, (line_ne_command _ _ _ _).symm] at h ⊢
  all_goals exact line_cancel h

/-- The signals of a text never begin as those of another primitive do. -/
theorem text_ne_command {content : String} {style : Option TextStyle}
    (h : Program.Clean [.text content style]) (c : Command) (hbold : c ≠ .boldOn)
    (hsize : c ≠ .doubleSize) (more more' : List Signal) :
    (Op.text content style).signals ++ more ≠ .command c :: more' := by
  rw [signals_text h, List.append_assoc, List.append_assoc, List.cons_append]
  obtain ⟨bold, size⟩ := style.getD .plain
  cases bold <;> cases size <;>
    simp [TextStyle.enter, line_ne_command, hbold.symm, hsize.symm]

theorem alignTo_injective {a b : Alignment} (h : Command.alignTo a = Command.alignTo b) :
    a = b := by
  cases a <;> cases b <;> first | rfl | exact absurd h (by decide)

/-- The first signals of a job tell its first primitive. -/
theorem op_cancel {op op' : Op} (h : Program.Clean [op]) (h' : Program.Clean [op'])
    {more more' : List Signal} (he : op.signals ++ more = op'.signals ++ more') :
    op.Agree op' ∧ more = more' := by
  cases op with
  | text content style =>
    cases op' with
    | text content' style' =>
      rw [signals_text h, signals_text h'] at he
      simp only [List.append_assoc, List.cons_append] at he
      obtain ⟨hstyle, hbytes, hmore⟩ := enter_cancel he
      rw [hstyle] at hmore
      exact ⟨.text _ _ _ _ hbytes hstyle, List.append_cancel_left hmore⟩
    | align a' => exact absurd he (text_ne_command h (.alignTo a') nofun nofun more more')
    | feed n' => exact absurd he (text_ne_command h (.feed n') nofun nofun more more')
    | cut => exact absurd he (text_ne_command h .fullCut nofun nofun more more')
  | align a =>
    cases op' with
    | text content' style' =>
      exact absurd he.symm (text_ne_command h' (.alignTo a) nofun nofun more' more)
    | align a' =>
      obtain ⟨hc, hmore⟩ := List.cons.inj he
      obtain rfl := alignTo_injective (Signal.command.inj hc)
      exact ⟨.align a, hmore⟩
    | feed n' => cases (List.cons.inj he).1
    | cut => cases (List.cons.inj he).1
  | feed n =>
    cases op' with
    | text content' style' =>
      exact absurd he.symm (text_ne_command h' (.feed n) nofun nofun more' more)
    | align a' => cases (List.cons.inj he).1
    | feed n' =>
      obtain ⟨hc, hmore⟩ := List.cons.inj he
      cases hc
      exact ⟨.feed n, hmore⟩
    | cut => cases (List.cons.inj he).1
  | cut =>
    cases op' with
    | text content' style' =>
      exact absurd he.symm (text_ne_command h' .fullCut nofun nofun more' more)
    | align a' => cases (List.cons.inj he).1
    | feed n' => cases (List.cons.inj he).1
    | cut => exact ⟨.cut, (List.cons.inj he).2⟩

theorem signals_ne_nil (op : Op) : op.signals ≠ [] := by
  cases op with
  | text content style => simp [Op.signals]
  | align a => exact List.cons_ne_nil _ _
  | feed n => exact List.cons_ne_nil _ _
  | cut => exact List.cons_ne_nil _ _

theorem agree_of_signals_eq {p q : Program} (hp : p.Clean) (hq : q.Clean)
    (h : p.flatMap Op.signals = q.flatMap Op.signals) : List.Forall₂ Op.Agree p q := by
  induction p generalizing q with
  | nil =>
    cases q with
    | nil => exact .nil
    | cons op' q =>
      rw [List.flatMap_cons] at h
      exact absurd h.symm (List.append_ne_nil_of_left_ne_nil (signals_ne_nil op') _)
  | cons op p ih =>
    cases q with
    | nil =>
      rw [List.flatMap_cons] at h
      exact absurd h (List.append_ne_nil_of_left_ne_nil (signals_ne_nil op) _)
    | cons op' q =>
      obtain ⟨hop, hp⟩ := clean_cons.mp hp
      obtain ⟨hop', hq⟩ := clean_cons.mp hq
      obtain ⟨hagree, hrest⟩ := op_cancel hop hop' h
      exact .cons hagree (ih hp hq hrest)

theorem Op.Agree.bytes_eq {op op' : Op} (h : op.Agree op') : op.bytes = op'.bytes := by
  cases h with
  | align a => rfl
  | feed n => rfl
  | cut => rfl
  | text content content' style style' hbytes hstyle =>
    simp only [Op.bytes, hbytes, hstyle]

theorem bytes_eq_of_agree {p q : Program} (h : List.Forall₂ Op.Agree p q) :
    p.toBytes = q.toBytes := by
  have hops : p.flatMap Op.bytes = q.flatMap Op.bytes := by
    induction h with
    | nil => rfl
    | cons hagree _ ih => rw [List.flatMap_cons, List.flatMap_cons, hagree.bytes_eq, ih]
  unfold Program.toBytes
  rw [hops]

/-- Clean programs have the same job exactly if they agree primitive by primitive. -/
theorem toBytes_eq_iff {p q : Program} (hp : p.Clean) (hq : q.Clean) :
    p.toBytes = q.toBytes ↔ List.Forall₂ Op.Agree p q := by
  constructor
  · intro h
    have hsignals : p.signals = q.signals := by
      rw [← ofBytes_toBytes hp.inert, ← ofBytes_toBytes hq.inert, h]
    exact agree_of_signals_eq hp hq (List.append_cancel_left hsignals)
  · exact bytes_eq_of_agree

/-- A printer in whatever state executes a clean program: its lines, feeds and cuts in order and
nothing besides, and after each primitive only the alignment is left of it. Two clean programs are sent
as the same bytes exactly if they agree primitive by primitive. -/
theorem job_executes_program {p : Program} (hp : p.Clean) :
    (∀ m : Machine, (m.run (Signal.ofBytes p.toBytes)).2 = p.events .left) ∧
    (∀ (m : Machine) (done left : Program), p = done ++ left →
      ∃ rest, Signal.ofBytes p.toBytes = Signal.ofBytes done.toBytes ++ rest ∧
        (m.run (Signal.ofBytes done.toBytes)).1 = Machine.resting (done.register .left)) ∧
    ∀ q : Program, q.Clean → (p.toBytes = q.toBytes ↔ List.Forall₂ Op.Agree p q) := by
  refine ⟨?_, ?_, ?_⟩
  · intro m
    rw [ofBytes_toBytes hp.inert, Machine.run_signals m hp]
  · intro m done left hsplit
    have hdone : done.Clean := by
      intro line hline
      apply hp line
      rw [hsplit, Program.lines_append]
      exact List.mem_append_left _ hline
    refine ⟨left.flatMap Op.signals, ?_, ?_⟩
    · rw [ofBytes_toBytes hp.inert, ofBytes_toBytes hdone.inert, hsplit]
      unfold Program.signals
      rw [List.flatMap_append, List.append_assoc]
    · rw [ofBytes_toBytes hdone.inert, Machine.run_signals m hdone]
  · intro q hq
    exact toBytes_eq_iff hp hq

/-- Feeds whose counts are the bytes of an escape and of a line feed, behind a job that left the printer
bold, large and on the right. A plain style may be left out without a trace in the bytes. -/
theorem escape_as_feed_count_is_fed :
    let job (style : Option TextStyle) : Program :=
      [.align .center, .text "Café" (some ⟨true, .large⟩), .feed 27, .text "d0" style, .feed 10, .cut]
    let m : Machine := { alignment := 2, bold := true, height := 1, width := 1, page := 9 }
    (job none).Clean ∧
    (m.run (Signal.ofBytes (job none).toBytes)).2 =
      [.printed [0x43, 0x61, 0x66, 0x82] 1 true 1 1, .fed 27, .printed [0x64, 0x30] 1 false 0 0,
        .fed 10, .cut 2] ∧
    (m.run (Signal.ofBytes (Program.toBytes ((job none).take 2)))).1 = { alignment := 1, page := 1 } ∧
    (job none).toBytes = (job (some .plain)).toBytes := by
  intro job m
  have hclean : ∀ style, (job style).Clean := by
    intro style
    show ∀ line ∈ [("Café" : String), "d0"], _
    decide +kernel
  obtain ⟨hevents, hprefix, hbytes⟩ := job_executes_program (hclean none)
  refine ⟨hclean none, ?_, ?_, ?_⟩
  · rw [hevents m]
    decide +kernel
  · obtain ⟨-, -, hstate⟩ := hprefix m ((job none).take 2) ((job none).drop 2) rfl
    exact hstate
  · rw [hbytes (job (some .plain)) (hclean _)]
    exact .cons (.align _) (.cons (.text _ _ _ _ rfl rfl) (.cons (.feed _)
      (.cons (.text _ _ _ _ rfl rfl) (.cons (.feed _) (.cons .cut .nil)))))

end Receipt
