import Receipt.Printer.Job
import Receipt.Printer.Machine
import Receipt.Proofs.Delimiter
import Receipt.Proofs.Printer.Page

/-!
# Reading a job back

A job is meant to be read as the commands compiled from its primitives and the bytes of its texts. The
printer sees no such division: an escape within a text opens a command if the bytes behind it spell
one. `ofBytes_toBytes` shows that a job without such texts is read as it is meant, and
`inert_of_ofBytes_ops` that no other job is, as long as at least one byte follows its texts.
-/

namespace Receipt

open Printer

/-! ### What a job is meant to say -/

/-- The bytes of a text as the printer should take them. -/
def Printer.Signal.ofText (bs : List UInt8) : List Signal :=
  bs.map fun b => if b = Printer.lineFeed then .lineFeed else .byte b

/-- The signals of one primitive. -/
def Op.signals : Op → List Signal
  | .align a => [.command (Command.alignTo a)]
  | .text content style =>
    let s := style.getD .plain
    s.enter.map .command ++ Signal.ofText (CodePage.encode content) ++
      .lineFeed :: s.leave.map .command
  | .feed lines => [.command (.feed lines)]
  | .cut => [.command Command.fullCut]

/-- The signals of a program: the commands of the preamble, then those of each primitive. -/
def Program.signals (p : Program) : List Signal :=
  [.command .reset, .command Command.selectPage437] ++ p.flatMap Op.signals

/-! ### Texts that hold no command -/

/-- What makes a command of an escape: a letter, or a separator with a letter. -/
def Printer.openers : List (List UInt8) :=
  [[0x40], [0x45], [0x46], [0x61], [0x64], [0x69], [0x1D, 0x74], [0x1D, 0x61]]

/-- No escape of a text opens a command. -/
def Printer.Inert (bs : List UInt8) : Prop :=
  ∀ opener ∈ openers, ¬ escape :: opener <:+: bs

theorem inert_nil : Inert [] := by
  intro opener _ h
  exact absurd (List.infix_nil.mp h) (List.cons_ne_nil _ _)

theorem inert_cons_iff (b : UInt8) (bs : List UInt8) :
    Inert (b :: bs) ↔ (b = escape → ∀ opener ∈ openers, ¬ opener <+: bs) ∧ Inert bs := by
  unfold Inert
  constructor
  · intro h
    refine ⟨fun hb opener ho hp => ?_, fun opener ho hi => ?_⟩
    · subst hb
      exact h opener ho (List.infix_cons_iff.mpr (.inl ((List.prefix_cons_inj escape).mpr hp)))
    · exact h opener ho (List.infix_cons_iff.mpr (.inr hi))
  · intro h opener ho hi
    obtain ⟨hhead, htail⟩ := h
    rcases List.infix_cons_iff.mp hi with hp | hi
    · obtain ⟨hb, hp⟩ := List.cons_prefix_cons.mp hp
      exact hhead hb.symm opener ho hp
    · exact htail opener ho hi

/-! ### One command, one text -/

namespace Printer.Signal

theorem ofBytes_cons (b : UInt8) (rest : List UInt8) :
    ofBytes (b :: rest) = (next b rest).1 :: ofBytes (next b rest).2 := by
  rw [ofBytes]

theorem ofBytes_nil : ofBytes [] = [] := by
  rw [ofBytes]

theorem ofBytes_command (c : Command) (rest : List UInt8) :
    ofBytes (c.bytes ++ rest) = .command c :: ofBytes rest := by
  cases c <;> exact ofBytes_cons _ _

theorem ofBytes_commands (cs : List Command) (rest : List UInt8) :
    ofBytes (cs.flatMap Command.bytes ++ rest) = cs.map .command ++ ofBytes rest := by
  induction cs with
  | nil => rfl
  | cons c cs ih =>
    rw [List.flatMap_cons, List.append_assoc, ofBytes_command, ih]
    rfl

/-- An opener is a command as soon as two more bytes are there. -/
theorem command?_of_opener {opener : List UInt8} (h : opener ∈ openers) (x y : UInt8)
    (rest : List UInt8) : ∃ c after, command? (opener ++ x :: y :: rest) = some (c, after) := by
  simp only [openers, List.mem_cons, List.not_mem_nil, or_false] at h
  rcases h with rfl | rfl | rfl | rfl | rfl | rfl | rfl | rfl <;> exact ⟨_, _, rfl⟩

/-- Behind an opener a line feed and one byte more are enough. -/
theorem command?_ne_none_of_prefix {opener bs : List UInt8} (ho : opener ∈ openers)
    (hp : opener <+: bs) (x : UInt8) (rest : List UInt8) :
    command? (bs ++ Printer.lineFeed :: x :: rest) ≠ none := by
  obtain ⟨after, rfl⟩ := hp
  have htwo : ∃ y z more, after ++ Printer.lineFeed :: x :: rest = y :: z :: more := by
    match after with
    | [] => exact ⟨_, _, _, rfl⟩
    | [y] => exact ⟨_, _, _, rfl⟩
    | y :: z :: more => exact ⟨_, _, _, rfl⟩
  obtain ⟨y, z, more, htwo⟩ := htwo
  obtain ⟨c, left, hsome⟩ := command?_of_opener ho y z more
  rw [List.append_assoc, htwo, hsome]
  exact Option.some_ne_none _

theorem opener_of_command? {bs after : List UInt8} {c : Command}
    (h : command? bs = some (c, after)) : ∃ opener ∈ openers, opener <+: bs := by
  unfold command? at h
  split at h
  · exact ⟨[0x40], by simp [openers], List.prefix_append _ _⟩
  · exact ⟨[0x1D, 0x74], by simp [openers], List.prefix_append [0x1D, 0x74] _⟩
  · exact ⟨[0x1D, 0x61], by simp [openers], List.prefix_append [0x1D, 0x61] _⟩
  · exact ⟨[0x45], by simp [openers], List.prefix_append _ _⟩
  · exact ⟨[0x46], by simp [openers], List.prefix_append _ _⟩
  · exact ⟨[0x69], by simp [openers], List.prefix_append [0x69] _⟩
  · exact ⟨[0x61], by simp [openers], List.prefix_append [0x61] _⟩
  · exact ⟨[0x64], by simp [openers], List.prefix_append [0x64] _⟩
  · cases h

/-- No opener reaches over a line feed. -/
theorem opener_prefix_of_append {opener bs rest : List UInt8} (ho : opener ∈ openers)
    (h : opener <+: bs ++ Printer.lineFeed :: rest) : opener <+: bs := by
  have hfree : ∀ o ∈ openers, Printer.lineFeed ∉ o := by decide
  exact prefix_of_append_cons (hfree opener ho) h

/-- A line feed behind bytes that start with no opener does not make them a command. -/
theorem command?_eq_none {bs : List UInt8} (h : ∀ opener ∈ openers, ¬ opener <+: bs)
    (rest : List UInt8) : command? (bs ++ Printer.lineFeed :: rest) = none := by
  cases hc : command? (bs ++ Printer.lineFeed :: rest) with
  | none => rfl
  | some found =>
    obtain ⟨opener, ho, hp⟩ := opener_of_command? hc
    exact absurd (opener_prefix_of_append ho hp) (h opener ho)

/-- The byte at hand is read as text unless it is an escape before a command. -/
theorem next_of_not_command {b : UInt8} {rest : List UInt8}
    (h : b = escape → command? rest = none) :
    next b rest = (if b = Printer.lineFeed then .lineFeed else .byte b, rest) := by
  unfold next
  by_cases hb : b = escape
  · subst hb
    rw [if_pos rfl, h rfl, if_neg (by decide)]
  · rw [if_neg hb]
    split <;> rfl

theorem command?_eq_none_of_next {b : UInt8} {rest : List UInt8}
    (h : (next escape rest).1 = if b = Printer.lineFeed then .lineFeed else .byte b) :
    command? rest = none := by
  cases hc : command? rest with
  | none => rfl
  | some found =>
    have hread : (next escape rest).1 = .command found.1 := by
      simp only [next, if_pos, hc]
    rw [hread] at h
    split at h <;> cases h

/-- A text without commands is read byte for byte. -/
theorem ofBytes_text {bs : List UInt8} (h : Inert bs) (rest : List UInt8) :
    ofBytes (bs ++ Printer.lineFeed :: rest) = ofText bs ++ .lineFeed :: ofBytes rest := by
  induction bs with
  | nil => exact ofBytes_cons _ _
  | cons b bs ih =>
    obtain ⟨hhead, htail⟩ := (inert_cons_iff b bs).mp h
    rw [List.cons_append, ofBytes_cons, next_of_not_command fun hb =>
      command?_eq_none (hhead hb) rest]
    dsimp only
    rw [ih htail]
    rfl

/-- If a text is read byte for byte, it holds no command, provided that a byte follows the line. -/
theorem inert_of_ofBytes_text {bs : List UInt8} {x : UInt8} {rest : List UInt8} {more : List Signal}
    (h : ofBytes (bs ++ Printer.lineFeed :: x :: rest) = ofText bs ++ more) : Inert bs := by
  induction bs with
  | nil => exact inert_nil
  | cons b bs ih =>
    rw [List.cons_append, ofBytes_cons] at h
    have hcommand : b = escape → command? (bs ++ Printer.lineFeed :: x :: rest) = none := by
      intro hb
      subst hb
      exact command?_eq_none_of_next (List.cons.inj h).1
    rw [next_of_not_command hcommand] at h
    obtain ⟨-, htail⟩ := List.cons.inj h
    refine (inert_cons_iff b bs).mpr ⟨fun hb opener ho hp => ?_, ih htail⟩
    exact command?_ne_none_of_prefix ho hp x rest (hcommand hb)

end Printer.Signal

/-! ### Programs -/

open Printer.Signal

/-- The texts of a program hold no commands. -/
def Program.Inert (p : Program) : Prop :=
  ∀ line ∈ p.lines, Printer.Inert (CodePage.encode line)

theorem inert_cons {op : Op} {p : Program} :
    Program.Inert (op :: p) ↔
      (∀ content style, op = .text content style → Printer.Inert (CodePage.encode content)) ∧
        p.Inert := by
  unfold Program.Inert Program.lines
  cases op with
  | text content style =>
    simp only [List.filterMap_cons, Op.line?, List.forall_mem_cons]
    refine and_congr_left fun _ => ⟨fun h c s he => ?_, fun h => h content style rfl⟩
    cases he
    exact h
  | align a => exact ⟨fun h => ⟨nofun, h⟩, fun h => h.2⟩
  | feed n => exact ⟨fun h => ⟨nofun, h⟩, fun h => h.2⟩
  | cut => exact ⟨fun h => ⟨nofun, h⟩, fun h => h.2⟩

/-- Without a text in the way a primitive is read as it is meant, whatever follows it. -/
theorem ofBytes_op {op : Op}
    (h : ∀ content style, op = .text content style → Printer.Inert (CodePage.encode content))
    (rest : List UInt8) : ofBytes (op.bytes ++ rest) = op.signals ++ ofBytes rest := by
  cases op with
  | align a => exact ofBytes_command (Command.alignTo a) rest
  | feed n => exact ofBytes_command (.feed n) rest
  | cut => exact ofBytes_command Command.fullCut rest
  | text content style =>
    simp only [Op.bytes, Op.signals, List.append_assoc, List.cons_append]
    rw [ofBytes_commands, ofBytes_text (h content style rfl), ofBytes_commands]

theorem ofBytes_ops {p : Program} (h : p.Inert) (rest : List UInt8) :
    ofBytes (p.flatMap Op.bytes ++ rest) = p.flatMap Op.signals ++ ofBytes rest := by
  induction p with
  | nil => rfl
  | cons op p ih =>
    obtain ⟨hop, hp⟩ := inert_cons.mp h
    rw [List.flatMap_cons, List.flatMap_cons, List.append_assoc, List.append_assoc, ofBytes_op hop,
      ih hp]

theorem ofBytes_preamble (rest : List UInt8) :
    ofBytes (Program.preamble ++ rest) =
      [.command .reset, .command Command.selectPage437] ++ ofBytes rest := by
  unfold Program.preamble
  rw [List.append_assoc, ofBytes_command, ofBytes_command]
  rfl

/-- A job whose texts hold no commands is read as it is meant. -/
theorem ofBytes_toBytes {p : Program} (h : p.Inert) : ofBytes p.toBytes = p.signals := by
  unfold Program.toBytes Program.signals
  have hops := ofBytes_ops h []
  rw [List.append_nil, ofBytes_nil, List.append_nil] at hops
  rw [ofBytes_preamble, hops]

/-- A stretch of a job that is read as it is meant holds no commands in its texts. -/
theorem inert_of_ofBytes_ops {p : Program} {x : UInt8} {rest : List UInt8} {more : List Signal}
    (h : ofBytes (p.flatMap Op.bytes ++ x :: rest) = p.flatMap Op.signals ++ more) : p.Inert := by
  induction p with
  | nil => exact fun line hline => absurd hline List.not_mem_nil
  | cons op p ih =>
    have hop : ∀ content style, op = .text content style →
        Printer.Inert (CodePage.encode content) := by
      intro content style he
      subst he
      have hne : (style.getD .plain).leave.flatMap Command.bytes ++
          (p.flatMap Op.bytes ++ x :: rest) ≠ [] := by simp
      obtain ⟨y, left, hleft⟩ := List.exists_cons_of_ne_nil hne
      simp only [List.flatMap_cons, Op.bytes, Op.signals, List.append_assoc, List.cons_append,
        ofBytes_commands, hleft] at h
      exact inert_of_ofBytes_text (List.append_cancel_left h)
    refine inert_cons.mpr ⟨hop, ih ?_⟩
    rw [List.flatMap_cons, List.flatMap_cons, List.append_assoc, List.append_assoc,
      ofBytes_op hop] at h
    exact List.append_cancel_left h

end Receipt
