import Receipt.Style

/-!
# Programs of printer primitives

A receipt is a list of primitives, one `Op` each, that is complete before anything reaches a
printer. `Program.replay` issues a program to whatever can take primitives one at a time: another
program, which records them, or a preview, which draws them.
-/

namespace Receipt

/-- One printer primitive. -/
inductive Op where
  /-- Sets the alignment of the lines that follow. -/
  | align (alignment : Alignment)
  /-- Prints one line; without a style it is plain. -/
  | text (content : String) (style : Option TextStyle)
  /-- Advances the paper by some lines. -/
  | feed (lines : UInt8)
  /-- Cuts the paper. -/
  | cut
deriving DecidableEq, Repr, Inhabited

abbrev Program := List Op

/-- Something that takes primitives one after the other. -/
class Printer (σ : Type) where
  /-- The printer after one more primitive. -/
  issue : σ → Op → σ

namespace Op

/-- The printed text, if the primitive prints one. -/
def line? : Op → Option String
  | text content _ => some content
  | _ => none

def isFeed : Op → Bool
  | feed _ => true
  | _ => false

def alignment? : Op → Option Alignment
  | align a => some a
  | _ => none

/-- The alignment of later lines, given the one in force before the primitive. -/
def register (before : Alignment) : Op → Alignment
  | align a => a
  | _ => before

end Op

namespace Program

/-- The texts of a program, in order. -/
def lines (p : Program) : List String :=
  p.filterMap Op.line?

def feeds (p : Program) : Nat :=
  p.countP Op.isFeed

/-- The alignment in force after a program. -/
def register (p : Program) (before : Alignment) : Alignment :=
  p.foldl Op.register before

/-- The alignment that a program sets last, if it sets one. -/
def lastAlignment? (p : Program) : Option Alignment :=
  p.reverse.findSome? Op.alignment?

/-- What ends every receipt: two blank lines past the tear bar, then the cut. -/
def ending : Program :=
  [.feed 2, .cut]

/-- Issues every primitive of a program to a printer, in order. -/
def replay {σ : Type} [Printer σ] (p : Program) (printer : σ) : σ :=
  p.foldl Printer.issue printer

/-- A program is a printer that records what it is told. -/
instance : Printer Program where
  issue recorded op := recorded ++ [op]

@[simp] theorem lines_append (p q : Program) : lines (p ++ q) = lines p ++ lines q := by
  simp [lines]

@[simp] theorem register_nil (a : Alignment) : register [] a = a := rfl

@[simp] theorem register_append (p q : Program) (a : Alignment) :
    register (p ++ q) a = register q (register p a) := by
  simp [register]

/-- Of several alignments the last one counts, and without any the one before the program stays. -/
theorem register_eq_lastAlignment? (p : Program) (a : Alignment) :
    p.register a = p.lastAlignment?.getD a := by
  unfold lastAlignment?
  induction p generalizing a with
  | nil => rfl
  | cons op p ih =>
    have hstep : register (op :: p) a = register p (op.register a) := rfl
    rw [hstep, ih, List.reverse_cons, List.findSome?_append]
    cases p.reverse.findSome? Op.alignment? with
    | some b => rfl
    | none => cases op <;> rfl

@[simp] theorem replay_nil {σ : Type} [Printer σ] (printer : σ) : replay [] printer = printer := rfl

/-- Replaying onto a program appends. -/
theorem replay_program (p recorded : Program) : p.replay recorded = recorded ++ p := by
  induction p generalizing recorded with
  | nil => simp [replay]
  | cons op p ih =>
    have step : replay (op :: p) recorded = replay p (recorded ++ [op]) := rfl
    rw [step, ih, List.append_assoc, List.singleton_append]

end Program

end Receipt
