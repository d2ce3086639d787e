import Receipt.Printer.Command

/-!
# The printer as a machine

What a printer makes of the bytes it is sent. The stream is read as signals: a command, a line feed,
or one byte of text. An escape that opens none of the commands of `Receipt.Printer.Command`, or that
the stream breaks off, is text like any other byte. The machine keeps an alignment, an emphasis and a
size register and the line collected so far; each line feed, paper feed and cut is an event on paper.

The machine has no notion of paper width: whether a line fits is not modelled here.
-/

namespace Receipt.Printer

/-- One unit of the byte stream. -/
inductive Signal where
  | command (c : Command)
  | lineFeed
  | byte (b : UInt8)
deriving DecidableEq, Repr

namespace Signal

/-- The command that the bytes after an escape spell, with what follows it. -/
def command? : List UInt8 → Option (Command × List UInt8)
  | 0x40 :: rest => some (.reset, rest)
  | 0x1D :: 0x74 :: page :: rest => some (.codePage page, rest)
  | 0x1D :: 0x61 :: register :: rest => some (.align register, rest)
  | 0x45 :: rest => some (.boldOn, rest)
  | 0x46 :: rest => some (.boldOff, rest)
  | 0x69 :: height :: width :: rest => some (.size height width, rest)
  | 0x61 :: lines :: rest => some (.feed lines, rest)
  | 0x64 :: mode :: rest => some (.cut mode, rest)
  | _ => none

/-- The first signal of a stream that starts with `b`, with what follows it. -/
def next (b : UInt8) (rest : List UInt8) : Signal × List UInt8 :=
  if b = escape then
    match command? rest with
    | some (c, rest) => (command c, rest)
    | none => (byte b, rest)
  else if b = Printer.lineFeed then (lineFeed, rest)
  else (byte b, rest)

theorem length_command? {bs rest : List UInt8} {c : Command} (h : command? bs = some (c, rest)) :
    rest.length < bs.length := by
  unfold command? at h
  split at h <;> simp at h <;> obtain ⟨_, rfl⟩ := h <;> simp <;> omega

theorem length_next (b : UInt8) (rest : List UInt8) : (next b rest).2.length ≤ rest.length := by
  unfold next
  split
  · split
    · next c after h => exact Nat.le_of_lt (length_command? h)
    · exact Nat.le_refl _
  · split <;> exact Nat.le_refl _

/-- The signals of a byte stream, in order. -/
def ofBytes : List UInt8 → List Signal
  | [] => []
  | b :: rest => (next b rest).1 :: ofBytes (next b rest).2
termination_by bs => bs.length
decreasing_by
  have := length_next b rest
  simp only [List.length_cons]
  omega

end Signal

/-- What happens on the paper. -/
inductive Event where
  /-- A line is printed with the registers in force. -/
  | printed (line : List UInt8) (alignment : UInt8) (bold : Bool) (height width : UInt8)
  /-- The paper is fed. -/
  | fed (lines : UInt8)
  /-- The paper is cut. -/
  | cut (mode : UInt8)
deriving DecidableEq, Repr

/-- The registers and the line buffer of a printer. -/
structure Machine where
  alignment : UInt8 := 0
  bold : Bool := false
  height : UInt8 := 0
  width : UInt8 := 0
  page : UInt8 := 0
  buffer : List UInt8 := []
deriving DecidableEq, Repr

namespace Machine

/-- One signal: the machine afterwards, and the event it causes, if any. -/
def step (m : Machine) : Signal → Machine × Option Event
  | .byte b => ({ m with buffer := m.buffer ++ [b] }, none)
  | .lineFeed =>
    ({ m with buffer := [] }, some (.printed m.buffer m.alignment m.bold m.height m.width))
  | .command .reset => ({ page := m.page }, none)
  | .command (.codePage page) => ({ m with page }, none)
  | .command (.align alignment) => ({ m with alignment }, none)
  | .command .boldOn => ({ m with bold := true }, none)
  | .command .boldOff => ({ m with bold := false }, none)
  | .command (.size height width) => ({ m with height, width }, none)
  | .command (.feed lines) => (m, some (.fed lines))
  | .command (.cut mode) => (m, some (.cut mode))

/-- The machine after a list of signals, and the events in order. -/
def run (m : Machine) : List Signal → Machine × List Event
  | [] => (m, [])
  | s :: rest =>
    let (next, event) := m.step s
    let (last, events) := next.run rest
    (last, event.toList ++ events)

/-- A run may be cut at any signal. -/
theorem run_append (m : Machine) (ss ts : List Signal) :
    m.run (ss ++ ts) =
      (((m.run ss).1.run ts).1, (m.run ss).2 ++ ((m.run ss).1.run ts).2) := by
  induction ss generalizing m with
  | nil => simp [run]
  | cons s ss ih => simp [run, ih]

end Machine

end Receipt.Printer
