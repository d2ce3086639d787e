import Receipt.Program
import Receipt.Printer.CodePage
import Receipt.Printer.Command

/-!
# Print jobs

A program becomes one job: the printer is reset and told the code page, then each primitive is sent.
The reset makes a job independent of what an earlier one left behind. A styled line is bracketed by
the commands that switch its style on and off again, so a style ends with its line.
-/

namespace Receipt

open Printer

namespace TextStyle

def enter (s : TextStyle) : List Command :=
  (if s.bold then [.boldOn] else []) ++ (if s.size = .large then [.doubleSize] else [])

/-- The commands that switch a style off, in the opposite order. -/
def leave (s : TextStyle) : List Command :=
  (if s.size = .large then [.normalSize] else []) ++ (if s.bold then [.boldOff] else [])

end TextStyle

def Op.bytes : Op → List UInt8
  | .align a => (Command.alignTo a).bytes
  | .text content style =>
    let s := style.getD .plain
    s.enter.flatMap Command.bytes ++ CodePage.encode content ++
      lineFeed :: s.leave.flatMap Command.bytes
  | .feed lines => (Command.feed lines).bytes
  | .cut => Command.fullCut.bytes

/-- What every job starts with. -/
def Program.preamble : List UInt8 :=
  Command.reset.bytes ++ Command.selectPage437.bytes

/-- The bytes of a program. -/
def Program.toBytes (p : Program) : List UInt8 :=
  Program.preamble ++ p.flatMap Op.bytes

end Receipt
