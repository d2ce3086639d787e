import Receipt.Program
import Receipt.Text

/-!
# Dumps of programs

A program as lines for a reader, one line for each primitive. The text of a line is quoted, so a line
feed in it does not end the line of the dump.
-/

namespace Receipt

/-- The word that a dump uses for an alignment. -/
def Alignment.dump : Alignment → String
  | left => "Left"
  | center => "Center"
  | right => "Right"

/-- The word that a dump uses for a size. -/
def TextSize.dump : TextSize → String
  | normal => "Normal"
  | large => "Large"

def TextStyle.dump (s : TextStyle) : String :=
  "TextStyle \x7b bold: " ++ toString s.bold ++ ", size: " ++ s.size.dump ++ " \x7d"

/-- The style of a line as a dump shows it. -/
def TextStyle.dumpMark : Option TextStyle → String
  | none => "None"
  | some s => "Some(" ++ s.dump ++ ")"

def Op.dump : Op → String
  | align a => "SetAlign(" ++ a.dump ++ ")"
  | text content style =>
    "Text \x7b content: " ++ Text.quoted content ++ ", style: " ++ TextStyle.dumpMark style ++ " \x7d"
  | feed lines => "Feed \x7b lines: " ++ toString lines.toNat ++ " \x7d"
  | cut => "Cut"

/-- A program as a dump; every primitive ends its line. -/
def Program.dump (p : Program) : String :=
  String.join (p.map fun op => op.dump ++ "\n")

end Receipt
