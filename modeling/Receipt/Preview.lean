import Receipt.Chunks
import Receipt.Program
import Receipt.Text

/-!
# Text preview

A printer whose paper is a list of text lines. It keeps an alignment register, wraps lines that are
wider than the paper, pads each line to its place and drops the blanks at its end. A large character
takes two columns. Boldness leaves no trace.

Paper so wide that no text could hold its padding, of `2 ^ 63` columns or more, is left out: it has lines
here like all other paper, where a preview made of real texts would have to give up.
-/

namespace Receipt

/-- A roll of paper on which receipts are drawn as text. -/
structure Preview where
  /-- The columns of the paper. -/
  width : Nat
  /-- The alignment of the next line. -/
  alignment : Alignment := .left
  /-- The lines drawn so far. -/
  lines : Array String := #[]
  width_pos : 0 < width := by omega

namespace Preview

/-- An empty roll; paper of no width counts as one column wide. -/
def blank (width : Nat) : Preview where
  width := max width 1
  width_pos := Nat.le_max_right width 1

/-- Cuts a line into pieces of at most `n + 1` characters; an empty line is one empty piece. -/
def pieces (n : Nat) : List Char → List (List Char)
  | [] => [[]]
  | c :: cs => chunks n (c :: cs)

/-- The columns left of a text that takes `taken` of `width` columns. -/
def margin (width taken : Nat) : Alignment → Nat
  | .left => 0
  | .center => (width - taken) / 2
  | .right => width - taken

/-- The characters of a piece as they are drawn: a large one is followed by a space. -/
def spread (size : TextSize) (cs : List Char) : List Char :=
  match size with
  | .normal => cs
  | .large => cs.flatMap fun c => [c, ' ']

/-- One piece of a line, in its place and without blanks at the end. -/
def place (width : Nat) (a : Alignment) (size : TextSize) (piece : List Char) : List Char :=
  Text.trimEnd
    (List.replicate (margin width (piece.length * size.columns) a) ' ' ++ spread size piece)

/-- The lines that a text takes; an empty line stays empty wherever it stands. -/
def textLines (width : Nat) (a : Alignment) (size : TextSize) (content : List Char) :
    List (List Char) :=
  (content.splitOn '\n').flatMap fun line =>
    (pieces (width / size.columns - 1) line).map (place width a size)

/-- The line that stands for a cut: dashes across the paper around the word. -/
def cutLine (width : Nat) : List Char :=
  let side := (width - 5) / 2
  List.replicate side '-' ++ " cut ".toList ++ List.replicate (width - (side + 5)) '-'

/-- The lines that one primitive adds to paper of some width under some alignment. -/
def drawn (width : Nat) (a : Alignment) : Op → List String
  | .align _ => []
  | .text content style =>
    (textLines width a (style.getD .plain).size content.toList).map String.ofList
  | .feed lines => List.replicate lines.toNat ""
  | .cut => [String.ofList (cutLine width)]

instance : Printer Preview where
  issue p op :=
    { p with
      alignment := op.register p.alignment
      lines := p.lines ++ drawn p.width p.alignment op }

/-- The whole roll as one text, each line ended by a line feed. -/
def toText (p : Preview) : String :=
  "\n".intercalate p.lines.toList ++ "\n"

/-- The preview of a program on paper of some width. -/
def render (p : Program) (width : Nat) : String :=
  (p.replay (blank width)).toText

@[simp] theorem width_issue (p : Preview) (op : Op) : (Printer.issue p op).width = p.width := rfl

@[simp] theorem alignment_issue (p : Preview) (op : Op) :
    (Printer.issue p op).alignment = op.register p.alignment := rfl

@[simp] theorem lines_issue (p : Preview) (op : Op) :
    (Printer.issue p op).lines.toList = p.lines.toList ++ drawn p.width p.alignment op := by
  simp [Printer.issue]

end Preview

end Receipt
