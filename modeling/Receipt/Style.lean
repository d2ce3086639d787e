/-!
# How a line is set

A line of a receipt has a place on the paper (`Alignment`) and a look (`TextStyle`). This file holds
both, with the words under which layouts, orders and settings spell them. It does not say how a
printer shows them; that is the business of `Receipt.Printer`.
-/

namespace Receipt

/-- The side of the paper on which a line stands. -/
inductive Alignment where
  | left
  | center
  | right
deriving DecidableEq, Repr, Inhabited

namespace Alignment

def name : Alignment → String
  | left => "LEFT"
  | center => "CENTER"
  | right => "RIGHT"

/-- Every word that is read as an alignment, with its meaning, in the order in which they are listed. -/
def words : List (String × Alignment) :=
  [("LEFT", left), ("left", left), ("CENTER", center), ("center", center),
    ("RIGHT", right), ("right", right)]

end Alignment

/-- The height and width of the characters of a line. -/
inductive TextSize where
  | normal
  /-- Twice as high and twice as wide. -/
  | large
deriving DecidableEq, Repr, Inhabited

namespace TextSize

def name : TextSize → String
  | normal => "NORMAL"
  | large => "LARGE"

/-- Every word that is read as a size, with its meaning, in the order in which they are listed. -/
def words : List (String × TextSize) :=
  [("NORMAL", normal), ("normal", normal), ("LARGE", large), ("large", large)]

/-- The columns that one character takes. -/
def columns : TextSize → Nat
  | normal => 1
  | large => 2

end TextSize

/-- The look of one line. -/
structure TextStyle where
  bold : Bool := false
  size : TextSize := .normal
deriving DecidableEq, Repr, Inhabited

namespace TextStyle

def plain : TextStyle := {}

def emphasis : TextStyle := { bold := true }

/-- The style as a line carries it: a plain line carries none at all. -/
def mark (s : TextStyle) : Option TextStyle :=
  if s = plain then none else some s

theorem mark_ne_plain (s : TextStyle) : s.mark ≠ some plain := by
  unfold mark
  split <;> simp_all

end TextStyle

end Receipt
