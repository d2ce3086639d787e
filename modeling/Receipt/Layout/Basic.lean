import Receipt.Style

/-!
# Layouts

A layout is a list of typed sections in the order of print. Everything but the type of a section may be
left open; what then holds is decided by the rule of the type. A style without any setting is not the
same as no style at all, since the two are written differently.
-/

namespace Receipt

/-- The look that a section asks for. -/
structure SectionStyle where
  bold : Option Bool := none
  size : Option TextSize := none
deriving DecidableEq, Repr, Inhabited

structure Section where
  /-- The type of the section. -/
  tag : String
  content : Option String := none
  alignment : Option Alignment := none
  /-- The blank lines that a spacer feeds. -/
  lines : Option UInt32 := none
  style : Option SectionStyle := none
deriving DecidableEq, Repr, Inhabited

namespace Section

def spacer (lines : UInt32) : Section where
  tag := "spacer"
  lines := some lines

def restyle (s : Section) (change : SectionStyle → SectionStyle) : Section :=
  { s with style := some (change (s.style.getD {})) }

/-- A section that asks to be bold, or not to be. -/
def withBold (s : Section) (bold : Bool) : Section :=
  s.restyle fun style => { style with bold := some bold }

def withSize (s : Section) (size : TextSize) : Section :=
  s.restyle fun style => { style with size := some size }

end Section

structure Layout where
  /-- The alignment written for the whole document. It is kept, and no section inherits it. -/
  alignment : Option Alignment := none
  sections : List Section
deriving DecidableEq, Repr, Inhabited

namespace Layout

/-- The text printed for a document without a layout. -/
def absentNotice : String := "No layout found in JSON"

/-- The layout that stands for a document without one. -/
def fallback : Layout where
  sections := [{ tag := "text", content := some absentNotice, alignment := some .center }]

end Layout

end Receipt
