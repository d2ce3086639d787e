import Receipt.Json.Writer
import Receipt.Layout.Basic

/-!
# Writing layouts

A layout is written as a document of its own, over several lines. What a section leaves open is not
written.
-/

namespace Receipt

open Json

def SectionStyle.toValue (s : SectionStyle) : Value :=
  .object (member? "bold" (s.bold.map .boolean) ++ member? "size" (s.size.map (.text ·.name)))

def Section.toValue (s : Section) : Value :=
  .object (
    ("type", .text s.tag) ::
      member? "content" (s.content.map .text) ++
      member? "alignment" (s.alignment.map (.text ·.name)) ++
      member? "lines" (s.lines.map fun n => .integer n.toNat) ++
      member? "style" (s.style.map SectionStyle.toValue))

namespace Layout

def toValue (l : Layout) : Value :=
  .object (
    member? "alignment" (l.alignment.map (.text ·.name)) ++
      [("sections", .array (l.sections.map Section.toValue))])

def toDocument (l : Layout) : Value :=
  .object [("layout", l.toValue)]

def write (l : Layout) : String :=
  l.toDocument.pretty

end Layout

end Receipt
