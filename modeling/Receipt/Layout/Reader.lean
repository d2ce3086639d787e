import Receipt.Json.Reader
import Receipt.Json.Scalar
import Receipt.Layout.Basic

/-!
# Reading layouts

A document is read as a whole first; then its layout is taken from the value. The fields of a section
are judged in the order of their keys, and the first fault counts. Fields that are missing or null are
left open, and unknown keys mean nothing. An alignment that is no alignment is dropped where it is
written by its key; all other values must fit.

A structure may also be written as an array of its fields, and a word as the only key of an object
whose value is null.
-/

namespace Receipt

open Json

/-- Why a section cannot be taken from a value. -/
inductive Section.Fault where
  | mismatch (m : Mismatch)
  /-- The section asks for no lines at all. -/
  | noLines
deriving DecidableEq, Repr

def Section.Fault.message : Section.Fault → String
  | mismatch m => m.message
  | noLines => "lines must be at least 1"

/-- Why a layout cannot be read. -/
inductive Layout.Fault where
  /-- The text is no proper JSON. -/
  | notJson (e : Json.Error)
  | notAnObject
  /-- The layout is no object. -/
  | layoutNotAnObject
  /-- The sections are no array. -/
  | sectionsNotAnArray
  | noSections
  /-- The section at an index cannot be read. -/
  | badSection (index : Nat) (fault : Section.Fault)
deriving DecidableEq, Repr

def Layout.Fault.message : Layout.Fault → String
  | notJson e => "invalid JSON: " ++ e.message
  | notAnObject => "document must be a JSON object"
  | layoutNotAnObject => "invalid layout: expected an object"
  | sectionsNotAnArray => "invalid layout: sections must be an array"
  | noSections => "layout has no sections array"
  | badSection index fault => "section " ++ toString index ++ ": " ++ fault.message

namespace SectionStyle

def ofFields (bold size : Option Value) : Except Mismatch SectionStyle := do
  let bold ← optional Scalar.boolean.ofValue bold
  let size ← optional (Words.ofValue TextSize.words) size
  pure { bold, size }

def ofValue : Value → Except Mismatch SectionStyle
  | .object members => ofFields (Members.value? members "bold") (Members.value? members "size")
  | .array items => do
    let style ← ofFields items[0]? items[1]?
    atMost 2 items
    pure style
  | v => throw (.wrongType (.ofValue v) "struct SectionStyle")

end SectionStyle

namespace Section

/-- The alignment that a value spells, if it spells one. -/
def alignmentOf? (v : Option Value) : Option Alignment :=
  v.bind fun v => (Words.ofValue Alignment.words v).toOption

def ofMembers (members : Members) : Except Mismatch Section := do
  let content ← optional Scalar.text.ofValue (Members.value? members "content")
  let lines ← optional Scalar.word32.ofValue (Members.value? members "lines")
  let style ← optional SectionStyle.ofValue (Members.value? members "style")
  let some tag := Members.value? members "type" | throw (.missingField "type")
  let tag ← Scalar.text.ofValue tag
  pure { tag, content, alignment := alignmentOf? (Members.value? members "alignment"), lines, style }

/-- The section that an array of its fields describes. -/
def ofItems (items : List Value) : Except Mismatch Section := do
  let some tag := items[0]? | throw (.wrongLength 0 "struct Section with 5 elements")
  let tag ← Scalar.text.ofValue tag
  let content ← optional Scalar.text.ofValue items[1]?
  let alignment ← optional (Words.ofValue Alignment.words) items[2]?
  let lines ← optional Scalar.word32.ofValue items[3]?
  let style ← optional SectionStyle.ofValue items[4]?
  atMost 5 items
  pure { tag, content, alignment, lines, style }

/-- The section that a value describes, before its lines are judged. -/
def decode : Value → Except Mismatch Section
  | .object members => ofMembers members
  | .array items => ofItems items
  | v => throw (.wrongType (.ofValue v) "struct Section")

def ofValue (v : Value) : Except Fault Section := do
  let s ← (decode v).mapError .mismatch
  if s.lines = some 0 then throw .noLines
  pure s

end Section

namespace Layout

/-- The sections of an array, up to the first that cannot be read; `index` is that of the first. -/
def sectionsOf (index : Nat) : List Value → Except Fault (List Section)
  | [] => pure []
  | v :: vs => do
    let s ← (Section.ofValue v).mapError (.badSection index)
    let rest ← sectionsOf (index + 1) vs
    pure (s :: rest)

def ofValue : Value → Except Fault Layout
  | .object members => do
    let alignment := Section.alignmentOf? (Members.value? members "alignment")
    match Members.value? members "sections" with
    | none => throw .noSections
    | some .null => throw .noSections
    | some (.array items) => do
      let sections ← sectionsOf 0 items
      pure { alignment, sections }
    | some _ => throw .sectionsNotAnArray
  | _ => throw .layoutNotAnObject

/-- The layout of a document, if it has one. -/
def ofDocument : Value → Except Fault (Option Layout)
  | .object members =>
    match Members.value? members "layout" with
    | none => pure none
    | some v => some <$> ofValue v
  | _ => throw .notAnObject

/-- Reads the layout of a document, if it has one. -/
def read? (text : String) : Except Fault (Option Layout) := do
  let v ← (Value.read text).mapError .notJson
  ofDocument v

/-- Reads a layout; a document without one has the fallback. -/
def read (text : String) : Except Fault Layout := do
  let layout ← read? text
  pure (layout.getD fallback)

end Layout

end Receipt
