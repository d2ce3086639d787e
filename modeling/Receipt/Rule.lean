import Receipt.Json.Record
import Receipt.Order.Basic
import Receipt.Style

/-!
# Rules for section types

What a section type means: whether it prints text or feeds paper, and what stands in for the values
that a section leaves open. Rules are written as records; every field may be left out.
-/

namespace Receipt

inductive Rule.Kind where
  /-- Prints its content. -/
  | text
  /-- Feeds blank lines. -/
  | spacer
deriving DecidableEq, Repr

namespace Rule.Kind

def name : Kind → String
  | text => "text"
  | spacer => "spacer"

def words : Json.Words Kind :=
  [text, spacer].map fun k => (k.name, k)

end Rule.Kind

/-- When a section of some type is bold. -/
inductive Rule.Emphasis where
  /-- If its style says so. -/
  | plain
  /-- Unless its style says otherwise. -/
  | bold
  /-- Whatever its style says. -/
  | alwaysBold
deriving DecidableEq, Repr

namespace Rule.Emphasis

def name : Emphasis → String
  | plain => "plain"
  | bold => "bold"
  | alwaysBold => "always_bold"

def words : Json.Words Emphasis :=
  [plain, bold, alwaysBold].map fun e => (e.name, e)

/-- Whether a section is bold, given what its style says. -/
def isBold (e : Emphasis) (style : Option Bool) : Bool :=
  match e with
  | plain => style.getD false
  | bold => style.getD true
  | alwaysBold => true

end Rule.Emphasis

structure Rule where
  kind : Rule.Kind := .text
  alignment : Option Alignment := none
  /-- Printed by a section without content. -/
  content : Option String := none
  emphasis : Rule.Emphasis := .plain
  size : TextSize := .normal
  /-- Whether each line of the content is printed and fed on its own. -/
  multiline : Bool := false
  /-- The part of an order that replaces the content. -/
  binding : Option Order.Part := none
deriving DecidableEq, Repr, Inhabited

namespace Rule

open Json

/-- A field that is filled by a reader. -/
def field {α : Type} (name : String) (reader : Nat → Reader α) (set : Rule → α → Rule) :
    Record.Field Rule where
  name := name
  read depth rule cs := do
    let (a, rest) ← reader depth cs
    pure (set rule a, rest)

def record : Record Rule where
  name := "SectionRule"
  blank := {}
  fields := [
    field "kind" Kind.words.read fun rule kind => { rule with kind },
    field "alignment" (fun depth => readOption (Words.read Alignment.words depth))
      fun rule alignment => { rule with alignment },
    field "content" (fun _ => readOption Scalar.text.read) fun rule content => { rule with content },
    field "emphasis" Emphasis.words.read fun rule emphasis => { rule with emphasis },
    field "size" (Words.read TextSize.words) fun rule size => { rule with size },
    field "multiline" (fun _ => Scalar.boolean.read) fun rule multiline => { rule with multiline },
    field "binding" (fun depth => readOption (Words.read Order.Part.words depth))
      fun rule binding => { rule with binding }]

def read (text : String) : Except Json.Error Rule :=
  readWhole (record.read maxDepth) text

def orNull (v : Option Value) : Value :=
  v.getD .null

/-- A rule as a value; what is not there is null. -/
def toValue (r : Rule) : Value :=
  .object [
    ("kind", .text r.kind.name),
    ("alignment", orNull (r.alignment.map (.text ·.name))),
    ("content", orNull (r.content.map .text)),
    ("emphasis", .text r.emphasis.name),
    ("size", .text r.size.name),
    ("multiline", .boolean r.multiline),
    ("binding", orNull (r.binding.map (.text ·.name)))]

end Rule

end Receipt
