import Receipt.Json.Writer
import Receipt.Vocabulary

/-!
# Configurations

The switches of a dialect and the section types that it adds or replaces, with the file format that
holds both. A configuration is written as an object: four options and `section_types`. The options are
judged only after the whole object has been read, in the order of the text; a fault in one of them is
therefore reported at the end of the object. Other keys mean nothing, but their values must be proper.
-/

namespace Receipt

open Json

/-- What becomes of a section whose type is not known. -/
inductive UnknownPolicy where
  /-- It leaves no trace. -/
  | skip
  /-- The receipt fails. -/
  | error
deriving DecidableEq, Repr, Inhabited

namespace UnknownPolicy

def name : UnknownPolicy → String
  | skip => "skip"
  | error => "error"

def words : Words UnknownPolicy :=
  [skip, error].map fun p => (p.name, p)

end UnknownPolicy

/-- The switches of a dialect. -/
structure Options where
  /-- Feeds a line behind every section of a single line. -/
  autoFeed : Bool := false
  /-- Replaces placeholders in the content of sections. -/
  placeholders : Bool := true
  unknownSections : UnknownPolicy := .skip
  /-- The columns of order lines. -/
  lineWidth : UInt64 := 32
deriving DecidableEq, Repr, Inhabited

structure Config where
  options : Options := {}
  /-- The section types that the dialect adds or replaces. -/
  sectionTypes : TagMap Rule := ∅
deriving DecidableEq, Inhabited

namespace Config

/-- The standard vocabulary with the section types of a configuration. -/
def vocabulary (c : Config) : Vocabulary :=
  Vocabulary.standard.insertAll c.sectionTypes.entries

/-! ### Writing -/

def toValue (c : Config) : Value :=
  .object [
    ("auto_feed", .boolean c.options.autoFeed),
    ("placeholders", .boolean c.options.placeholders),
    ("unknown_sections", .text c.options.unknownSections.name),
    ("line_width", .integer c.options.lineWidth.toNat),
    ("section_types",
      .object (c.sectionTypes.entries.map fun (tag, rule) => (tag, rule.toValue)))]

def write (c : Config) : String :=
  c.toValue.compact

/-! ### Reading -/

/-- A policy as a value: a word, or an object that holds the word as its only key. What that key holds
must be null or an empty object. -/
def policyOf : Value → Except Mismatch UnknownPolicy
  | .text word => UnknownPolicy.words.meaning word
  | .object [(word, value)] => do
    let policy ← UnknownPolicy.words.meaning word
    match value with
    | .null => pure policy
    | .object [] => pure policy
    | v => throw (.wrongType (.ofValue v) "unit")
  | .object _ => .error (.wrongValue .map "map with a single key")
  | v => .error (.wrongType (.ofValue v) "string or map")

/-- The effect of an option, by its key; other keys have none. -/
def option? (key : String) : Option (Value → Options → Except Mismatch Options) :=
  match key with
  | "auto_feed" => some fun v o => do pure { o with autoFeed := ← Scalar.boolean.ofValue v }
  | "placeholders" => some fun v o => do pure { o with placeholders := ← Scalar.boolean.ofValue v }
  | "unknown_sections" => some fun v o => do pure { o with unknownSections := ← policyOf v }
  | "line_width" => some fun v o => do pure { o with lineWidth := ← Scalar.word64.ofValue v }
  | _ => none

/-- The options that a list of members tells, in its order; `seen` are the keys of those before. -/
def optionsOf (seen : List String) (o : Options) : Members → Except Mismatch Options
  | [] => pure o
  | (key, v) :: rest =>
    match option? key with
    | none => optionsOf seen o rest
    | some set => do
      if key ∈ seen then throw (.duplicateField key)
      optionsOf (key :: seen) (← set v o) rest

def readSectionTypes (depth : Nat) : Reader (TagMap Rule) := fun cs =>
  match skipSpace cs with
  | '{' :: rest => nested depth (fun depth => readObject (entry depth) ∅) '{' rest
  | _ => refuseNext "a map" cs
where
  entry (depth : Nat) (tag : String) (types : TagMap Rule) : Reader (TagMap Rule) := fun cs => do
    let (rule, rest) ← Rule.record.read depth (← readColon cs)
    pure (types.insert tag rule, rest)

/-- What has been read of a configuration: its section types, and the other members, last first. -/
structure Draft where
  sectionTypes : Option (TagMap Rule) := none
  others : Members := []

def readMember (depth : Nat) (key : String) (draft : Draft) : Reader Draft := fun cs =>
  if key = "section_types" then
    match draft.sectionTypes with
    | some _ => refuse (.duplicateField key) (Record.passCloser '}' cs)
    | none => do
      let (types, rest) ← readSectionTypes depth (← readColon cs)
      pure ({ draft with sectionTypes := some types }, rest)
  else do
    let (v, rest) ← readValue depth (← readColon cs)
    pure ({ draft with others := (key, v) :: draft.others }, rest)

/-- Reads a configuration off the front of a text. -/
def reader (depth : Nat) : Reader Config := fun cs =>
  match skipSpace cs with
  | '{' :: rest => do
    let (draft, rest) ← nested depth (fun depth => readObject (readMember depth) {}) '{' rest
    let (options, rest) ← settle (optionsOf [] {} draft.others.reverse) rest
    pure ({ options, sectionTypes := draft.sectionTypes.getD ∅ }, rest)
  | _ => refuseNext "struct RenderConfig" cs

def read (text : String) : Except Json.Error Config :=
  readWhole (reader maxDepth) text

end Config

end Receipt
