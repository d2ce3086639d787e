import Receipt.Json.Scalar
import Receipt.Json.Skip

/-!
# Reading records

A record is read straight from the text, so that a fault has a place. It is written as an object, whose
unknown keys are passed over, or as an array of its fields in order. A value of the wrong kind is
refused behind a scalar and before a bracket; a field that is missing or repeated is refused where the
record would have gone on.
-/

namespace Receipt.Json

/-- Stops behind the last byte read. -/
def refuse {α : Type} (m : Mismatch) (rest : List Char) : Except Fault α :=
  .error (.last (.mismatch m) rest)

/-- Refuses the value that comes next, for it is not what is expected. -/
def refuseNext {α : Type} (expected : String) (cs : List Char) : Except Fault α :=
  match skipSpace cs with
  | '[' :: rest => refuse (.wrongType .sequence expected) ('[' :: rest)
  | '{' :: rest => refuse (.wrongType .map expected) ('{' :: rest)
  | rest => do
    let (v, rest) ← readScalar rest
    refuse (.wrongType (.ofValue v) expected) rest

/-- Takes the meaning of something that has been read up to `rest`. -/
def settle {α : Type} (meaning : Except Mismatch α) (rest : List Char) :
    Except Fault (α × List Char) :=
  match meaning with
  | .ok a => .ok (a, rest)
  | .error m => refuse m rest

def Scalar.read {α : Type} (k : Scalar α) : Reader α := fun cs =>
  match skipSpace cs with
  | '[' :: _ => refuseNext k.expected cs
  | '{' :: _ => refuseNext k.expected cs
  | rest => do
    let (v, rest) ← readScalar rest
    settle (k.ofValue v) rest

/-- Reads a value or a null, which means that there is none. -/
def readOption {α : Type} (reader : Reader α) : Reader (Option α) := fun cs =>
  match skipSpace cs with
  | 'n' :: rest => do pure (none, ← readWord ['u', 'l', 'l'] rest)
  | rest => do
    let (a, rest) ← reader rest
    pure (some a, rest)

/-- Opens a bracket, if one may still be opened. -/
def nested {α : Type} (depth : Nat) (reader : Nat → Reader α) (bracket : Char) : Reader α :=
  fun rest =>
    match depth with
    | 0 => .error (.next .tooDeep (bracket :: rest))
    | depth + 1 => reader depth rest

def readList {α : Type} (item : Nat → Reader α) (depth : Nat) : Reader (List α) := fun cs =>
  match skipSpace cs with
  | '[' :: rest => nested depth (fun depth => readArray (item depth)) '[' rest
  | _ => refuseNext "a sequence" cs

/-- Reads the meaning of a word after its opening quote. -/
def Words.readMeaning {α : Type} (words : Words α) : Reader α := fun cs => do
  let (word, rest) ← readText cs
  settle (words.meaning word) rest

/-- Reads one of a list of words, as such or as the only key of an object whose value is null. -/
def Words.read {α : Type} (words : Words α) (depth : Nat) : Reader α := fun cs =>
  match skipSpace cs with
  | '"' :: rest => words.readMeaning rest
  | '{' :: rest => do
    let (a, rest) ← nested depth (fun _ => entry) '{' rest
    match skipSpace rest with
    | '}' :: rest => pure (a, rest)
    | [] => .error (.last .endInObject [])
    | rest => .error (.last .expectedValue rest)
  | [] => .error (.last .endInValue [])
  | rest => .error (.next .expectedValue rest)
where
  entry : Reader α := fun cs => do
    match ← nextKey true cs with
    | .done rest => .error (.next .expectedValue ('}' :: rest))
    | .entry rest =>
      let (a, rest) ← words.readMeaning rest
      let rest ← readColon rest
      match skipSpace rest with
      | 'n' :: rest => do pure (a, ← readWord ['u', 'l', 'l'] rest)
      | rest => refuseNext "unit" rest

structure Record.Field (α : Type) where
  name : String
  /-- Whether a record must have the field. -/
  required : Bool := false
  /-- Reads the field's value into the record so far. -/
  read : Nat → α → Reader α

structure Record (α : Type) where
  name : String
  /-- The record of which no field has been read. -/
  blank : α
  fields : List (Record.Field α)

namespace Record

/-- Passes the bracket that closes the record, if it comes next. -/
def passCloser (closer : Char) (cs : List Char) : List Char :=
  match skipSpace cs with
  | c :: rest => if c = closer then rest else c :: rest
  | [] => []

/-- Reads what follows a key: a field, or something to pass over. -/
def member {α : Type} (r : Record α) (depth : Nat) (key : String) :
    List String × α → Reader (List String × α) := fun (seen, a) cs =>
  match r.fields.find? (·.name == key) with
  | some field =>
    if key ∈ seen then refuse (.duplicateField key) (passCloser '}' cs)
    else do
      let (a, rest) ← field.read depth a (← readColon cs)
      pure ((key :: seen, a), rest)
  | none => do pure ((seen, a), ← Skip.value (← readColon cs))

def readKeyed {α : Type} (r : Record α) (depth : Nat) : Reader α := fun cs => do
  let ((seen, a), rest) ← readObject (r.member depth) ([], r.blank) cs
  match r.fields.find? fun field => field.required && !seen.contains field.name with
  | some field => refuse (.missingField field.name) rest
  | none => pure (a, rest)

/-- Passes the end of an array of which all fields have been read. -/
def closeArray (cs : List Char) : Except Fault (List Char) :=
  match skipSpace cs with
  | [] => .error (.last .endInList [])
  | ']' :: rest => .ok rest
  | ',' :: rest =>
    match skipSpace rest with
    | ']' :: after => .error (.next .trailingComma (']' :: after))
    | after => .error (.next .trailingCharacters after)
  | rest => .error (.next .trailingCharacters rest)

/-- Reads the fields of an array from the `i`-th on. -/
def readFrom {α : Type} (r : Record α) (depth : Nat) : List (Field α) → Nat → α → Reader α
  | [], _, a, cs => do pure (a, ← closeArray cs)
  | field :: fields, i, a, cs => do
    match ← nextElement (i == 0) cs with
    | .entry rest =>
      let (a, rest) ← field.read depth a rest
      readFrom r depth fields (i + 1) a rest
    | .done rest =>
      match (field :: fields).findIdx? (·.required) with
      | some k =>
        refuse (.wrongLength (i + k)
          ("struct " ++ r.name ++ " with " ++ toString r.fields.length ++ " elements")) rest
      | none => pure (a, rest)

def read {α : Type} (r : Record α) (depth : Nat) : Reader α := fun cs =>
  match skipSpace cs with
  | '{' :: rest => nested depth r.readKeyed '{' rest
  | '[' :: rest => nested depth (fun depth => r.readFrom depth r.fields 0 r.blank) '[' rest
  | _ => refuseNext ("struct " ++ r.name) cs

end Record

end Receipt.Json
