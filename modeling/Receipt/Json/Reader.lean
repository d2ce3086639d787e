import Receipt.Json.Reader.Number
import Receipt.Json.Reader.Text

/-!
# Reading JSON

Scalars, arrays and objects. The grammar is strict: no comments, and no comma before a closing bracket.
At most 127 brackets may be open at a time. The loops over elements and members are told how to read an
entry, so that they serve values as well as records.
-/

namespace Receipt.Json

/-- Reads a value that is neither array nor object, from its first character on. -/
def readScalar : Reader Value
  | [] => .error (.last .endInValue [])
  | 'n' :: rest => do pure (.null, ← readWord ['u', 'l', 'l'] rest)
  | 't' :: rest => do pure (.boolean true, ← readWord ['r', 'u', 'e'] rest)
  | 'f' :: rest => do pure (.boolean false, ← readWord ['a', 'l', 's', 'e'] rest)
  | '"' :: rest => do
    let (s, rest) ← readText rest
    pure (.text s, rest)
  | '-' :: rest => readNumber true rest
  | c :: rest =>
    if c.isDigit then readNumber false (c :: rest) else .error (.next .expectedValue (c :: rest))

/-- Whether a list of entries goes on. -/
inductive More where
  /-- It does, and the next entry starts here. -/
  | entry (rest : List Char)
  /-- It has ended with its bracket. -/
  | done (rest : List Char)

/-- Looks for the next element of an array; the first stands behind no comma. -/
def nextElement (first : Bool) (cs : List Char) : Except Fault More :=
  match skipSpace cs with
  | [] => .error (.last .endInList [])
  | ']' :: rest => .ok (.done rest)
  | c :: rest =>
    if first then .ok (.entry (c :: rest))
    else if c = ',' then
      match skipSpace rest with
      | [] => .error (.last .endInValue [])
      | ']' :: after => .error (.next .trailingComma (']' :: after))
      | after => .ok (.entry after)
    else .error (.next .expectedElement (c :: rest))

/-- Looks for the next key of an object and passes its opening quote. -/
def nextKey (first : Bool) (cs : List Char) : Except Fault More :=
  match skipSpace cs with
  | [] => .error (.last .endInObject [])
  | '}' :: rest => .ok (.done rest)
  | c :: rest =>
    if first then
      if c = '"' then .ok (.entry rest) else .error (.next .keyNotText (c :: rest))
    else if c = ',' then
      match skipSpace rest with
      | [] => .error (.last .endInValue [])
      | '"' :: after => .ok (.entry after)
      | '}' :: after => .error (.next .trailingComma ('}' :: after))
      | after => .error (.next .keyNotText after)
    else .error (.next .expectedMember (c :: rest))

def readColon (cs : List Char) : Except Fault (List Char) :=
  match skipSpace cs with
  | [] => .error (.last .endInObject [])
  | ':' :: rest => .ok rest
  | rest => .error (.next .expectedColon rest)

/-- Reads the elements of an array up to its bracket, behind those in `done`, which stand reversed.
Each round takes at least one character, so `fuel` is the length of the text. -/
def readElements {α : Type} (item : Reader α) : Nat → List α → Reader (List α)
  | 0, _, cs => .error (.last .endInList cs)
  | fuel + 1, done, cs => do
    match ← nextElement done.isEmpty cs with
    | .done rest => pure (done.reverse, rest)
    | .entry rest =>
      let (a, rest) ← item rest
      readElements item fuel (a :: done) rest

/-- Reads the members of an object up to its bracket. What a key's value does to the result so far is
told by `member`, which starts before the colon. Each round takes at least one character, so `fuel`
is the length of the text. -/
def readMembers {σ : Type} (member : String → σ → Reader σ) : Nat → Bool → σ → Reader σ
  | 0, _, _, cs => .error (.last .endInObject cs)
  | fuel + 1, first, done, cs => do
    match ← nextKey first cs with
    | .done rest => pure (done, rest)
    | .entry rest =>
      let (key, rest) ← readText rest
      let (done, rest) ← member key done rest
      readMembers member fuel false done rest

def readArray {α : Type} (item : Reader α) : Reader (List α) := fun cs =>
  readElements item (cs.length + 1) [] cs

/-- Reads an object after its bracket, starting from a result without members. -/
def readObject {σ : Type} (member : String → σ → Reader σ) (start : σ) : Reader σ := fun cs =>
  readMembers member (cs.length + 1) true start cs

/-- Reads a value behind blanks. `depth` is the number of brackets that may still be opened. -/
def readValue : Nat → Reader Value
  | 0, cs =>
    match skipSpace cs with
    | '[' :: rest => .error (.next .tooDeep ('[' :: rest))
    | '{' :: rest => .error (.next .tooDeep ('{' :: rest))
    | rest => readScalar rest
  | depth + 1, cs =>
    match skipSpace cs with
    | '[' :: rest => do
      let (items, rest) ← readArray (readValue depth) rest
      pure (.array items, rest)
    | '{' :: rest => do
      let (members, rest) ← readObject (readMember (readValue depth)) [] rest
      pure (.object members.reverse, rest)
    | rest => readScalar rest
where
  /-- Puts a member in front of those read before it. -/
  readMember (value : Reader Value) (key : String) (done : Members) : Reader Members := fun cs => do
    let (v, rest) ← value (← readColon cs)
    pure ((key, v) :: done, rest)

/-- The brackets that may be open at a time. -/
def maxDepth : Nat := 127

/-- Reads a whole text, after which nothing but blanks may follow. -/
def readWhole {α : Type} (reader : Reader α) (text : String) : Except Error α :=
  let whole := text.toList
  match reader whole with
  | .error fault => .error (fault.locate whole)
  | .ok (a, rest) =>
    match skipSpace rest with
    | [] => .ok a
    | extra => .error ((Fault.next .trailingCharacters extra).locate whole)

def Value.read (text : String) : Except Error Value :=
  readWhole (readValue maxDepth) text

end Receipt.Json
