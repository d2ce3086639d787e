import Receipt.Json.Value
import Receipt.Number.Shortest
import Receipt.Text

/-!
# Readers of JSON texts and their faults

A reader takes something off the front of a text and returns it with what is left, or a fault: why the text
is refused, and where. A reader that stops reports a cause and what is left of the text; the position is
worked out once, from the whole text. Lines count from one. A column counts the bytes of the line up to and
including the offending byte, so it is zero right after a line feed.

Four characters count as blanks between tokens, and no others.
-/

namespace Receipt.Json

/-- What was found where something else was expected. -/
inductive Found where
  | boolean (b : Bool)
  | integer (n : Int)
  | double (x : Binary64)
  | text (s : String)
  | null
  | sequence
  | map
deriving DecidableEq, Repr

namespace Found

/-- What a value counts as when it is not expected. -/
def ofValue : Value → Found
  | .null => null
  | .boolean b => boolean b
  | .integer n => integer n
  | .double x => double x
  | .text s => text s
  | .array _ => sequence
  | .object _ => map

def message : Found → String
  | boolean b => "boolean `" ++ (if b then "true" else "false") ++ "`"
  | integer n => "integer `" ++ toString n ++ "`"
  | double x => "floating point `" ++ Number.Shortest.text x ++ "`"
  | text s => "string " ++ Text.quoted s
  | null => "null"
  | sequence => "sequence"
  | map => "map"

end Found

/-- Why a value that is proper JSON does not fit its place. -/
inductive Mismatch where
  /-- The value is of another kind. -/
  | wrongType (found : Found) (expected : String)
  /-- The value is of the right kind and not allowed. -/
  | wrongValue (found : Found) (expected : String)
  /-- A word is none of those allowed. -/
  | unknownWord (word : String) (allowed : List String)
  | missingField (name : String)
  | duplicateField (name : String)
  /-- An array has too few or too many elements. -/
  | wrongLength (length : Nat) (expected : String)
  /-- A text is not of the form that its place asks for. -/
  | malformed (reason : String)
deriving DecidableEq, Repr

namespace Mismatch

def ticked (name : String) : String :=
  "`" ++ name ++ "`"

def alternatives : List String → String
  | [] => "there are no variants"
  | [a] => "expected " ++ ticked a
  | [a, b] => "expected " ++ ticked a ++ " or " ++ ticked b
  | names => "expected one of " ++ ", ".intercalate (names.map ticked)

def message : Mismatch → String
  | wrongType found expected => "invalid type: " ++ found.message ++ ", expected " ++ expected
  | wrongValue found expected => "invalid value: " ++ found.message ++ ", expected " ++ expected
  | unknownWord word allowed => "unknown variant " ++ ticked word ++ ", " ++ alternatives allowed
  | missingField name => "missing field " ++ ticked name
  | duplicateField name => "duplicate field " ++ ticked name
  | wrongLength length expected =>
    "invalid length " ++ toString length ++ ", expected " ++ expected
  | malformed reason => reason

end Mismatch

/-- Why a text is refused. -/
inductive Cause where
  | endInValue
  | endInObject
  | endInList
  | endInText
  | expectedValue
  /-- One of the three bare words is misspelt. -/
  | expectedWord
  | expectedColon
  | expectedMember
  | expectedElement
  | keyNotText
  | trailingComma
  | trailingCharacters
  | badNumber
  | numberOutOfRange
  | badEscape
  /-- The first half of a pair of escapes stands without the second. -/
  | brokenEscape
  | loneSurrogate
  | controlCharacter
  | tooDeep
  | mismatch (m : Mismatch)
deriving DecidableEq, Repr

def Cause.message : Cause → String
  | endInValue => "EOF while parsing a value"
  | endInObject => "EOF while parsing an object"
  | endInList => "EOF while parsing a list"
  | endInText => "EOF while parsing a string"
  | expectedValue => "expected value"
  | expectedWord => "expected ident"
  | expectedColon => "expected `:`"
  | expectedMember => "expected `,` or `\x7d`"
  | expectedElement => "expected `,` or `]`"
  | keyNotText => "key must be a string"
  | trailingComma => "trailing comma"
  | trailingCharacters => "trailing characters"
  | badNumber => "invalid number"
  | numberOutOfRange => "number out of range"
  | badEscape => "invalid escape"
  | brokenEscape => "unexpected end of hex escape"
  | loneSurrogate => "lone leading surrogate in hex escape"
  | controlCharacter => "control character (\\u0000-\\u001F) found while parsing a string"
  | tooDeep => "recursion limit exceeded"
  | mismatch m => m.message

/-- Where a reader stopped: what is left of the text, and how many bytes of that are passed. -/
structure Fault where
  cause : Cause
  rest : List Char
  ahead : Nat
deriving DecidableEq, Repr

namespace Fault

def next (cause : Cause) (rest : List Char) : Fault :=
  ⟨cause, rest, 1⟩

/-- A fault at the last byte that was read. -/
def last (cause : Cause) (rest : List Char) : Fault :=
  ⟨cause, rest, 0⟩

end Fault

structure Position where
  line : Nat
  column : Nat
deriving DecidableEq, Repr

namespace Position

def start : Position := ⟨1, 0⟩

def advance (p : Position) (c : Char) : Position :=
  if c = '\n' then ⟨p.line + 1, 0⟩ else ⟨p.line, p.column + c.utf8Size⟩

/-- The place after some more bytes of a text, at most all of them. -/
def skip (p : Position) : Nat → List Char → Position
  | _, [] => p
  | bytes, c :: cs =>
    if bytes < c.utf8Size then ⟨p.line, p.column + bytes⟩
    else (p.advance c).skip (bytes - c.utf8Size) cs

end Position

def byteSize (cs : List Char) : Nat :=
  cs.foldl (fun n c => n + c.utf8Size) 0

structure Error where
  cause : Cause
  position : Position
deriving DecidableEq, Repr

namespace Error

def message (e : Error) : String :=
  e.cause.message ++ " at line " ++ toString e.position.line ++
    " column " ++ toString e.position.column

end Error

/-- The fault with its place in the whole text. -/
def Fault.locate (f : Fault) (whole : List Char) : Error where
  cause := f.cause
  position := Position.start.skip (byteSize whole - byteSize f.rest + f.ahead) whole

/-! ### Readers -/

/-- Reads a value off the front of a text. -/
abbrev Reader (α : Type) := List Char → Except Fault (α × List Char)

def isSpace (c : Char) : Bool :=
  c = ' ' || c = '\n' || c = '\t' || c = '\r'

def skipSpace (cs : List Char) : List Char :=
  cs.dropWhile isSpace

def readWord : List Char → List Char → Except Fault (List Char)
  | [], cs => .ok cs
  | _ :: _, [] => .error (.last .endInValue [])
  | w :: ws, c :: cs => if c = w then readWord ws cs else .error (.next .expectedWord (c :: cs))

end Receipt.Json
