import Receipt.Json.Value
import Receipt.Number.Shortest

/-!
# Writing JSON

Values are written in two forms: `compact`, without blanks, and `pretty`, with two spaces for each
level and one entry to a line. Empty arrays and objects take one line in both. Quotes, backslashes and
controls are escaped; everything else, also beyond ASCII, stands for itself.
-/

namespace Receipt.Json

def hexChar (n : Nat) : Char :=
  Char.ofNat (if n < 10 then n + '0'.toNat else n - 10 + 'a'.toNat)

def escapeChar (c : Char) : List Char :=
  match c with
  | '"' => ['\\', '"']
  | '\\' => ['\\', '\\']
  | '\x08' => ['\\', 'b']
  | '\x0c' => ['\\', 'f']
  | '\n' => ['\\', 'n']
  | '\r' => ['\\', 'r']
  | '\t' => ['\\', 't']
  | c =>
    if c.toNat < 0x20 then
      ['\\', 'u', '0', '0', hexChar (c.toNat / 16), hexChar (c.toNat % 16)]
    else [c]

def writeText (s : String) : List Char :=
  '"' :: s.toList.flatMap escapeChar ++ ['"']

/-- A value that is neither array nor object; a double that is not finite has no form of its own. -/
def writeScalar : Value → List Char
  | .null => "null".toList
  | .boolean b => (if b then "true" else "false").toList
  | .integer n => (toString n).toList
  | .double x => if x.isFinite then (Number.Shortest.text x).toList else "null".toList
  | .text s => writeText s
  | .array _ => []
  | .object _ => []

mutual

def writeCompact : Value → List Char
  | .array items => '[' :: writeItems items ++ [']']
  | .object members => '{' :: writeMembers members ++ ['}']
  | v => writeScalar v

def writeItems : List Value → List Char
  | [] => []
  | [v] => writeCompact v
  | v :: vs => writeCompact v ++ ',' :: writeItems vs

def writeMembers : List (String × Value) → List Char
  | [] => []
  | [(k, v)] => writeText k ++ ':' :: writeCompact v
  | (k, v) :: ms => writeText k ++ ':' :: writeCompact v ++ ',' :: writeMembers ms

end

def indent (level : Nat) : List Char :=
  '\n' :: List.replicate (2 * level) ' '

mutual

/-- A value over several lines, at some level. -/
def writePretty (level : Nat) : Value → List Char
  | .array [] => ['[', ']']
  | .array items => '[' :: prettyItems (level + 1) items ++ indent level ++ [']']
  | .object [] => ['{', '}']
  | .object members => '{' :: prettyMembers (level + 1) members ++ indent level ++ ['}']
  | v => writeScalar v

/-- The elements of an array, each on a line of its own. -/
def prettyItems (level : Nat) : List Value → List Char
  | [] => []
  | [v] => indent level ++ writePretty level v
  | v :: vs => indent level ++ writePretty level v ++ ',' :: prettyItems level vs

/-- The members of an object, each on a line of its own. -/
def prettyMembers (level : Nat) : List (String × Value) → List Char
  | [] => []
  | [(k, v)] => indent level ++ writeText k ++ ':' :: ' ' :: writePretty level v
  | (k, v) :: ms =>
    indent level ++ writeText k ++ ':' :: ' ' :: writePretty level v ++ ',' :: prettyMembers level ms

end

def Value.compact (v : Value) : String :=
  String.ofList (writeCompact v)

def Value.pretty (v : Value) : String :=
  String.ofList (writePretty 0 v)

end Receipt.Json
