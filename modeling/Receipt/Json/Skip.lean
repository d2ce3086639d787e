import Receipt.Json.Reader

/-!
# Passing over JSON values

A value that nobody asks for is checked less strictly than one that is read: brackets may be nested to
any depth, numbers of any size pass, and escapes need only have their digits. The open brackets are
kept in a list, innermost first.
-/

namespace Receipt.Json.Skip

def exponent (cs : List Char) : Except Fault (List Char) :=
  let cs := match cs with
    | '+' :: rest => rest
    | '-' :: rest => rest
    | _ => cs
  match cs with
  | c :: rest => if c.isDigit then .ok (skipDigits rest) else .error (.next .badNumber cs)
  | [] => .error (.next .badNumber cs)

/-- Passes an exponent, if there is one. -/
def scale : List Char → Except Fault (List Char)
  | 'e' :: rest => exponent rest
  | 'E' :: rest => exponent rest
  | cs => .ok cs

/-- Passes what follows the integral digits of a number. -/
def tail : List Char → Except Fault (List Char)
  | '.' :: c :: rest =>
    if c.isDigit then scale (skipDigits rest) else .error (.next .badNumber (c :: rest))
  | ['.'] => .error (.next .badNumber [])
  | cs => scale cs

def number : List Char → Except Fault (List Char)
  | '0' :: c :: rest =>
    if c.isDigit then .error (.next .badNumber (c :: rest)) else tail (c :: rest)
  | c :: rest => if c.isDigit then tail (skipDigits rest) else .error (.next .badNumber (c :: rest))
  | [] => .error (.next .badNumber [])

def escape : List Char → Except Fault (List Char)
  | [] => .error (.last .endInText [])
  | 'u' :: rest => do
    let (_, rest) ← readHex rest
    pure rest
  | c :: rest => if (shortEscape? c).isSome then .ok rest else .error (.next .badEscape (c :: rest))

/-- Passes the characters up to the closing quote. Each round takes at least one character, so `fuel`
is the length of the text. -/
def chars : Nat → List Char → Except Fault (List Char)
  | _, [] => .error (.last .endInText [])
  | 0, c :: cs => .error (.last .endInText (c :: cs))
  | fuel + 1, c :: cs =>
    if c = '"' then .ok cs
    else if c = '\\' then do chars fuel (← escape cs)
    else if c.toNat < 0x20 then .error (.last .controlCharacter (c :: cs))
    else chars fuel cs

def text (cs : List Char) : Except Fault (List Char) :=
  chars cs.length cs

/-- Passes a value that is neither array nor object, from its first character on. -/
def scalar : List Char → Except Fault (List Char)
  | [] => .error (.last .endInValue [])
  | 'n' :: rest => readWord ['u', 'l', 'l'] rest
  | 't' :: rest => readWord ['r', 'u', 'e'] rest
  | 'f' :: rest => readWord ['a', 'l', 's', 'e'] rest
  | '"' :: rest => text rest
  | '-' :: rest => number rest
  | c :: rest =>
    if c.isDigit then number (c :: rest) else .error (.next .expectedValue (c :: rest))

inductive Frame where
  | array
  | object
deriving DecidableEq, Repr

/-- What is due next. -/
inductive Due where
  /-- A value, for the first entry or behind a comma or colon. -/
  | value
  /-- A key. -/
  | key
  /-- A comma or a closing bracket. -/
  | separator
  /-- An entry or a closing bracket, right behind an opening bracket. -/
  | opening
deriving DecidableEq, Repr

/-- What an entry of a frame starts with. -/
def Frame.entry : Frame → Due
  | .array => .value
  | .object => .key

/-- The fault of a text that ends inside a frame. -/
def Frame.ended : Frame → Cause
  | .array => .endInList
  | .object => .endInObject

/-- The fault of a frame in which an entry is followed by something else than comma or bracket. -/
def Frame.unseparated : Frame → Cause
  | .array => .expectedElement
  | .object => .expectedMember

def Frame.closer : Frame → Char
  | .array => ']'
  | .object => '}'

def key (cs : List Char) : Except Fault (List Char) :=
  match skipSpace cs with
  | [] => .error (.last .endInObject [])
  | '"' :: rest => do readColon (← text rest)
  | rest => .error (.next .keyNotText rest)

/-- Passes what is due and everything up to the bracket that closes the outermost frame. No two rounds
in a row leave the text as it is, so `fuel` is twice its length. -/
def run : Nat → List Frame → Due → List Char → Except Fault (List Char)
  | 0, _, _, cs => .error (.last .endInValue cs)
  | fuel + 1, frames, .value, cs =>
    match skipSpace cs with
    | '[' :: rest => run fuel (.array :: frames) .opening rest
    | '{' :: rest => run fuel (.object :: frames) .opening rest
    | rest => do run fuel frames .separator (← scalar rest)
  | fuel + 1, frames, .key, cs => do run fuel frames .value (← key cs)
  | _ + 1, [], _, cs => .ok cs
  | fuel + 1, frame :: frames, due, cs =>
    match skipSpace cs with
    | [] => .error (.last frame.ended [])
    | c :: rest =>
      if c = frame.closer then run fuel frames .separator rest
      else if due = .opening then run fuel (frame :: frames) frame.entry (c :: rest)
      else if c = ',' then run fuel (frame :: frames) frame.entry rest
      else .error (.next frame.unseparated (c :: rest))

def value (cs : List Char) : Except Fault (List Char) :=
  run (2 * cs.length + 2) [] .value cs

end Receipt.Json.Skip
