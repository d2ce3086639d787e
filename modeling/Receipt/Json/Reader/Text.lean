import Receipt.Json.Fault

/-!
# Reading texts

What stands between two quotes. Controls must be escaped. A character beyond `U+FFFF` may be escaped as
a pair of halves; a half on its own is refused.
-/

namespace Receipt.Json

def hexDigit? (c : Char) : Option Nat :=
  if '0' ≤ c ∧ c ≤ '9' then some (c.toNat - '0'.toNat)
  else if 'a' ≤ c ∧ c ≤ 'f' then some (c.toNat - 'a'.toNat + 10)
  else if 'A' ≤ c ∧ c ≤ 'F' then some (c.toNat - 'A'.toNat + 10)
  else none

def hexValue? (a b c d : Char) : Option Nat := do
  let a ← hexDigit? a
  let b ← hexDigit? b
  let c ← hexDigit? c
  let d ← hexDigit? d
  some (((a * 16 + b) * 16 + c) * 16 + d)

/-- Reads four hexadecimal digits. They are counted in bytes, so a wider character may be cut. -/
def readHex (cs : List Char) : Except Fault (Nat × List Char) :=
  if byteSize (cs.take 4) < 4 then .error (.last .endInText [])
  else
    match cs with
    | a :: b :: c :: d :: rest =>
      match hexValue? a b c d with
      | some n => .ok (n, rest)
      | none => .error ⟨.badEscape, cs, 4⟩
    | _ => .error ⟨.badEscape, cs, 4⟩

def shortEscape? : Char → Option Char
  | '"' => some '"'
  | '\\' => some '\\'
  | '/' => some '/'
  | 'b' => some '\x08'
  | 'f' => some '\x0c'
  | 'n' => some '\n'
  | 'r' => some '\r'
  | 't' => some '\t'
  | _ => none

/-- Expects one character in the second half of a pair of escapes. -/
def readHalf (c : Char) : List Char → Except Fault (List Char)
  | [] => .error (.last .endInText [])
  | d :: rest => if d = c then .ok rest else .error (.next .brokenEscape (d :: rest))

/-- Reads a numbered escape, or a pair of them for a character beyond `U+FFFF`. -/
def readNumbered (cs : List Char) : Except Fault (Char × List Char) := do
  let (n, rest) ← readHex cs
  if 0xDC00 ≤ n ∧ n ≤ 0xDFFF then throw (.last .loneSurrogate rest)
  if 0xD800 ≤ n ∧ n ≤ 0xDBFF then
    let rest ← readHalf '\\' rest
    let rest ← readHalf 'u' rest
    let (m, rest) ← readHex rest
    if 0xDC00 ≤ m ∧ m ≤ 0xDFFF then
      pure (Char.ofNat ((n - 0xD800) * 0x400 + (m - 0xDC00) + 0x10000), rest)
    else throw (.last .loneSurrogate rest)
  else pure (Char.ofNat n, rest)

def readEscape : List Char → Except Fault (Char × List Char)
  | [] => .error (.last .endInText [])
  | 'u' :: rest => readNumbered rest
  | c :: rest =>
    match shortEscape? c with
    | some e => .ok (e, rest)
    | none => .error (.next .badEscape (c :: rest))

/-- Reads the characters up to the closing quote, in front of which `done` stand reversed. Each
round takes at least one character, so `fuel` is the length of the text. -/
def readChars : Nat → List Char → Reader String
  | _, _, [] => .error (.last .endInText [])
  | 0, _, c :: cs => .error (.last .endInText (c :: cs))
  | fuel + 1, done, c :: cs =>
    if c = '"' then .ok (String.ofList done.reverse, cs)
    else if c = '\\' then do
      let (e, rest) ← readEscape cs
      readChars fuel (e :: done) rest
    else if c.toNat < 0x20 then .error (.next .controlCharacter (c :: cs))
    else readChars fuel (c :: done) cs

def readText : Reader String := fun cs =>
  readChars cs.length [] cs

end Receipt.Json
