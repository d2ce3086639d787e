import Receipt.Json.Fault

/-!
# Reading numbers

Numbers that are written as integers and fit 64 bits are integers. All others are doubles: the first
digits, as many as fit 64 bits, are scaled by one power of ten, so that the result may differ from the
nearest double in its last bit. Leading zeros are refused, and so are numbers beyond the range of doubles.
-/

namespace Receipt.Json

def digit (c : Char) : Nat :=
  c.toNat - '0'.toNat

/-- Appends digits to a number as long as it fits 64 bits. -/
def gather (n : Nat) : List Char → Nat × List Char
  | [] => (n, [])
  | c :: cs =>
    if c.isDigit ∧ 10 * n + digit c < UInt64.size then gather (10 * n + digit c) cs else (n, c :: cs)

/-- A double of ten to some power. -/
def powerOfTen (n : Nat) : Binary64 :=
  .nearest false (Nat.pow 10 n) 1

/-- A number of 64 bits scaled by a power of ten, in steps that a double can hold; `none` beyond the
range of doubles. -/
def scaled? (n : Nat) (exponent : Int) : Option Binary64 :=
  let f := Binary64.ofNat n
  if n = 0 then some f
  else if 308 < exponent then none
  else if 0 ≤ exponent then
    let product := f * powerOfTen exponent.toNat
    if product.isFinite then some product else none
  else if -308 ≤ exponent then some (f / powerOfTen (-exponent).toNat)
  else if -616 ≤ exponent then
    some (f / powerOfTen 308 / powerOfTen (-exponent - 308).toNat)
  else some (.zero false)

/-- The double of a scaled number with its sign. -/
def finishNumber (negative : Bool) (n : Nat) (exponent : Int) (rest : List Char) :
    Except Fault (Value × List Char) :=
  match scaled? n exponent with
  | some x => .ok (.double (if negative then -x else x), rest)
  | none => .error (.last .numberOutOfRange rest)

/-- Appends digits to an exponent as long as it fits 31 bits. -/
def gatherExponent (n : Nat) : List Char → Nat × List Char
  | [] => (n, [])
  | c :: cs =>
    if c.isDigit ∧ 10 * n + digit c < Nat.pow 2 31 then gatherExponent (10 * n + digit c) cs
    else (n, c :: cs)

def skipDigits (cs : List Char) : List Char :=
  cs.dropWhile Char.isDigit

/-- Reads an exponent after its letter, for a number whose own digits are scaled by `offset`. -/
def readExponent (negative : Bool) (n : Nat) (offset : Int) (cs : List Char) :
    Except Fault (Value × List Char) :=
  let (down, cs) := match cs with
    | '+' :: rest => (false, rest)
    | '-' :: rest => (true, rest)
    | _ => (false, cs)
  match cs with
  | [] => .error (.last .endInValue [])
  | c :: rest =>
    if c.isDigit then
      match gatherExponent (digit c) rest with
      | (e, d :: after) =>
        if d.isDigit then
          if n ≠ 0 ∧ ¬down then .error (.last .numberOutOfRange after)
          else .ok (.double (.zero negative), skipDigits after)
        else finishNumber negative n (if down then offset - e else offset + e) (d :: after)
      | (e, []) => finishNumber negative n (if down then offset - e else offset + e) []
    else .error (.next .badNumber cs)

/-- Reads the exponent of a number, if there is one. -/
def readScale (negative : Bool) (n : Nat) (offset : Int) (cs : List Char) :
    Except Fault (Value × List Char) :=
  match cs with
  | 'e' :: rest => readExponent negative n offset rest
  | 'E' :: rest => readExponent negative n offset rest
  | _ => finishNumber negative n offset cs

/-- Reads the digits after a point; those that do not fit are passed over. -/
def readFraction (negative : Bool) (n : Nat) (offset : Int) (cs : List Char) :
    Except Fault (Value × List Char) :=
  let (m, rest) := gather n cs
  let taken := cs.length - rest.length
  if taken = 0 then
    match cs with
    | [] => .error (.last .endInValue [])
    | c :: _ =>
      -- A digit that does not fit is a digit all the same.
      if c.isDigit then readScale negative n offset (skipDigits cs)
      else .error (.next .badNumber cs)
  else readScale negative m (offset - taken) (skipDigits rest)

/-- What follows the integral digits: a point, an exponent, or nothing. -/
def readTail (negative : Bool) (n : Nat) (offset : Int) (cs : List Char) :
    Except Fault (Value × List Char) :=
  match cs with
  | '.' :: rest => readFraction negative n offset rest
  | _ => readScale negative n offset cs

def integral (negative : Bool) (n : Nat) : Value :=
  if negative then
    if 0 < n ∧ n ≤ Nat.pow 2 63 then .integer (-n) else .double (-(Binary64.ofNat n))
  else .integer n

/-- Whether a text goes on with a point or an exponent. -/
def hasTail : List Char → Bool
  | c :: _ => c = '.' || c = 'e' || c = 'E'
  | [] => false

def readNumber (negative : Bool) : Reader Value
  | [] => .error (.last .endInValue [])
  | '0' :: rest =>
    match rest with
    | c :: _ =>
      if c.isDigit then .error (.next .badNumber rest)
      else if hasTail rest then readTail negative 0 0 rest
      else .ok (integral negative 0, rest)
    | [] => .ok (integral negative 0, [])
  | c :: rest =>
    if c.isDigit then
      match gather (digit c) rest with
      | (n, d :: after) =>
        if d.isDigit then
          let digits := (d :: after).takeWhile Char.isDigit
          readTail negative n digits.length (skipDigits (d :: after))
        else if hasTail (d :: after) then readTail negative n 0 (d :: after)
        else .ok (integral negative n, d :: after)
      | (n, []) => .ok (integral negative n, [])
    else .error (.next .badNumber (c :: rest))

end Receipt.Json
