import Receipt.Text

/-!
# Calendar dates

Days of the Gregorian calendar, extended to all years from -262143 to 262142. A date is read from
`year-month-day`, with blanks allowed around each number, and written as `month/day/year`. A year of
more than four digits needs a sign.
-/

namespace Receipt

structure Date where
  year : Int
  month : Nat
  day : Nat
  /-- There is such a day. -/
  valid : -262143 ≤ year ∧ year ≤ 262142 ∧ 1 ≤ month ∧ month ≤ 12 ∧ 1 ≤ day ∧
    day ≤ (if month = 2 then
        (if year % 4 = 0 ∧ (year % 100 ≠ 0 ∨ year % 400 = 0) then 29 else 28)
      else if month = 4 ∨ month = 6 ∨ month = 9 ∨ month = 11 then 30 else 31) := by decide
deriving DecidableEq, Repr

namespace Date

inductive Fault where
  /-- The text ends too early. -/
  | premature
  /-- A character stands where it must not. -/
  | invalid
  /-- A number is too large, or there is no such day. -/
  | outOfRange
  /-- Something follows the date. -/
  | trailing
deriving DecidableEq, Repr

def Fault.message : Fault → String
  | premature => "premature end of input"
  | invalid => "input contains invalid characters"
  | outOfRange => "input is out of range"
  | trailing => "trailing input"

/-- The day with a number, if there is one. -/
def ofNumbers? (year : Int) (month day : Nat) : Option Date :=
  if h : _ then some ⟨year, month, day, h⟩ else none

/-- A number of at least one digit, with what follows it. -/
def number (digits : List Char) (rest : List Char) : Except Fault (Nat × List Char) :=
  match digits, rest with
  | [], [] => .error .premature
  | [], _ :: _ => .error .invalid
  | _, _ =>
    let n := Nat.ofDigitChars 10 digits 0
    if (n : Int) ≤ Int64.maxValue.toInt then .ok (n, rest) else .error .outOfRange

/-- All digits at the start of a text as a number. -/
def longNumber (cs : List Char) : Except Fault (Nat × List Char) :=
  number (cs.takeWhile Char.isDigit) (cs.dropWhile Char.isDigit)

/-- At most `limit` digits at the start of a text as a number. -/
def shortNumber (limit : Nat) (cs : List Char) : Except Fault (Nat × List Char) :=
  let digits := (cs.take limit).takeWhile Char.isDigit
  number digits (cs.drop digits.length)

/-- A year: four digits at most, or any number of digits after a sign. -/
def readYear (cs : List Char) : Except Fault (Int × List Char) := do
  let (year, rest) ← match cs with
    | '-' :: rest => do
      let (n, rest) ← longNumber rest
      pure (-(n : Int), rest)
    | '+' :: rest => do
      let (n, rest) ← longNumber rest
      pure ((n : Int), rest)
    | _ => do
      let (n, rest) ← shortNumber 4 cs
      pure ((n : Int), rest)
  if Int32.minValue.toInt ≤ year ∧ year ≤ Int32.maxValue.toInt then pure (year, rest) else throw .outOfRange

/-- A number of one or two digits from 1 to `limit`. -/
def readOrdinal (limit : Nat) (cs : List Char) : Except Fault (Nat × List Char) := do
  let (n, rest) ← shortNumber 2 cs
  if 1 ≤ n ∧ n ≤ limit then pure (n, rest) else throw .outOfRange

def readDash : List Char → Except Fault (List Char)
  | [] => .error .premature
  | '-' :: rest => .ok rest
  | _ => .error .invalid

def read (s : String) : Except Fault Date := do
  let (year, rest) ← readYear (Text.trimStart s.toList)
  let rest ← readDash (Text.trimStart rest)
  let (month, rest) ← readOrdinal 12 (Text.trimStart rest)
  let rest ← readDash (Text.trimStart rest)
  let (day, rest) ← readOrdinal 31 (Text.trimStart rest)
  if Text.trimStart rest ≠ [] then throw .trailing
  match ofNumbers? year month day with
  | some date => pure date
  | none => throw .outOfRange

/-- A number with zeros in front, up to a width. -/
def padded (width n : Nat) : String :=
  let digits := Nat.toDigits 10 n
  String.ofList (List.replicate (width - digits.length) '0' ++ digits)

/-- The year as it is written: at least four digits, with a sign outside of 0 to 9999. -/
def yearText (year : Int) : String :=
  (if year < 0 then "-" else if 9999 < year then "+" else "") ++ padded 4 year.natAbs

def text (d : Date) : String :=
  padded 2 d.month ++ "/" ++ padded 2 d.day ++ "/" ++ yearText d.year

end Date

end Receipt
