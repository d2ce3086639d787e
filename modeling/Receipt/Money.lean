import Receipt.Number.Binary64

/-!
# Amounts of money

An amount is brought to whole cents in double arithmetic and then written with two places. Only finite
amounts can be written. The product with one hundred may overflow; such an amount is written as an
infinite number of cents.

Two places are exactly two digits behind the point: the exact value of a double, rounded at the second
place, ties to the even digit. All digits before the point are written.
-/

namespace Receipt.Number

def hundredths (n : Nat) : String :=
  toString (n / 100) ++ "." ++ toString (n % 100 / 10) ++ toString (n % 10)

/-- The hundredths in the magnitude of a finite double. -/
def toHundredths (x : Binary64) : Nat :=
  roundHalfEven (x.numerator * 100) x.denominator

/-- A double with two places; a negative sign is written also before a zero. -/
def twoPlaces : Binary64 → String
  | .nan => "NaN"
  | .infinite negative => if negative then "-inf" else "inf"
  | x => (if x.signed then "-" else "") ++ hundredths (toHundredths x)

end Receipt.Number

namespace Receipt.Money

/-- The magnitude of an amount, brought to whole cents. -/
def toCents (amount : Binary64) : Binary64 :=
  (amount.abs * .ofNat 100).round / .ofNat 100

/-- A finite amount with its currency sign; the minus stands before it and is kept from a zero. -/
def text? (amount : Binary64) : Option String :=
  if amount.isFinite then
    let cents := toCents amount
    let minus := if amount.isNegative ∧ cents.isPositive then "-" else ""
    some (minus ++ "$" ++ Number.twoPlaces cents)
  else none

/-- A rate with two places, of which a zero at the end is left out. -/
def rateText (rate : Binary64) : String :=
  let cs := (Number.twoPlaces rate).toList
  String.ofList (if cs.getLast? = some '0' then cs.dropLast else cs)

end Receipt.Money
