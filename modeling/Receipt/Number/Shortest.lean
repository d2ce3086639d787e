import Receipt.Number.Binary64

/-!
# Shortest decimal text

The fewest decimal digits that read back as a given double, and the text they are written as. For one,
two, … seventeen digits the two neighbours of the value on the grid of that many digits are tried; the
first grid with a hit wins, and of two hits the nearer. How the digits are laid out is a separate
decision: positional in the middle of the range, with a signed exponent elsewhere.
-/

namespace Receipt.Number.Shortest

/-- Decimal digits and the power of ten of the last of them. -/
structure Decimal where
  digits : Nat
  exponent : Int
deriving DecidableEq, Repr

/-- The number of decimal digits of a natural number. -/
def width (n : Nat) : Nat :=
  (Nat.toDigits 10 n).length

/-- The power of ten by which the leading digit of `num / den` counts; `num` is not zero. -/
def magnitude (num den : Nat) : Int :=
  if den ≤ num then width (num / den) - 1
  else
    let below := width (den / num)
    if num * Nat.pow 10 (below - 1) = den then 1 - (below : Int) else -(below : Int)

/-- Whether a decimal reads back as the magnitude of `x`. -/
def readsBack (x : Binary64) (d : Decimal) : Bool :=
  (Binary64.ofDecimal false d.digits d.exponent).sameMagnitude x

/-- The neighbours of the magnitude of `x` on the grid of multiples of `10 ^ exponent`, the nearer
first; a tie goes to the even one. -/
def neighbours (x : Binary64) (exponent : Int) : List Decimal :=
  let num := x.numerator * Nat.pow 10 (-exponent).toNat
  let den := x.denominator * Nat.pow 10 exponent.toNat
  let below := num / den
  let near := roundHalfEven num den
  [⟨near, exponent⟩, ⟨if near = below then below + 1 else below, exponent⟩]

/-- A decimal without the zeros at the end of its digits; at most `fuel` are dropped. -/
def trimZeros : Nat → Decimal → Decimal
  | 0, d => d
  | fuel + 1, d =>
    if d.digits % 10 = 0 ∧ d.digits ≠ 0 then trimZeros fuel ⟨d.digits / 10, d.exponent + 1⟩ else d

/-- The shortest decimal of a finite double other than zero. -/
def decimal (x : Binary64) : Decimal :=
  let top := magnitude x.numerator x.denominator
  let tries := (List.range 17).flatMap fun (n : Nat) => neighbours x (top - n)
  trimZeros 20 ((tries.find? (readsBack x)).getD ⟨0, 0⟩)

/-- An exponent with its sign, a plus too, and no zeros in front. -/
def exponentText (e : Int) : String :=
  (if e < 0 then "e-" else "e+") ++ toString e.natAbs

/-- The text of a decimal: positional if the leading digit counts for `10 ^ -5` to `10 ^ 15`. -/
def layOut (d : Decimal) : String :=
  let digits := (toString d.digits).toList
  let top : Int := d.exponent + digits.length - 1
  if top < -5 ∨ 15 < top then
    String.ofList (digits.take 1) ++
      (if digits.length = 1 then "" else "." ++ String.ofList (digits.drop 1)) ++ exponentText top
  else if top < 0 then
    "0." ++ String.ofList (List.replicate (-top - 1).toNat '0' ++ digits)
  else if 0 ≤ d.exponent then
    String.ofList (digits ++ List.replicate d.exponent.toNat '0') ++ ".0"
  else
    String.ofList (digits.take (top + 1).toNat) ++ "." ++
      String.ofList (digits.drop (top + 1).toNat)

def text : Binary64 → String
  | .nan => "NaN"
  | .infinite negative => if negative then "-inf" else "inf"
  | x =>
    (if x.signed then "-" else "") ++ (if x.isZero then "0.0" else layOut (decimal x))

end Receipt.Number.Shortest
