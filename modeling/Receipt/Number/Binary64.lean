import Receipt.Number.Rounding

/-!
# Doubles

IEEE 754 binary64 numbers as exact values. A finite double is a sign, a mantissa below `2 ^ 53` and a
power of two. Every operation computes the exact quotient of its result and rounds once, by `nearest`:
to the nearest double, ties to the even mantissa, and to an infinity beyond the range.

A finite value may have several mantissas and exponents; `nearest` always gives the least exponent.
Payloads of values that are not numbers are not kept.
-/

namespace Receipt

inductive Binary64 where
  /-- Not a number. -/
  | nan
  /-- An infinity. -/
  | infinite (negative : Bool)
  /-- The number `mantissa * 2 ^ exponent` with its sign; zero has a sign too. -/
  | finite (negative : Bool) (mantissa : Nat) (exponent : Int)
      (bounded : mantissa < Nat.pow 2 53 ∧ -1074 ≤ exponent ∧ exponent ≤ 971)
deriving DecidableEq, Repr

namespace Binary64

open Number (roundHalfEven roundHalfUp)

def zero (negative : Bool) : Binary64 :=
  finite negative 0 (-1074) (by decide)

instance : Inhabited Binary64 := ⟨zero false⟩

/-- The double with a mantissa and an exponent, or an infinity if they are out of range. -/
def pack (negative : Bool) (mantissa : Nat) (exponent : Int) : Binary64 :=
  if h : mantissa < Nat.pow 2 53 ∧ -1074 ≤ exponent ∧ exponent ≤ 971 then
    finite negative mantissa exponent h
  else infinite negative

/-- The largest power of two that is at most `num / den`, for `num` and `den` other than zero. -/
def binade (num den : Nat) : Int :=
  let guess : Int := num.log2 - den.log2
  if num * Nat.pow 2 (-guess).toNat < den * Nat.pow 2 guess.toNat then guess - 1 else guess

/-- The exponent at which `num / den` has a mantissa of 53 bits, or the least one. -/
def scale (num den : Nat) : Int :=
  max (binade num den - 52) (-1074)

/-- The double nearest to `num / den` with a sign. -/
def nearest (negative : Bool) (num den : Nat) : Binary64 :=
  if num = 0 then zero negative
  else
    let e := scale num den
    let m := roundHalfEven (num * Nat.pow 2 (-e).toNat) (den * Nat.pow 2 e.toNat)
    if m < Nat.pow 2 53 then pack negative m e else pack negative (m / 2) (e + 1)

def ofNat (n : Nat) : Binary64 :=
  nearest false n 1

/-- The double nearest to `digits * 10 ^ exponent` with a sign. -/
def ofDecimal (negative : Bool) (digits : Nat) (exponent : Int) : Binary64 :=
  if digits = 0 then zero negative
  else if 400 < exponent then infinite negative
  else if exponent + (digits.log2 + 1100 : Nat) < 0 then zero negative
  else nearest negative (digits * Nat.pow 10 exponent.toNat) (Nat.pow 10 (-exponent).toNat)

/-- Whether a double is a number and no infinity. -/
def isFinite : Binary64 → Bool
  | finite _ _ _ _ => true
  | _ => false

/-- Whether a double has its sign bit set; of a value that is not a number it is taken as clear. -/
def signed : Binary64 → Bool
  | nan => false
  | infinite negative => negative
  | finite negative _ _ _ => negative

def isZero : Binary64 → Bool
  | finite _ mantissa _ _ => mantissa == 0
  | _ => false

def isNegative (x : Binary64) : Bool :=
  x.signed && !x.isZero

def isPositive : Binary64 → Bool
  | nan => false
  | x => !x.signed && !x.isZero

/-- A double with its sign set as told. -/
def withSign (negative : Bool) : Binary64 → Binary64
  | nan => nan
  | infinite _ => infinite negative
  | finite _ mantissa exponent bounded => finite negative mantissa exponent bounded

def abs (x : Binary64) : Binary64 :=
  x.withSign false

instance : Neg Binary64 where
  neg x := x.withSign !x.signed

/-- The numerator of the magnitude of a finite double over `denominator`. -/
def numerator : Binary64 → Nat
  | finite _ mantissa exponent _ => mantissa * Nat.pow 2 exponent.toNat
  | _ => 0

/-- The denominator of the magnitude of a finite double, a power of two. -/
def denominator : Binary64 → Nat
  | finite _ _ exponent _ => Nat.pow 2 (-exponent).toNat
  | _ => 1

/-- The product, rounded once. -/
protected def mul (x y : Binary64) : Binary64 :=
  let negative := x.signed != y.signed
  if x = nan ∨ y = nan then nan
  else if x.isFinite ∧ y.isFinite then
    nearest negative (x.numerator * y.numerator) (x.denominator * y.denominator)
  else if x.isZero ∨ y.isZero then nan
  else infinite negative

/-- The quotient, rounded once. -/
protected def div (x y : Binary64) : Binary64 :=
  let negative := x.signed != y.signed
  if x = nan ∨ y = nan then nan
  else if y.isFinite then
    if x.isFinite then
      if y.isZero then (if x.isZero then nan else infinite negative)
      else nearest negative (x.numerator * y.denominator) (x.denominator * y.numerator)
    else infinite negative
  else if x.isFinite then zero negative
  else nan

instance : Mul Binary64 := ⟨Binary64.mul⟩

instance : Div Binary64 := ⟨Binary64.div⟩

/-- The nearest integral double; a tie goes away from zero. -/
def round : Binary64 → Binary64
  | finite negative mantissa exponent bounded =>
    if 0 ≤ exponent then finite negative mantissa exponent bounded
    else nearest negative (roundHalfUp mantissa (Nat.pow 2 (-exponent).toNat)) 1
  | x => x

def sameMagnitude (x y : Binary64) : Bool :=
  x.isFinite && y.isFinite && x.numerator * y.denominator == y.numerator * x.denominator

theorem denominator_pos (x : Binary64) : 0 < x.denominator := by
  unfold denominator
  split
  · exact Nat.two_pow_pos _
  · exact Nat.one_pos

@[simp] theorem signed_pack (negative : Bool) (m : Nat) (e : Int) :
    (pack negative m e).signed = negative := by
  unfold pack
  split <;> rfl

@[simp] theorem signed_nearest (negative : Bool) (num den : Nat) :
    (nearest negative num den).signed = negative := by
  unfold nearest
  split
  · rfl
  · dsimp only
    split <;> simp

end Binary64

end Receipt
