import Receipt.Json.Fault

/-!
# Kinds of scalar values

What a place may hold: a text, a truth value, a whole number up to a bound, an amount, or one of a
list of words. A kind says which values it takes; the same kinds serve values that have been read and
texts that are being read. A word may also be written as the only key of an object whose value is null.
-/

namespace Receipt.Json

structure Scalar (α : Type) where
  /-- What a value of the kind is called. -/
  expected : String
  /-- What a value means; `none` if it is of another kind. -/
  take? : Value → Option (Except Mismatch α)

namespace Scalar

/-- The meaning of a value, or why it has none. -/
def ofValue {α : Type} (k : Scalar α) (v : Value) : Except Mismatch α :=
  (k.take? v).getD (.error (.wrongType (.ofValue v) k.expected))

def text : Scalar String where
  expected := "a string"
  take?
    | .text s => some (.ok s)
    | _ => none

def boolean : Scalar Bool where
  expected := "a boolean"
  take?
    | .boolean b => some (.ok b)
    | _ => none

/-- Whole numbers below a bound. -/
def below (bound : Nat) (expected : String) : Scalar Nat where
  expected := expected
  take?
    | .integer n =>
      if 0 ≤ n ∧ n < bound then some (.ok n.toNat)
      else some (.error (.wrongValue (.integer n) expected))
    | _ => none

/-- The meaning of a kind, carried on by a function. -/
def map {α β : Type} (f : α → β) (k : Scalar α) : Scalar β where
  expected := k.expected
  take? v := (k.take? v).map (·.map f)

def word32 : Scalar UInt32 :=
  (below UInt32.size "u32").map UInt32.ofNat

def word64 : Scalar UInt64 :=
  (below UInt64.size "usize").map UInt64.ofNat

/-- Amounts; a whole number counts as the nearest double. -/
def amount : Scalar Binary64 where
  expected := "f64"
  take?
    | .integer n => some (.ok (.nearest (n < 0) n.natAbs 1))
    | .double x => some (.ok x)
    | _ => none

end Scalar

abbrev Words (α : Type) := List (String × α)

def Words.meaning {α : Type} (words : Words α) (word : String) : Except Mismatch α :=
  match words.lookup word with
  | some a => .ok a
  | none => .error (.unknownWord word (words.map Prod.fst))

/-- What a value means that may be null or missing. -/
def optional {α : Type} (meaning : Value → Except Mismatch α) :
    Option Value → Except Mismatch (Option α)
  | none => pure none
  | some .null => pure none
  | some v => some <$> meaning v

def Words.ofValue {α : Type} (words : Words α) : Value → Except Mismatch α
  | .text word => words.meaning word
  | .object members => do
    let some (word, v) := Members.single? members | throw (.wrongValue .map "map with a single key")
    let a ← words.meaning word
    match v with
    | .null => pure a
    | v => throw (.wrongType (.ofValue v) "unit")
  | v => throw (.wrongType (.ofValue v) "string or map")

/-- Refuses an array with more elements than a structure has fields. -/
def atMost (fields : Nat) (items : List Value) : Except Mismatch Unit :=
  if items.length ≤ fields then pure ()
  else throw (.wrongLength items.length "fewer elements in array")

end Receipt.Json
