/-!
# Placeholders

A text may name figures in braces. `pieces` cuts a text into what stands for itself and the known
placeholders; `resolve` writes their sample values. A brace pair counts only if what stands between
an opening brace and the next closing brace is a name; everything else, unknown names and stray
braces included, stands for itself.
-/

namespace Receipt.Placeholder

def samples : List (String × String) := [
  ("store_name", "BYTE BURGERS"),
  ("store_number", "Store #001"),
  ("order_number", "A-0042"),
  ("date", "12/04/2024"),
  ("time", "12:30 PM"),
  ("item_count", "5"),
  ("subtotal", "$27.95"),
  ("tax_rate", "8.0%"),
  ("tax", "$2.24"),
  ("total", "$30.19"),
  ("customer_name", "John Doe"),
  ("customer_id", "CUST-8826"),
  ("member_status", "GOLD"),
  ("member_since", "2019-03-15"),
  ("loyalty_points", "1,247"),
  ("points_earned", "40"),
  ("payment_method", "VISA ****1234")]

/-- The value of a name, without its braces. -/
def value? (name : String) : Option String :=
  samples.lookup name

def isNameChar (c : Char) : Bool :=
  ('a' ≤ c && c ≤ 'z') || ('0' ≤ c && c ≤ '9') || c = '_'

inductive Piece where
  /-- Stands for itself. -/
  | verbatim (cs : List Char)
  /-- A known name in braces, with its value. -/
  | known (name value : String)
deriving DecidableEq, Repr

namespace Piece

/-- The text of a piece as it was written. -/
def source : Piece → List Char
  | verbatim cs => cs
  | known name _ => '{' :: name.toList ++ ['}']

/-- The text of a piece as it is printed. -/
def printed : Piece → List Char
  | verbatim cs => cs
  | known _ value => value.toList

def isKnown : Piece → Bool
  | verbatim _ => false
  | known _ _ => true

end Piece

/-- What follows an opening brace, if it is a name with its closing brace: the name and the rest. -/
def name? (cs : List Char) : Option (String × List Char) :=
  let name := cs.takeWhile (· ≠ '}')
  match cs.dropWhile (· ≠ '}') with
  | [] => none
  | _ :: rest =>
    if name ≠ [] ∧ name.all isNameChar then some (String.ofList name, rest) else none

/-- The piece that an opening brace starts, and what follows the piece. -/
def braced (cs : List Char) : Piece × List Char :=
  match name? cs with
  | some (name, rest) =>
    match value? name with
    | some value => (.known name value, rest)
    | none => (.verbatim ('{' :: name.toList ++ ['}']), rest)
  | none => (.verbatim ['{'], cs)

theorem length_of_dropWhile {p : Char → Bool} {cs rest : List Char} {c : Char}
    (h : cs.dropWhile p = c :: rest) : rest.length < cs.length := by
  have whole : (cs.takeWhile p ++ cs.dropWhile p).length = cs.length := by
    rw [List.takeWhile_append_dropWhile]
  rw [h, List.length_append, List.length_cons] at whole
  omega

theorem length_name? {cs rest : List Char} {name : String} (h : name? cs = some (name, rest)) :
    rest.length < cs.length := by
  unfold name? at h
  split at h
  · contradiction
  · next heq =>
    dsimp only at h
    split at h
    · simp only [Option.some.injEq, Prod.mk.injEq] at h
      exact h.2 ▸ length_of_dropWhile heq
    · contradiction

theorem length_braced (cs : List Char) : (braced cs).2.length ≤ cs.length := by
  unfold braced
  split
  · next name rest h =>
    have := length_name? h
    split <;> exact Nat.le_of_lt this
  · exact Nat.le_refl _

/-- The pieces of a text, in order. -/
def pieces (cs : List Char) : List Piece :=
  match _h : cs.dropWhile (· ≠ '{') with
  | [] => [.verbatim cs]
  | _ :: after =>
    .verbatim (cs.takeWhile (· ≠ '{')) :: (braced after).1 :: pieces (braced after).2
termination_by cs.length
decreasing_by
  exact Nat.lt_of_le_of_lt (length_braced after) (length_of_dropWhile _h)

def resolve (s : String) : String :=
  String.ofList ((pieces s.toList).flatMap Piece.printed)

def isTemplate (s : String) : Bool :=
  (pieces s.toList).any Piece.isKnown

end Receipt.Placeholder
