import Receipt.Proofs.Json.ReadBack

/-!
# The two forms of written values

Values are written without blanks or over several lines. Both forms put the members of an object between
commas, each behind some blanks and with some blanks behind its colon, so that whoever reads objects can
do without knowing which form it is.
-/

namespace Receipt.Json

inductive Form where
  | compact
  /-- Over several lines, at some level. -/
  | pretty (level : Nat)

namespace Form

def write : Form → Value → List Char
  | compact => writeCompact
  | pretty level => writePretty level

/-- The form of what stands in the brackets of a value. -/
def inner : Form → Form
  | compact => compact
  | pretty level => pretty (level + 1)

/-- The blanks in front of an entry. -/
def lead : Form → List Char
  | compact => []
  | pretty level => indent (level + 1)

/-- The blanks behind a colon. -/
def gap : Form → List Char
  | compact => []
  | pretty _ => [' ']

/-- A member of an object: its key, and what stands behind the key. -/
def member (f : Form) (m : String × Value) : String × List Char :=
  (m.1, ':' :: (f.gap ++ f.inner.write m.2))

theorem blank_lead (f : Form) : Blank f.lead := by
  cases f with
  | compact => exact blank_nil
  | pretty level => exact blank_indent (level + 1)

theorem blank_gap (f : Form) : Blank f.gap := by
  cases f with
  | compact => exact blank_nil
  | pretty level => exact List.forall_mem_singleton.mpr (by decide)

theorem write_simple (f : Form) {v : Value} (h : v.Simple) : f.write v = writeScalar v := by
  cases f with
  | compact => cases h <;> rfl
  | pretty level => exact writePretty_simple level h

theorem writeMembers_eq (ms : Members) :
    writeMembers ms = entries [] true ((ms.map compact.member).map keyed) := by
  induction ms with
  | nil => rw [writeMembers, List.map_nil, List.map_nil, entries]
  | cons m ms ih =>
    cases ms with
    | nil => simp [writeMembers, entries, keyed, member, gap, inner, write]
    | cons n ms =>
      rw [writeMembers, ih]
      · simp [entries, keyed, member, gap, inner, write]
      · simp

/-- Either form writes an object as its members between commas. -/
theorem write_object (f : Form) (ms : Members) :
    ∃ tail, Blank tail ∧ f.write (.object ms) =
      '{' :: (entries f.lead true ((ms.map f.member).map keyed) ++ (tail ++ ['}'])) := by
  cases f with
  | compact =>
    refine ⟨[], blank_nil, ?_⟩
    show writeCompact (.object ms) = _
    rw [writeCompact, writeMembers_eq]
    rfl
  | pretty level => exact writePretty_object level ms

end Form

end Receipt.Json
