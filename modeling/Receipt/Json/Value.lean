import Receipt.Number.Binary64

/-!
# JSON values

Values keep what the text of a document says: the members of an object stand in the order of the
text, with repeated keys. Looking a key up finds its last member.
-/

namespace Receipt.Json

inductive Value where
  | null
  | boolean (b : Bool)
  /-- A number that is written without point and exponent and fits 64 bits. -/
  | integer (n : Int)
  /-- Any other number. -/
  | double (x : Binary64)
  | text (s : String)
  | array (items : List Value)
  | object (members : List (String × Value))
deriving Repr, Inhabited

/-- The members of an object, in the order of the text. -/
abbrev Members := List (String × Value)

namespace Members

/-- The value of a key: of several members the last. -/
def value? (ms : Members) (key : String) : Option Value :=
  ms.reverse.lookup key

/-- The key and the value of an object with one key, which may be repeated. -/
def single? (ms : Members) : Option (String × Value) :=
  match ms.getLast? with
  | some (key, value) => if ms.all (·.1 == key) then some (key, value) else none
  | none => none

@[simp] theorem value?_nil (key : String) : value? [] key = none := rfl

theorem value?_concat (ms : Members) (k key : String) (v : Value) :
    value? (ms ++ [(k, v)]) key = if key = k then some v else value? ms key := by
  by_cases h : key = k
  · simp [value?, h]
  · have : (key == k) = false := by simpa using h
    simp [value?, List.lookup_cons, h, this]

theorem value?_append (ms ns : Members) (key : String) :
    value? (ms ++ ns) key = (value? ns key).or (value? ms key) := by
  simp only [value?, List.reverse_append, List.lookup_append]

theorem value?_cons (ms : Members) (k key : String) (v : Value) :
    value? ((k, v) :: ms) key = (value? ms key).or (if key = k then some v else none) := by
  have hone : value? [(k, v)] key = if key = k then some v else none := value?_concat [] k key v
  rw [← List.singleton_append, value?_append, hone]

end Members

/-- A member with some key, if there is a value for it. -/
def member? (key : String) (v : Option Value) : Members :=
  v.toList.map fun v => (key, v)

theorem value?_member? (k key : String) (v : Option Value) :
    Members.value? (member? k v) key = if key = k then v else none := by
  cases v with
  | none => simp [member?]
  | some v => exact Members.value?_concat [] k key v

theorem mem_member? {key : String} {v : Option Value} {m : String × Value}
    (h : m ∈ member? key v) : v = some m.2 := by
  obtain ⟨w, hw, rfl⟩ := List.mem_map.mp h
  exact Option.mem_toList.mp hw

end Receipt.Json
