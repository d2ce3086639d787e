/-!
# Chunks

A list cut into stretches of equal length, of which the last may be shorter. Lines of a preview and
writes to a device are cut in this way.
-/

namespace Receipt

/-- Cuts a list into chunks of `n + 1` entries; the last chunk has what is left. -/
def chunks {α : Type} (n : Nat) : List α → List (List α)
  | [] => []
  | a :: l => (a :: l.take n) :: chunks n (l.drop n)
termination_by l => l.length
decreasing_by
  simp only [List.length_drop, List.length_cons]
  omega

variable {α : Type}

@[simp] theorem chunks_nil (n : Nat) : chunks n ([] : List α) = [] := by
  simp only [chunks]

theorem chunks_cons (n : Nat) (a : α) (l : List α) :
    chunks n (a :: l) = (a :: l.take n) :: chunks n (l.drop n) := by
  simp only [chunks]

/-- Nothing is lost by cutting. -/
theorem flatten_chunks (n : Nat) : ∀ l : List α, (chunks n l).flatten = l
  | [] => by rw [chunks_nil, List.flatten_nil]
  | a :: l => by
    rw [chunks_cons, List.flatten_cons, flatten_chunks n (l.drop n), List.cons_append,
      List.take_append_drop]
termination_by l => l.length
decreasing_by
  simp only [List.length_drop, List.length_cons]
  omega

/-- No chunk has more than `n + 1` entries. -/
theorem length_le_of_mem_chunks (n : Nat) :
    ∀ l : List α, ∀ c ∈ chunks n l, c.length ≤ n + 1
  | [] => by simp
  | a :: l => by
    intro c hc
    rw [chunks_cons, List.mem_cons] at hc
    rcases hc with rfl | hc
    · rw [List.length_cons, List.length_take]
      omega
    · exact length_le_of_mem_chunks n (l.drop n) c hc
termination_by l => l.length
decreasing_by
  simp only [List.length_drop, List.length_cons]
  omega

end Receipt
