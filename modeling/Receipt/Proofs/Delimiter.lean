import Mathlib.Data.List.DropRight
import Mathlib.Data.List.Infix
import Mathlib.Data.List.TakeWhile

/-!
# Delimiters

An element keeps apart what stands on its two sides: a list without it that begins in front of it ends
in front of it, and a list without it that is cut off the front leaves it where it is.
-/

namespace Receipt

variable {α : Type} {c : α} {a b w x y rest : List α}

/-- A list is cut where an element stands for the first time. -/
theorem takeWhile_append_cons [DecidableEq α] {l : List α} {d : α}
    (h : l.dropWhile (· ≠ d) = c :: rest) : l.takeWhile (· ≠ d) ++ d :: rest = l := by
  have hd : c = d := by
    have hhead := List.head?_dropWhile_not (· ≠ d) l
    rw [h] at hhead
    simpa using hhead
  have hwhole : l.takeWhile (· ≠ d) ++ l.dropWhile (· ≠ d) = l := List.takeWhile_append_dropWhile
  rwa [h, hd] at hwhole

/-- Behind the last place of an element stands what does not have it. -/
theorem rtakeWhile_append_cons [DecidableEq α] {d : α} (h : d ∉ b) :
    (a ++ d :: b).rtakeWhile (· ≠ d) = b := by
  induction b using List.reverseRecOn with
  | nil => exact List.rtakeWhile_concat_neg _ a d (by simp)
  | append_singleton b c ih =>
    rw [List.mem_append, not_or, List.mem_singleton] at h
    have hc : decide (c ≠ d) = true := decide_eq_true (Ne.symm h.2)
    rw [← List.cons_append, ← List.append_assoc, List.rtakeWhile_concat_pos _ _ c hc, ih h.1]

/-- What has no delimiter in it does not reach over one. -/
theorem prefix_of_append_cons (hc : c ∉ w) (h : w <+: a ++ c :: b) : w <+: a := by
  rcases List.prefix_or_prefix_of_prefix h (List.prefix_append a _) with hw | ⟨tail, rfl⟩
  · exact hw
  cases tail with
  | nil => simp
  | cons d tail =>
    have hd : d = c := (List.cons_prefix_cons.mp ((List.prefix_append_right_inj a).mp h)).1
    exact absurd (List.mem_append_right a (hd ▸ List.mem_cons_self)) hc

theorem infix_of_infix_append (hc : c ∉ a) (h : c :: w <:+: a ++ b) : c :: w <:+: b := by
  induction a with
  | nil => exact h
  | cons d a ih =>
    obtain ⟨hd, ha⟩ := List.ne_and_not_mem_of_not_mem_cons hc
    rcases List.infix_cons_iff.mp h with hp | hi
    · exact absurd (List.cons_prefix_cons.mp hp).1 hd
    · exact ih ha hi

theorem exists_of_append_cons_eq (hc : c ∉ w) (h : x ++ c :: y = w ++ rest) :
    ∃ front, x = w ++ front ∧ rest = front ++ c :: y := by
  rcases List.append_eq_append_iff.mp h with ⟨tail, rfl, htail⟩ | ⟨front, hx, hrest⟩
  · cases tail with
    | nil => exact ⟨[], by simp, htail.symm⟩
    | cons d tail =>
      obtain ⟨rfl, -⟩ := List.cons.inj htail
      exact absurd (List.mem_append_right x List.mem_cons_self) hc
  · exact ⟨front, hx, hrest⟩

end Receipt
