import Mathlib.Algebra.GroupWithZero.Nat
import Mathlib.Logic.Function.Iterate
import Receipt.Proofs.Composer.Continuation

/-!
# Spacers

A spacer feeds its lines in rounds, as many in each as one feed can move. What the rounds so far have fed and
what is left behind them add up to the lines that were asked for, so no round takes more than there is. What is
left shrinks by 255 in each round until nothing is left, so the rounds come to an end, and all of them but the
last are full.
-/

namespace Receipt.Composer

/-- The rounds that a spacer takes: one for each 255 lines, and one for the rest if there is one. -/
def rounds (lines : UInt32) : Nat :=
  (lines.toNat + 254) / 255

/-- The lines of the feeds in the first rounds of a spacer. -/
def firstFeeds (lines : UInt32) (count : Nat) : List UInt8 :=
  (List.range count).map fun i => nextFeed (behindFeed^[i] lines)

variable {n left : UInt32} {i : Nat}

/-! ### What is left -/

theorem toNat_behindFeed (left : UInt32) : (behindFeed left).toNat = left.toNat - 255 := by
  have hsum := nextFeed_add_behindFeed left
  rw [toNat_nextFeed] at hsum
  omega

theorem toNat_iterate_behindFeed (n : UInt32) (i : Nat) :
    (behindFeed^[i] n).toNat = n.toNat - 255 * i := by
  induction i with
  | zero => rfl
  | succ i ih =>
    rw [Function.iterate_succ_apply', toNat_behindFeed, ih]
    omega

/-- There is something left in front of each round, and nothing behind the last. -/
theorem iterate_behindFeed_eq_zero_iff : behindFeed^[i] n = 0 ↔ rounds n ≤ i := by
  rw [← UInt32.toNat_inj, toNat_iterate_behindFeed, UInt32.toNat_zero, rounds]
  omega

theorem rounds_of_ne_zero (h : left ≠ 0) : rounds left = rounds (behindFeed left) + 1 := by
  have hless := toNat_behindFeed_lt h
  rw [rounds, rounds, toNat_behindFeed]
  omega

/-! ### What is fed -/

theorem length_firstFeeds (n : UInt32) (i : Nat) : (firstFeeds n i).length = i := by
  rw [firstFeeds, List.length_map, List.length_range]

theorem getElem_firstFeeds (n : UInt32) {i j : Nat} (h : i < (firstFeeds n j).length) :
    (firstFeeds n j)[i] = nextFeed (behindFeed^[i] n) := by
  simp only [firstFeeds, List.getElem_map, List.getElem_range]

theorem firstFeeds_succ (n : UInt32) (i : Nat) :
    firstFeeds n (i + 1) = firstFeeds n i ++ [nextFeed (behindFeed^[i] n)] := by
  rw [firstFeeds, List.range_succ, List.map_append, List.map_singleton, firstFeeds]

theorem firstFeeds_succ_eq_cons (n : UInt32) (i : Nat) :
    firstFeeds n (i + 1) = nextFeed n :: firstFeeds (behindFeed n) i := by
  rw [firstFeeds, List.range_succ_eq_map, List.map_cons, List.map_map]
  rfl

theorem take_firstFeeds (n : UInt32) {i j : Nat} (h : i ≤ j) :
    (firstFeeds n j).take i = firstFeeds n i := by
  rw [firstFeeds, ← List.map_take, List.take_range, Nat.min_eq_left h, firstFeeds]

/-- What has been fed and what is left are the lines asked for, after any number of rounds. -/
theorem sum_firstFeeds (n : UInt32) (i : Nat) :
    ((firstFeeds n i).map UInt8.toNat).sum + (behindFeed^[i] n).toNat = n.toNat := by
  induction i with
  | zero => exact Nat.zero_add _
  | succ i ih =>
    have hround := nextFeed_add_behindFeed (behindFeed^[i] n)
    rw [firstFeeds_succ, Function.iterate_succ_apply', List.map_append, List.sum_append,
      List.map_singleton, List.sum_singleton]
    omega

theorem nextFeed_of_le (h : 255 ≤ left.toNat) : nextFeed left = 255 := by
  rw [← UInt8.toNat_inj, toNat_nextFeed, Nat.min_eq_right h]
  rfl

/-- A round that is not the last is full. -/
theorem nextFeed_iterate_of_lt (h : i + 1 < rounds n) : nextFeed (behindFeed^[i] n) = 255 := by
  refine nextFeed_of_le ?_
  rw [rounds] at h
  rw [toNat_iterate_behindFeed]
  omega

/-- A spacer feeds round by round what is left, and stops when nothing is. -/
theorem feedOps_eq_firstFeeds (n : UInt32) : feedOps n = (firstFeeds n (rounds n)).map .feed := by
  by_cases hnone : n = 0
  · rw [hnone, feedOps_zero]
    rfl
  · rw [feedOps_of_ne_zero hnone, feedOps_eq_firstFeeds (behindFeed n), rounds_of_ne_zero hnone,
      firstFeeds_succ_eq_cons, List.map_cons]
termination_by n.toNat
decreasing_by exact toNat_behindFeed_lt hnone

example : feedOps 300 = [.feed 255, .feed 45] := by decide +kernel

/-- A spacer feeds exactly the lines that it asks for, or a single one if it does not say how many, whatever
else stands in the section, its rule and the composer. In each round there is something left, and the feed takes
no more than that; behind the last round nothing is left. -/
theorem spacer_feeds_its_lines (n : UInt32) :
    ∃ counts : List UInt8,
      (∀ (c : Composer) (s : Section) (rule : Rule),
        c.dialect.vocabulary.get? s.tag = some rule → rule.kind = .spacer → s.lines.getD 1 = n →
        c.push s = ({ c with program := c.program ++ counts.map .feed }, none)) ∧
      (∀ k ∈ counts, 1 ≤ k.toNat ∧ k.toNat ≤ 255) ∧
      (∀ k ∈ counts.dropLast, k = 255) ∧
      (counts.map UInt8.toNat).sum = n.toNat ∧
      counts.length = (n.toNat + 254) / 255 ∧
      (∀ (i : Nat) (h : i < counts.length),
        let left := behindFeed^[i] n
        left ≠ 0 ∧ counts[i] = nextFeed left ∧ counts[i].toUInt32 ≤ left ∧
          ((counts.take i).map UInt8.toNat).sum + left.toNat = n.toNat) ∧
      behindFeed^[counts.length] n = 0 := by
  have hlength := length_firstFeeds n (rounds n)
  have hended : behindFeed^[rounds n] n = 0 := iterate_behindFeed_eq_zero_iff.mpr (Nat.le_refl _)
  have hsome : ∀ i < rounds n, behindFeed^[i] n ≠ 0 := fun i hi hzero =>
    absurd (iterate_behindFeed_eq_zero_iff.mp hzero) (by omega)
  refine ⟨firstFeeds n (rounds n), fun c s rule hlisted hspacer hlines => ?_, fun k hk => ?_,
    fun k hk => ?_, ?_, hlength, fun i hi => ?_, hlength.symm ▸ hended⟩
  · rw [push_spacer hlisted hspacer, took, register_feedOps, hlines, feedOps_eq_firstFeeds]
  · obtain ⟨i, hi, rfl⟩ := List.mem_map.mp hk
    refine ⟨one_le_toNat_nextFeed (hsome i (List.mem_range.mp hi)), ?_⟩
    rw [toNat_nextFeed]
    exact Nat.min_le_right _ _
  · rw [List.dropLast_eq_take, hlength, take_firstFeeds n (Nat.sub_le _ _)] at hk
    obtain ⟨i, hi, rfl⟩ := List.mem_map.mp hk
    have hnext := List.mem_range.mp hi
    exact nextFeed_iterate_of_lt (by omega)
  · have hsum := sum_firstFeeds n (rounds n)
    rwa [hended] at hsum
  · rw [hlength] at hi
    rw [getElem_firstFeeds, take_firstFeeds n (Nat.le_of_lt hi)]
    exact ⟨hsome i hi, rfl, nextFeed_le _, sum_firstFeeds n i⟩

/-- The longest spacer is fed in full rounds alone, behind what the composer has printed already; the text, the
alignment and the style that are written for it do not count. -/
theorem longest_spacer_is_fed_in_full_rounds :
    let rule : Rule := { kind := .spacer, content := some "gap", multiline := true, binding := some .total }
    let c : Composer := {
      dialect := { vocabulary := .insertAll ∅ [("gap", rule)], options := { autoFeed := true } }
      alignment := .center
      program := [.align .center] }
    let s : Section := {
      tag := "gap", content := some "ignored", alignment := some .right, lines := some 4294967295,
      style := some { bold := some true } }
    c.dialect.vocabulary.get? s.tag = some rule ∧ rule.kind = .spacer ∧ s.lines.getD 1 = 4294967295 ∧
      ∃ counts : List UInt8,
        c.push s = ({ c with program := .align .center :: counts.map .feed }, none) ∧
        counts.length = 16843009 ∧ (counts.map UInt8.toNat).sum = 4294967295 ∧
        ∀ k ∈ counts, k = 255 := by
  intro rule c s
  have hlisted : c.dialect.vocabulary.get? s.tag = some rule := by decide
  obtain ⟨counts, hpush, -, -, hsum, hlength, hrounds, -⟩ := spacer_feeds_its_lines 4294967295
  refine ⟨hlisted, rfl, rfl, counts, hpush c s rule hlisted rfl rfl, hlength, hsum, fun k hk => ?_⟩
  obtain ⟨i, hi, rfl⟩ := List.getElem_of_mem hk
  have hleft : 255 ≤ (behindFeed^[i] 4294967295).toNat := by
    have hround : i < 16843009 := Nat.lt_of_lt_of_eq hi hlength
    rw [toNat_iterate_behindFeed]
    show 255 ≤ 4294967295 - 255 * i
    omega
  rw [(hrounds i hi).2.1]
  exact nextFeed_of_le hleft

end Receipt.Composer
