import Receipt.Json.Reader
import Receipt.Proofs.Except
import Receipt.Proofs.Number.Arithmetic

/-!
# Numbers that are read

Every number that is read fits: an integer has at most 64 binary digits, and a double is finite. A number
beyond the doubles is refused where it is scaled up, and scaling down goes through powers of ten that are
doubles of at least one.
-/

namespace Receipt

namespace Binary64

/-- Dividing by a double of at least one stays in range. -/
theorem isFinite_div {x y : Binary64} (hx : x.isFinite = true) (hy : y.isFinite = true)
    (hone : 1 ≤ y.magnitude) : (x / y).isFinite = true := by
  have hzero : y.isZero = false := (magnitude_pos_iff hy).mp (by linarith)
  refine (div_rounds hx hy hzero).finite ?_
  exact (div_le_self x.magnitude_nonneg hone).trans_lt x.magnitude_lt_overflowLimit

theorem isFinite_nearest_whole (negative : Bool) {n : ℕ} (h : n + 2 ^ 970 < 2 ^ 1024) :
    (nearest negative n 1).isFinite = true := by
  refine (nearest_rounds negative n Nat.one_pos).finite ?_
  rw [Nat.cast_one, div_one]
  exact natCast_lt_overflowLimit h

theorem isFinite_nearest_word (negative : Bool) {n : ℕ} (h : n < 2 ^ 64) :
    (nearest negative n 1).isFinite = true := by
  have htop : 2 ^ 64 + 2 ^ 970 < 2 ^ 1024 := by decide +kernel
  exact isFinite_nearest_whole negative (by omega)

/-- One is a double, so nothing above it is rounded to less. -/
theorem one_le_magnitude_nearest (negative : Bool) {n : ℕ} (hpos : 0 < n) (h : n + 2 ^ 970 < 2 ^ 1024) :
    1 ≤ (nearest negative n 1).magnitude := by
  have hwhole := nearest_whole false (show 1 < 2 ^ 53 by decide)
  have hone : (1 : ℚ) ≤ n := by exact_mod_cast hpos
  have hlimit : (n : ℚ) / (1 : ℕ) < overflowLimit := by
    rw [Nat.cast_one, div_one]
    exact natCast_lt_overflowLimit h
  have hnear := (nearest_rounds negative n Nat.one_pos).nearest hlimit _ hwhole.1
  rw [hwhole.2, Nat.cast_one, div_one, abs_sub_comm 1, abs_of_nonneg (sub_nonneg.mpr hone)] at hnear
  linarith [(abs_le.mp hnear).1]

end Binary64

namespace Json

open Binary64

/-- A number that is in the range of its kind. -/
def Value.InRange : Value → Prop
  | .integer n => n.natAbs < 2 ^ 64
  | .double x => x.isFinite = true
  | _ => True

theorem ten_pow_add_lt {k top c d : ℕ} (h : k ≤ top) (htop : 10 ^ top + c < d) : 10 ^ k + c < d :=
  (Nat.add_le_add_right (Nat.pow_le_pow_right (by decide) h) c).trans_lt htop

theorem powerOfTen_range {k : ℕ} (h : k ≤ 308) :
    (powerOfTen k).isFinite = true ∧ 1 ≤ (powerOfTen k).magnitude := by
  have htop : 10 ^ 308 + 2 ^ 970 < 2 ^ 1024 := by decide +kernel
  have hfits := ten_pow_add_lt h htop
  exact ⟨isFinite_nearest_whole false hfits, one_le_magnitude_nearest false (Nat.pow_pos (by decide)) hfits⟩

theorem digit_lt (c : Char) : digit c < 2 ^ 64 := by
  have hc : c.toNat < 2 ^ 32 := c.val.toNat_lt
  unfold digit
  omega

theorem gather_lt {n : ℕ} (h : n < 2 ^ 64) (cs : List Char) : (gather n cs).1 < 2 ^ 64 := by
  fun_induction gather n cs with
  | case1 n => exact h
  | case2 n c cs hc ih => exact ih hc.2
  | case3 n c cs hc => exact h

theorem isFinite_of_scaled? {n : ℕ} (hn : n < 2 ^ 64) {exponent : ℤ} {x : Binary64}
    (h : scaled? n exponent = some x) : x.isFinite = true := by
  have hf : (ofNat n).isFinite = true := isFinite_nearest_word false hn
  unfold scaled? at h
  dsimp only at h
  split at h
  · cases h
    exact hf
  split at h
  · cases h
  split at h
  · split at h
    case isTrue hproduct =>
      cases h
      exact hproduct
    case isFalse => cases h
  split at h
  · obtain ⟨hpower, hone⟩ := powerOfTen_range (k := (-exponent).toNat) (by omega)
    cases h
    exact isFinite_div hf hpower hone
  split at h
  · obtain ⟨htop, htopOne⟩ := powerOfTen_range (le_refl 308)
    obtain ⟨hpower, hone⟩ := powerOfTen_range (k := (-exponent - 308).toNat) (by omega)
    cases h
    exact isFinite_div (isFinite_div hf htop htopOne) hpower hone
  · cases h
    rfl

/-! ### Results of readers -/

section Gives

variable {α β : Type}

/-- What is read, if anything is, has a property. -/
def Gives (p : α → Prop) (result : Except Fault (α × List Char)) : Prop :=
  ∀ a rest, result = .ok (a, rest) → p a

variable {p : α → Prop} {q : β → Prop}

theorem gives_error (fault : Fault) : Gives p (.error fault) := nofun

theorem gives_ok {a : α} (h : p a) (rest : List Char) : Gives p (.ok (a, rest)) := by
  intro b rest' heq
  cases heq
  exact h

/-- A step of which nothing is known. -/
theorem gives_step {σ : Type} {x : Except Fault σ} {f : σ → Except Fault (α × List Char)}
    (h : ∀ s, Gives p (f s)) : Gives p (x >>= f) := by
  intro a rest heq
  obtain ⟨s, -, hs⟩ := bind_eq_ok_iff.mp heq
  exact h s a rest hs

theorem gives_bind {x : Except Fault (β × List Char)} {f : β × List Char → Except Fault (α × List Char)}
    (hx : Gives q x) (h : ∀ b rest, q b → Gives p (f (b, rest))) : Gives p (x >>= f) := by
  intro a rest heq
  obtain ⟨⟨b, rest'⟩, hb, ha⟩ := bind_eq_ok_iff.mp heq
  exact h b rest' (hx b rest' hb) a rest ha

end Gives

/-! ### Readers of numbers -/

section Numbers

variable (negative : Bool) {n : ℕ} (hn : n < 2 ^ 64) (exponent offset : ℤ) (cs : List Char)

include hn

theorem gives_finishNumber : Gives Value.InRange (finishNumber negative n exponent cs) := by
  unfold finishNumber
  split
  case h_1 x hx =>
    refine gives_ok ?_ cs
    have hfinite := isFinite_of_scaled? hn hx
    cases negative with
    | false => exact hfinite
    | true => exact (isFinite_neg x).trans hfinite
  case h_2 => exact gives_error _

theorem gives_readExponent : Gives Value.InRange (readExponent negative n offset cs) := by
  unfold readExponent
  -- The first split is on the sign of the exponent, on which nothing depends.
  split
  split
  · exact gives_error _
  split
  · split
    · split
      · split
        · exact gives_error _
        · exact gives_ok (show (Value.double (zero negative)).InRange from rfl) _
      · exact gives_finishNumber negative hn _ _
    · exact gives_finishNumber negative hn _ _
  · exact gives_error _

theorem gives_readScale : Gives Value.InRange (readScale negative n offset cs) := by
  unfold readScale
  split
  · exact gives_readExponent negative hn offset _
  · exact gives_readExponent negative hn offset _
  · exact gives_finishNumber negative hn offset cs

theorem gives_readFraction : Gives Value.InRange (readFraction negative n offset cs) := by
  have hm := gather_lt hn cs
  unfold readFraction
  generalize gather n cs = gathered at hm
  obtain ⟨m, rest⟩ := gathered
  dsimp only
  split
  · split
    · exact gives_error _
    · split
      · exact gives_readScale negative hn offset _
      · exact gives_error _
  · exact gives_readScale negative hm _ _

theorem gives_readTail : Gives Value.InRange (readTail negative n offset cs) := by
  unfold readTail
  split
  · exact gives_readFraction negative hn offset _
  · exact gives_readScale negative hn offset cs

theorem inRange_integral : (integral negative n).InRange := by
  unfold integral
  split
  · split
    · show (-(n : ℤ)).natAbs < 2 ^ 64
      omega
    · exact (isFinite_neg _).trans (isFinite_nearest_word false hn)
  · exact hn

omit hn

theorem gives_readNumber : Gives Value.InRange (readNumber negative cs) := by
  unfold readNumber
  split
  · exact gives_error _
  · split
    · split
      · exact gives_error _
      · split
        · exact gives_readTail negative (by decide) 0 _
        · exact gives_ok (inRange_integral negative (by decide)) _
    · exact gives_ok (inRange_integral negative (by decide)) _
  · split
    case isTrue c rest _ hdigit =>
      have hm := gather_lt (digit_lt c) rest
      split
      · rename_i m d after hgather
        rw [hgather] at hm
        split
        · exact gives_readTail negative hm _ _
        · split
          · exact gives_readTail negative hm 0 _
          · exact gives_ok (inRange_integral negative hm) _
      · rename_i m hgather
        rw [hgather] at hm
        exact gives_ok (inRange_integral negative hm) _
    case isFalse => exact gives_error _

theorem gives_readScalar : Gives Value.InRange (readScalar cs) := by
  unfold readScalar
  split
  · exact gives_error _
  · exact gives_step fun rest => gives_ok trivial rest
  · exact gives_step fun rest => gives_ok trivial rest
  · exact gives_step fun rest => gives_ok trivial rest
  · exact gives_step fun read => gives_ok trivial read.2
  · exact gives_readNumber true _
  · split
    · exact gives_readNumber false _
    · exact gives_error _

end Numbers

end Json

end Receipt
