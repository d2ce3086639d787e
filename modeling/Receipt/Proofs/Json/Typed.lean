import Receipt.Json.Record
import Receipt.Proofs.Json.ReadBack

/-!
# Typed values read back

Records are read straight from the text. What is written for a scalar, a word or a null is taken by the
reader of its kind, behind any blanks, and a record is taken by its reader if each of its members is.
-/

namespace Receipt.Json

/-! ### Kinds -/

theorem take?_below {bound n : Nat} (h : n < bound) (expected : String) :
    (Scalar.below bound expected).take? (.integer n) = some (.ok n) := by
  have hrange : (0 : Int) ≤ n ∧ (n : Int) < bound := by omega
  unfold Scalar.below
  dsimp only
  rw [if_pos hrange, Int.toNat_natCast]

theorem ofValue_word32 (n : UInt32) : Scalar.word32.ofValue (.integer n.toNat) = .ok n := by
  unfold Scalar.ofValue Scalar.word32 Scalar.map
  dsimp only
  rw [take?_below n.toNat_lt_size]
  show Except.ok (UInt32.ofNat n.toNat) = _
  rw [UInt32.ofNat_toNat]

theorem ofValue_word64 (n : UInt64) : Scalar.word64.ofValue (.integer n.toNat) = .ok n := by
  unfold Scalar.ofValue Scalar.word64 Scalar.map
  dsimp only
  rw [take?_below n.toNat_lt_size]
  show Except.ok (UInt64.ofNat n.toNat) = _
  rw [UInt64.ofNat_toNat]

variable {α β : Type}

/-! ### Readers in steps -/

theorem Reads.map {reader : Reader α} {text : List Char} {a : α} (h : Reads reader text a) (g : α → β) :
    Reads (fun cs => do
      let (a, rest) ← reader cs
      pure (g a, rest)) text (g a) := by
  intro rest hrest
  dsimp only
  rw [h rest hrest]
  rfl

/-- What stands behind a key is read behind its colon. -/
theorem Reads.behindColon {reader : Reader α} {text : List Char} {a : α} (h : Reads reader text a) :
    Reads (fun cs => do reader (← readColon cs)) (':' :: text) a := by
  intro rest hrest
  exact h rest hrest

variable {σ : Type}

theorem Takes.append {member : String → σ → Reader σ} {s s' s'' : σ} {l l' : List (String × List Char)}
    (h : Takes member s l s') (h' : Takes member s' l' s'') : Takes member s (l ++ l') s'' := by
  induction h with
  | nil => exact h'
  | cons step _ ih => exact .cons step (ih h')

/-- What stands behind the opening bracket of an object is read up to the closing one. -/
theorem reads_members {member : String → σ → Reader σ} {lead tail : List Char} (hlead : Blank lead)
    (htail : Blank tail) {s s' : σ} {l : List (String × List Char)} (h : Takes member s l s') :
    Reads (readObject member s) (entries lead true (l.map keyed) ++ (tail ++ ['}'])) s' := by
  intro rest _
  rw [List.append_assoc, List.append_assoc, List.singleton_append]
  exact readObject_entries hlead htail rest h

section Blanks

variable {blank : List Char} (hblank : Blank blank)

include hblank

theorem skipSpace_open {c : Char} (hc : isSpace c = false) (text rest : List Char) :
    skipSpace (blank ++ c :: text ++ rest) = c :: (text ++ rest) := by
  rw [List.append_assoc, skipSpace_blank hblank, List.cons_append, skipSpace_cons hc]

theorem reads_value {depth : Nat} {v : Value} (hv : v.Simple) :
    Reads (readValue depth) (blank ++ writeScalar v) v := by
  intro rest hrest
  have hread := reads_writePretty (.scalar depth hv) 0 rest hrest
  rw [writePretty_simple 0 hv] at hread
  rw [List.append_assoc, readValue_blank depth hblank, hread]

/-- A scalar is taken if it has a meaning. -/
theorem reads_scalar {k : Scalar α} {v : Value} {a : α} (hv : v.Simple) (hk : k.ofValue v = .ok a) :
    Reads k.read (blank ++ writeScalar v) a := by
  intro rest hrest
  obtain ⟨c, cs, heq, hc⟩ := writeScalar_simple hv
  have hread := readScalar_simple hv hrest
  have hskip : skipSpace (blank ++ writeScalar v ++ rest) = writeScalar v ++ rest := by
    rw [List.append_assoc, skipSpace_blank hblank, heq, List.cons_append, skipSpace_cons hc.not_blank]
  have hsettle : settle (k.ofValue v) rest = .ok (a, rest) := by
    rw [hk]
    rfl
  unfold Scalar.read
  rw [hskip]
  split
  · next h => exact absurd (List.cons.inj (heq ▸ h : c :: cs ++ rest = _)).1 hc.not_open.1
  · next h => exact absurd (List.cons.inj (heq ▸ h : c :: cs ++ rest = _)).1 hc.not_open.2
  · rw [hread]
    exact hsettle

theorem skipSpace_text (s : String) (rest : List Char) :
    skipSpace (blank ++ writeText s ++ rest) =
      '"' :: (s.toList.flatMap escapeChar ++ '"' :: rest) := by
  rw [List.append_assoc, skipSpace_blank hblank, writeText_append, skipSpace_cons (by decide)]

theorem reads_word {words : Words α} {word : String} {a : α} (h : words.meaning word = .ok a)
    (depth : Nat) : Reads (words.read depth) (blank ++ writeText word) a := by
  intro rest _
  unfold Words.read
  rw [skipSpace_text hblank]
  show words.readMeaning _ = _
  unfold Words.readMeaning
  rw [readText_escaped]
  show settle (words.meaning word) rest = _
  rw [h]
  rfl

theorem reads_null (reader : Reader α) : Reads (readOption reader) (blank ++ writeScalar .null) none := by
  intro rest _
  have hskip : skipSpace (blank ++ writeScalar .null ++ rest) = 'n' :: 'u' :: 'l' :: 'l' :: rest := by
    rw [List.append_assoc, skipSpace_blank hblank]
    rfl
  unfold readOption
  rw [hskip]
  rfl

/-- Where null may stand, a text is taken as it is. -/
theorem reads_some {reader : Reader α} {s : String} {a : α} (h : Reads reader (writeText s) a) :
    Reads (readOption reader) (blank ++ writeText s) (some a) := by
  intro rest hrest
  have hread := h rest hrest
  rw [writeText_append] at hread
  unfold readOption
  rw [skipSpace_text hblank]
  show (reader _ >>= fun p => pure (some p.1, p.2)) = _
  rw [hread]
  rfl

/-! ### Records -/

namespace Record

omit hblank

variable {r : Record α} {depth : Nat}

theorem reads_member {key : String} {seen : List String} {a b : α} {field : Field α}
    {text : List Char} (hfield : r.fields.find? (·.name == key) = some field) (hseen : key ∉ seen)
    (hread : Reads (field.read depth a) text b) :
    Reads (r.member depth key (seen, a)) (':' :: text) (key :: seen, b) := by
  unfold member
  simp only [hfield, hseen, ↓reduceIte]
  exact hread.behindColon.map fun b => (key :: seen, b)

include hblank

/-- A record without required fields is taken if its members are. -/
theorem reads_object (hoptional : ∀ field ∈ r.fields, field.required = false) {lead tail : List Char}
    (hlead : Blank lead) (htail : Blank tail) {l : List (String × List Char)} {a : α}
    (h : ∃ seen, Takes (r.member depth) ([], r.blank) l (seen, a)) :
    Reads (r.read (depth + 1))
      (blank ++ '{' :: (entries lead true (l.map keyed) ++ (tail ++ ['}']))) a := by
  intro rest hrest
  obtain ⟨seen, htakes⟩ := h
  have hnone : (r.fields.find? fun field => field.required && !seen.contains field.name) = none := by
    rw [List.find?_eq_none]
    intro field hfield
    rw [hoptional field hfield]
    exact Bool.false_ne_true
  unfold read
  rw [skipSpace_open hblank (by decide)]
  show (readObject (r.member depth) ([], r.blank) _ >>= fun p => _) = _
  rw [reads_members hlead htail htakes rest hrest]
  dsimp only [bind, Except.bind]
  rw [hnone]
  rfl

end Record

end Blanks

end Receipt.Json
