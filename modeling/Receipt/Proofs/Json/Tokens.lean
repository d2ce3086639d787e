import Mathlib.Data.List.Basic
import Receipt.Json.Reader
import Receipt.Json.Writer

/-!
# Tokens read back

What the writer makes of a text or of an integer is taken off the front of a text by the reader, which
leaves everything behind it. An integer has no end of its own: the reader goes on as long as a number
could. So what stands behind a value is asked to end a number, as every bracket, comma and blank does.
Doubles are left out, since the reader may miss the last bit of one.
-/

namespace Receipt.Json

/-- A text that does not carry on a number in front of it. -/
def EndsNumber (rest : List Char) : Prop :=
  hasTail rest = false ∧ ∀ c ∈ rest.head?, c.isDigit = false

theorem endsNumber_nil : EndsNumber [] :=
  ⟨rfl, fun _ h => nomatch h⟩

theorem endsNumber_cons {c : Char} {rest : List Char} (hdigit : c.isDigit = false)
    (htail : hasTail [c] = false) : EndsNumber (c :: rest) := by
  refine ⟨htail, ?_⟩
  intro d hd
  obtain rfl := Option.some.inj hd
  exact hdigit

/-! ### Integers -/

theorem le_ofDigitChars (ds : List Char) (n : Nat) : n ≤ Nat.ofDigitChars 10 ds n := by
  induction ds generalizing n with
  | nil => simp
  | cons d ds ih =>
    rw [Nat.ofDigitChars_cons]
    have h := ih (10 * n + (d.toNat - '0'.toNat))
    omega

/-- All digits are gathered, as long as the number fits. -/
theorem gather_digits {ds rest : List Char} (hds : ∀ d ∈ ds, d.isDigit = true)
    (hrest : ∀ c ∈ rest.head?, c.isDigit = false) {n : Nat}
    (hfit : Nat.ofDigitChars 10 ds n < UInt64.size) :
    gather n (ds ++ rest) = (Nat.ofDigitChars 10 ds n, rest) := by
  induction ds generalizing n with
  | nil =>
    cases rest with
    | nil => rfl
    | cons c rest =>
      have hc : ¬ (c.isDigit = true ∧ 10 * n + digit c < UInt64.size) := by
        intro h
        rw [hrest c rfl] at h
        exact absurd h.1 Bool.false_ne_true
      rw [List.nil_append, gather, if_neg hc, Nat.ofDigitChars_nil]
  | cons d ds ih =>
    rw [Nat.ofDigitChars_cons] at hfit
    have hd : d.isDigit = true := hds d List.mem_cons_self
    have hle := le_ofDigitChars ds (10 * n + digit d)
    have hstep : 10 * n + digit d < UInt64.size := Nat.lt_of_le_of_lt hle hfit
    rw [List.cons_append, gather, if_pos ⟨hd, hstep⟩, Nat.ofDigitChars_cons]
    exact ih (fun e he => hds e (List.mem_cons_of_mem d he)) hfit

theorem exists_toDigits_cons (n : Nat) :
    ∃ d ds, Nat.toDigits 10 n = d :: ds ∧ d.isDigit = true := by
  obtain ⟨d, ds, hds⟩ := List.exists_cons_of_ne_nil (Nat.toDigits_ne_nil (n := n) (b := 10))
  have hd : d ∈ Nat.toDigits 10 n := hds ▸ List.mem_cons_self
  exact ⟨d, ds, hds, Nat.isDigit_of_mem_toDigits (by decide) (by decide) hd⟩

/-- A positive number has no leading zero. -/
theorem head?_toDigits_ne_zero {n : Nat} (h : 0 < n) : (Nat.toDigits 10 n).head? ≠ some '0' := by
  induction n using Nat.strongRecOn with
  | ind n ih =>
    by_cases hn : n < 10
    · have hdigit : ∀ d < 10, 0 < d → d.digitChar ≠ '0' := by decide
      rw [Nat.toDigits_of_lt_base hn]
      intro he
      exact hdigit n hn h (Option.some.inj he)
    · have hq : 0 < n / 10 := by omega
      rw [Nat.toDigits_of_base_le (by decide) (by omega),
        List.head?_append_of_ne_nil _ Nat.toDigits_ne_nil]
      exact ih (n / 10) (by omega) hq

/-- The digits of a number are read as that number. -/
theorem readNumber_toDigits (negative : Bool) {n : Nat} (hn : n < UInt64.size) {rest : List Char}
    (hrest : EndsNumber rest) :
    readNumber negative (Nat.toDigits 10 n ++ rest) = .ok (integral negative n, rest) := by
  -- A leading zero ends the number at once; only zero is written with one.
  by_cases hzero : n = 0
  · subst hzero
    cases rest with
    | nil => rfl
    | cons c rest =>
      rw [Nat.toDigits_zero, List.singleton_append, readNumber]
      simp only [hrest.2 c rfl, hrest.1, Bool.false_eq_true, ↓reduceIte]
  · obtain ⟨d, ds, hds, hd⟩ := exists_toDigits_cons n
    have hall : ∀ c ∈ Nat.toDigits 10 n, c.isDigit = true :=
      fun c hc => Nat.isDigit_of_mem_toDigits (by decide) (by decide) hc
    have hvalue : Nat.ofDigitChars 10 ds (digit d) = n := by
      have h := Nat.ofDigitChars_ten_toDigits (n := n)
      rw [hds, Nat.ofDigitChars_cons, Nat.mul_zero, Nat.zero_add] at h
      exact h
    have hhead : d ≠ '0' := by
      have h := head?_toDigits_ne_zero (Nat.pos_of_ne_zero hzero)
      rw [hds] at h
      exact fun he => h (congrArg some he)
    rw [hds] at hall ⊢
    have hgather : gather (digit d) (ds ++ rest) = (n, rest) := by
      rw [gather_digits (fun c hc => hall c (List.mem_cons_of_mem d hc)) hrest.2
        (by rw [hvalue]; exact hn), hvalue]
    rw [List.cons_append, readNumber]
    · rw [if_pos hd, hgather]
      cases rest with
      | nil => rfl
      | cons c rest => simp only [hrest.2 c rfl, hrest.1, Bool.false_eq_true, ↓reduceIte]
    · intro h
      exact hhead h

/-! ### Texts -/

theorem hexDigit?_hexChar : ∀ n < 16, hexDigit? (hexChar n) = some n := by
  decide

theorem readHex_of_value {a b c d : Char} {n : Nat} (h : hexValue? a b c d = some n)
    (rest : List Char) : readHex (a :: b :: c :: d :: rest) = .ok (n, rest) := by
  have hsize : ¬ byteSize [a, b, c, d] < 4 := by
    have ha := a.utf8Size_pos
    have hb := b.utf8Size_pos
    have hc := c.utf8Size_pos
    have hd := d.utf8Size_pos
    simp only [byteSize, List.foldl_cons, List.foldl_nil]
    omega
  unfold readHex
  rw [List.take_succ_cons, List.take_succ_cons, List.take_succ_cons, List.take_succ_cons,
    List.take_zero, if_neg hsize]
  dsimp only
  rw [h]

/-- A numbered escape of a control gives the control. -/
theorem readNumbered_control {c : Char} (h : c.toNat < 0x20) (rest : List Char) :
    readNumbered ('0' :: '0' :: hexChar (c.toNat / 16) :: hexChar (c.toNat % 16) :: rest) =
      .ok (c, rest) := by
  have hhigh := hexDigit?_hexChar (c.toNat / 16) (by omega)
  have hlow := hexDigit?_hexChar (c.toNat % 16) (by omega)
  have hzero : hexDigit? '0' = some 0 := by decide
  have hvalue : hexValue? '0' '0' (hexChar (c.toNat / 16)) (hexChar (c.toNat % 16)) =
      some c.toNat := by
    simp only [hexValue?, hzero, hhigh, hlow, Option.bind_eq_bind, Option.bind_some]
    congr 1
    omega
  have hnotLow : ¬ (0xDC00 ≤ c.toNat ∧ c.toNat ≤ 0xDFFF) := by omega
  have hnotHigh : ¬ (0xD800 ≤ c.toNat ∧ c.toNat ≤ 0xDBFF) := by omega
  unfold readNumbered
  rw [readHex_of_value hvalue]
  simp only [bind, Except.bind, hnotLow, hnotHigh, ↓reduceIte, pure, Except.pure, Char.ofNat_toNat]

/-- One round of the reader takes a character as the writer spells it. -/
theorem readChars_escapeChar (fuel : Nat) (done : List Char) (c : Char) (rest : List Char) :
    readChars (fuel + 1) done (escapeChar c ++ rest) = readChars fuel (c :: done) rest := by
  unfold escapeChar
  split
  case h_8 hquote hbackslash _ _ _ _ _ =>
    split
    · next hcontrol =>
      have hread := readNumbered_control hcontrol rest
      simp only [List.cons_append, List.nil_append]
      rw [readChars, if_neg (by decide), if_pos rfl, readEscape, hread]
      rfl
    · next hcontrol =>
      rw [List.singleton_append, readChars, if_neg hquote, if_neg hbackslash, if_neg hcontrol]
  all_goals rfl

theorem readChars_escaped (cs done rest : List Char) {fuel : Nat} (h : cs.length < fuel) :
    readChars fuel done (cs.flatMap escapeChar ++ '"' :: rest) =
      .ok (String.ofList (done.reverse ++ cs), rest) := by
  induction cs generalizing done fuel with
  | nil =>
    obtain ⟨fuel, rfl⟩ := Nat.exists_eq_succ_of_ne_zero (Nat.ne_zero_of_lt h)
    rw [List.flatMap_nil, List.nil_append, readChars, if_pos rfl, List.append_nil]
  | cons c cs ih =>
    obtain ⟨fuel, rfl⟩ := Nat.exists_eq_succ_of_ne_zero (Nat.ne_zero_of_lt h)
    rw [List.length_cons] at h
    rw [List.flatMap_cons, List.append_assoc, readChars_escapeChar, ih (c :: done) (by omega),
      List.reverse_cons, List.append_assoc, List.singleton_append]

theorem length_le_length_escaped (cs : List Char) : cs.length ≤ (cs.flatMap escapeChar).length := by
  induction cs with
  | nil => exact Nat.le_refl 0
  | cons c cs ih =>
    have hc : 0 < (escapeChar c).length := by
      unfold escapeChar
      split
      case h_8 => split <;> exact Nat.succ_pos _
      all_goals exact Nat.succ_pos _
    rw [List.flatMap_cons, List.length_append, List.length_cons]
    omega

/-- A text is read back from behind its opening quote. -/
theorem readText_escaped (s : String) (rest : List Char) :
    readText (s.toList.flatMap escapeChar ++ '"' :: rest) = .ok (s, rest) := by
  have hfuel : s.toList.length < (s.toList.flatMap escapeChar ++ '"' :: rest).length := by
    have h := length_le_length_escaped s.toList
    rw [List.length_append, List.length_cons]
    omega
  unfold readText
  rw [readChars_escaped s.toList [] rest hfuel, List.reverse_nil, List.nil_append,
    String.ofList_toList]

theorem writeText_append (s : String) (rest : List Char) :
    writeText s ++ rest = '"' :: (s.toList.flatMap escapeChar ++ '"' :: rest) := by
  simp [writeText]

/-! ### Scalars -/

/-- An integer of 64 bits, with or without a sign. -/
def Fits (n : Int) : Prop :=
  -(Nat.pow 2 63 : Nat) ≤ n ∧ n < (UInt64.size : Nat)

theorem readScalar_of_isDigit {d : Char} (h : d.isDigit = true) (cs : List Char) :
    readScalar (d :: cs) = readNumber false (d :: cs) := by
  unfold readScalar
  split
  case h_1 heq => cases heq
  case h_7 =>
    next heq =>
      obtain ⟨rfl, rfl⟩ := List.cons.inj heq
      rw [if_pos h]
  all_goals
    next heq =>
      obtain ⟨rfl, -⟩ := List.cons.inj heq
      exact absurd h (by decide)

theorem readScalar_text (s : String) (rest : List Char) :
    readScalar (writeText s ++ rest) = .ok (.text s, rest) := by
  rw [writeText_append, readScalar, readText_escaped]
  rfl

theorem readScalar_nat {n : Nat} (hn : n < UInt64.size) {rest : List Char}
    (hrest : EndsNumber rest) :
    readScalar (Nat.toDigits 10 n ++ rest) = .ok (.integer n, rest) := by
  obtain ⟨d, ds, hds, hd⟩ := exists_toDigits_cons n
  have hread := readNumber_toDigits false hn hrest
  rw [hds, List.cons_append] at hread ⊢
  rw [readScalar_of_isDigit hd, hread]
  rfl

/-- A negative integer stands behind a minus, as its size. -/
theorem readScalar_neg {n : Nat} (hpos : 0 < n) (hn : n ≤ Nat.pow 2 63) {rest : List Char}
    (hrest : EndsNumber rest) :
    readScalar ('-' :: (Nat.toDigits 10 n ++ rest)) = .ok (.integer (-n), rest) := by
  have hfit : n < UInt64.size := Nat.lt_of_le_of_lt hn (by decide)
  have hvalue : integral true n = .integer (-n) := by
    unfold integral
    rw [if_pos rfl, if_pos ⟨hpos, hn⟩]
  rw [readScalar, readNumber_toDigits true hfit hrest, hvalue]

theorem readScalar_integer {n : Int} (hn : Fits n) {rest : List Char} (hrest : EndsNumber rest) :
    readScalar (writeScalar (.integer n) ++ rest) = .ok (.integer n, rest) := by
  obtain ⟨hlow, hhigh⟩ := hn
  cases n with
  | ofNat n =>
    have hfit : n < UInt64.size := Int.ofNat_lt.mp hhigh
    show readScalar ((Nat.repr n).toList ++ rest) = _
    rw [Nat.toList_repr, readScalar_nat hfit hrest]
    rfl
  | negSucc n =>
    have hfit : n + 1 ≤ Nat.pow 2 63 := by
      rw [Int.negSucc_eq] at hlow
      omega
    show readScalar (("-" ++ Nat.repr (n + 1)).toList ++ rest) = _
    rw [String.toList_append, Nat.toList_repr]
    show readScalar ('-' :: (Nat.toDigits 10 (n + 1) ++ rest)) = _
    rw [readScalar_neg (Nat.succ_pos n) hfit hrest, Int.negSucc_eq]
    rfl

/-- A value that is neither array nor object and that is read as it was written. -/
inductive Value.Simple : Value → Prop where
  | null : Simple .null
  | boolean (b : Bool) : Simple (.boolean b)
  | integer {n : Int} (fits : Fits n) : Simple (.integer n)
  | text (s : String) : Simple (.text s)

theorem readScalar_simple {v : Value} (h : v.Simple) {rest : List Char} (hrest : EndsNumber rest) :
    readScalar (writeScalar v ++ rest) = .ok (v, rest) := by
  cases h with
  | null => rfl
  | boolean b => cases b <;> rfl
  | integer fits => exact readScalar_integer fits hrest
  | text s => exact readScalar_text s rest

/-- A character that is neither blank nor a bracket of an array or an object. -/
structure Inner (c : Char) : Prop where
  not_blank : isSpace c = false
  not_open : c ≠ '[' ∧ c ≠ '{'
  not_close : c ≠ ']'

theorem inner_of_isDigit {d : Char} (h : d.isDigit = true) : Inner d := by
  have hne : ∀ c : Char, c.isDigit = false → d ≠ c := by
    intro c hc he
    rw [he, hc] at h
    exact Bool.false_ne_true h
  refine ⟨?_, ⟨hne '[' (by decide), hne '{' (by decide)⟩, hne ']' (by decide)⟩
  simp [isSpace, hne ' ' (by decide), hne '\n' (by decide), hne '\t' (by decide),
    hne '\r' (by decide)]

theorem writeScalar_simple {v : Value} (h : v.Simple) :
    ∃ c cs, writeScalar v = c :: cs ∧ Inner c := by
  cases h with
  | null => exact ⟨'n', _, rfl, by constructor <;> decide⟩
  | boolean b =>
    cases b with
    | false => exact ⟨'f', _, rfl, by constructor <;> decide⟩
    | true => exact ⟨'t', _, rfl, by constructor <;> decide⟩
  | @integer n fits =>
    cases n with
    | ofNat n =>
      obtain ⟨d, ds, hds, hd⟩ := exists_toDigits_cons n
      refine ⟨d, ds, ?_, inner_of_isDigit hd⟩
      show (Nat.repr n).toList = _
      rw [Nat.toList_repr, hds]
    | negSucc n =>
      refine ⟨'-', (Nat.repr (n + 1)).toList, ?_, by constructor <;> decide⟩
      show ("-" ++ Nat.repr (n + 1)).toList = _
      rw [String.toList_append]
      rfl
  | text s => exact ⟨'"', _, rfl, by constructor <;> decide⟩

end Receipt.Json
