import Receipt.Text

/-!
# Quoted texts

A quoted text takes one line, and it can be read back: the code of one character is taken off the front,
whatever stands behind it, and no code begins with a quote. So the closing quote is found, and two quoted
texts with something behind each of them differ as soon as the texts do.
-/

namespace Receipt.Text

/-! ### Hexadecimal digits -/

def hexValue (c : Char) : Nat :=
  if c.isDigit then c.toNat - '0'.toNat else c.toNat - 'a'.toNat + 10

/-- The number that hexadecimal digits write. -/
def ofHexDigits (cs : List Char) : Nat :=
  cs.foldl (fun n c => 16 * n + hexValue c) 0

theorem hexValue_digitChar {d : Nat} (h : d < 16) : hexValue (Nat.digitChar d) = d := by
  have hall : ∀ d < 16, hexValue (Nat.digitChar d) = d := by decide
  exact hall d h

theorem ofHexDigits_toDigits (n : Nat) : ofHexDigits (Nat.toDigits 16 n) = n := by
  induction n using Nat.strongRecOn with
  | ind n ih =>
    by_cases hn : n < 16
    · rw [Nat.toDigits_of_lt_base hn]
      show 16 * 0 + hexValue (Nat.digitChar n) = n
      rw [hexValue_digitChar hn, Nat.mul_zero, Nat.zero_add]
    · have hlast : hexValue (Nat.digitChar (n % 16)) = n % 16 :=
        hexValue_digitChar (Nat.mod_lt n (by decide))
      have hfront : ofHexDigits (Nat.toDigits 16 (n / 16)) = n / 16 := ih (n / 16) (by omega)
      rw [Nat.toDigits_of_base_le (by decide) (by omega), ofHexDigits, List.foldl_append]
      show 16 * ofHexDigits (Nat.toDigits 16 (n / 16)) + hexValue (Nat.digitChar (n % 16)) = n
      rw [hfront, hlast]
      omega

theorem exists_of_mem_toDigits {n : Nat} {c : Char} (h : c ∈ Nat.toDigits 16 n) :
    ∃ d < 16, c = Nat.digitChar d := by
  induction n using Nat.strongRecOn with
  | ind n ih =>
    by_cases hn : n < 16
    · rw [Nat.toDigits_of_lt_base hn, List.mem_singleton] at h
      exact ⟨n, hn, h⟩
    · rw [Nat.toDigits_of_base_le (by decide) (by omega), List.mem_append, List.mem_singleton] at h
      rcases h with h | h
      · exact ih (n / 16) (by omega) h
      · exact ⟨n % 16, Nat.mod_lt n (by decide), h⟩

/-- Digits do not end a line, nor the number that they write. -/
theorem ne_of_mem_toDigits {n : Nat} {c : Char} (h : c ∈ Nat.toDigits 16 n) : c ≠ '\n' ∧ c ≠ '}' := by
  have hall : ∀ d < 16, Nat.digitChar d ≠ '\n' ∧ Nat.digitChar d ≠ '}' := by decide
  obtain ⟨d, hd, rfl⟩ := exists_of_mem_toDigits h
  exact hall d hd

/-! ### One line -/

theorem lineFeed_not_mem_escaped (c : Char) : '\n' ∉ escaped c := by
  unfold escaped
  split
  case h_7 _ _ hlineFeed _ _ _ =>
    split
    · have hdigits : '\n' ∉ Nat.toDigits 16 c.toNat := fun h => (ne_of_mem_toDigits h).1 rfl
      simp [hdigits]
    · rw [List.mem_singleton]
      exact fun h => hlineFeed h.symm
  all_goals decide

/-- A quoted text takes one line. -/
theorem lineFeed_not_mem_quoted (s : String) : '\n' ∉ (quoted s).toList := by
  intro h
  rw [quoted, String.toList_ofList, List.cons_append, List.mem_cons, List.mem_append,
    List.mem_flatMap] at h
  rcases h with h | ⟨c, -, h⟩ | h
  · exact absurd h (by decide)
  · exact lineFeed_not_mem_escaped c h
  · exact absurd h (by decide)

/-! ### Reading back -/

/-- The characters with an escape of their own, behind the mark that stands for each. -/
def escapes : List (Char × Char) :=
  [('"', '"'), ('\\', '\\'), ('n', '\n'), ('r', '\r'), ('t', '\t'), ('0', '\x00')]

/-- Takes what stands behind a backslash off the front of a text. -/
def readEscape : List Char → Option (Char × List Char)
  | 'u' :: '{' :: cs =>
    some (Char.ofNat (ofHexDigits (cs.takeWhile (· ≠ '}'))), (cs.dropWhile (· ≠ '}')).tail)
  | mark :: cs => (escapes.lookup mark).map (·, cs)
  | [] => none

/-- Takes the code of one character off the front of a text; a quote is the end of it. -/
def readEscaped : List Char → Option (Char × List Char)
  | [] => none
  | c :: cs =>
    if c = '"' then none
    else if c = '\\' then readEscape cs
    else some (c, cs)

theorem readEscape_number (n : Nat) (rest : List Char) :
    readEscape ('u' :: '{' :: (Nat.toDigits 16 n ++ '}' :: rest)) = some (Char.ofNat n, rest) := by
  have hdigits : ∀ c ∈ Nat.toDigits 16 n, decide (c ≠ '}') = true :=
    fun c hc => decide_eq_true (ne_of_mem_toDigits hc).2
  have hfront : (Nat.toDigits 16 n ++ '}' :: rest).takeWhile (· ≠ '}') = Nat.toDigits 16 n := by
    rw [List.takeWhile_append_of_pos hdigits, List.takeWhile_cons_of_neg (by decide), List.append_nil]
  have hback : (Nat.toDigits 16 n ++ '}' :: rest).dropWhile (· ≠ '}') = '}' :: rest := by
    rw [List.dropWhile_append_of_pos hdigits, List.dropWhile_cons_of_neg (by decide)]
  rw [readEscape, hfront, hback, ofHexDigits_toDigits, List.tail_cons]

/-- A character is read back from its code, and what stands behind the code is left. -/
theorem readEscaped_escaped (c : Char) (rest : List Char) :
    readEscaped (escaped c ++ rest) = some (c, rest) := by
  unfold escaped
  split
  case h_7 hquote hbackslash _ _ _ _ =>
    split
    · have hnumber := readEscape_number c.toNat rest
      rw [Char.ofNat_toNat] at hnumber
      rw [List.append_assoc]
      exact hnumber
    · rw [List.singleton_append, readEscaped, if_neg hquote, if_neg hbackslash]
  all_goals rfl

/-- The closing quote is found, since no code begins with one. -/
theorem flatMap_escaped_cancel {cs ds r r' : List Char}
    (h : cs.flatMap escaped ++ '"' :: r = ds.flatMap escaped ++ '"' :: r') : cs = ds ∧ r = r' := by
  have hread : ∀ (c : Char) (cs rest : List Char),
      readEscaped ((c :: cs).flatMap escaped ++ rest) = some (c, cs.flatMap escaped ++ rest) := by
    intro c cs rest
    rw [List.flatMap_cons, List.append_assoc, readEscaped_escaped]
  induction cs generalizing ds with
  | nil =>
    cases ds with
    | nil => exact ⟨rfl, (List.cons.inj h).2⟩
    | cons d ds =>
      have hd := hread d ds ('"' :: r')
      rw [← h] at hd
      cases hd
  | cons c cs ih =>
    have hc := hread c cs ('"' :: r)
    rw [h] at hc
    cases ds with
    | nil => cases hc
    | cons d ds =>
      rw [hread, Option.some.injEq, Prod.mk.injEq] at hc
      obtain ⟨rfl, hrest⟩ := hc
      obtain ⟨rfl, rfl⟩ := ih hrest.symm
      exact ⟨rfl, rfl⟩

/-- Of two quoted texts, each with something behind it, neither can be taken for the other. -/
theorem quoted_append_inj {s t : String} {r r' : List Char}
    (h : (quoted s).toList ++ r = (quoted t).toList ++ r') : s = t ∧ r = r' := by
  simp only [quoted, String.toList_ofList, List.cons_append, List.append_assoc, List.nil_append,
    List.cons.injEq, true_and] at h
  obtain ⟨hchars, hrest⟩ := flatMap_escaped_cancel h
  exact ⟨String.toList_inj.mp hchars, hrest⟩

end Receipt.Text
