import Receipt.Composer

/-!
# Texts of several lines

A text is cut at its line feeds, and what is done to it line by line is proved line by line. A composer
also takes the carriage return off the end of each line; nothing else is lost between a text and its lines.
`withoutReturns` says which carriage returns those are without looking at lines.
-/

namespace Receipt

namespace Text

variable {cs line : List Char} {lines : List String}

/-- A text is a line, or a line with a text behind its line feed. -/
theorem lines_induction {motive : List Char → Prop} (last : ∀ line, '\n' ∉ line → motive line)
    (next : ∀ line rest, '\n' ∉ line → motive rest → motive (line ++ '\n' :: rest))
    (cs : List Char) : motive cs := by
  induction hn : cs.length using Nat.strongRecOn generalizing cs with
  | ind n ih =>
    by_cases hfeed : '\n' ∈ cs
    · obtain ⟨line, rest, rfl, hline⟩ := List.eq_append_cons_of_mem hfeed
      rw [List.length_append, List.length_cons] at hn
      exact next line rest hline (ih rest.length (by omega) rest rfl)
    · exact last cs hfeed

theorem lineFeed_not_mem_of_mem_splitOn (h : line ∈ cs.splitOn '\n') : '\n' ∉ line := by
  induction cs using lines_induction with
  | last cs hcs =>
    rw [List.splitOn_eq_singleton hcs, List.mem_singleton] at h
    rwa [h]
  | next first rest hfirst ih =>
    rw [List.splitOn_append_cons_self_of_not_mem hfirst] at h
    rcases List.mem_cons.mp h with rfl | h
    · exact hfirst
    · exact ih h

/-- What is done on either side of a line feed on its own is done line by line. -/
theorem splitOn_eq_map {f : List Char → List Char}
    (hlocal : ∀ a b, f (a ++ '\n' :: b) = f a ++ '\n' :: f b)
    (hline : ∀ line, '\n' ∉ line → '\n' ∉ f line) (cs : List Char) :
    (f cs).splitOn '\n' = (cs.splitOn '\n').map f := by
  induction cs using lines_induction with
  | last line h =>
    rw [List.splitOn_eq_singleton h, List.splitOn_eq_singleton (hline line h), List.map_singleton]
  | next line rest h ih =>
    rw [hlocal, List.splitOn_append_cons_self_of_not_mem (hline line h), ih,
      List.splitOn_append_cons_self_of_not_mem h, List.map_cons]

/-- Texts that are joined by line feeds have their lines one after the other. -/
theorem splitOn_intercalate (h : lines ≠ []) :
    ("\n".intercalate lines).toList.splitOn '\n' = lines.flatMap (·.toList.splitOn '\n') := by
  induction lines with
  | nil => contradiction
  | cons line lines ih =>
    by_cases hlines : lines = []
    · rw [hlines, String.intercalate_singleton, List.flatMap_singleton]
    · have hjoin : ("\n".intercalate (line :: lines)).toList =
          line.toList ++ '\n' :: ("\n".intercalate lines).toList := by
        rw [String.intercalate_cons_of_ne_nil hlines, String.toList_append, String.toList_append,
          List.append_assoc]
        rfl
      rw [hjoin, List.splitOn_append_cons_self, ih hlines, List.flatMap_cons]

theorem lineFeed_not_mem_decimal (n : Nat) : '\n' ∉ Nat.toDigits 10 n := by
  intro h
  exact absurd (Nat.isDigit_of_mem_toDigits (by decide) (by decide) h) (by decide)

/-- A text has one line more than it has line feeds. -/
theorem length_splitOn (cs : List Char) : (cs.splitOn '\n').length = 1 + cs.count '\n' := by
  induction cs using lines_induction with
  | last line h =>
    rw [List.splitOn_eq_singleton h, List.count_eq_zero.mpr h]
    rfl
  | next line rest h ih =>
    rw [List.splitOn_append_cons_self_of_not_mem h, List.length_cons, ih, List.count_append,
      List.count_eq_zero.mpr h, List.count_cons_self]
    omega

end Text

namespace Composer

open Text

variable {text line : String} {lines : List String}

theorem withoutReturn_eq_self {cs : List Char} (h : cs.getLast? ≠ some '\r') :
    withoutReturn cs = cs := by
  rw [withoutReturn, if_neg h]

theorem lineFeed_not_mem_of_mem_linesOf (h : line ∈ linesOf text) : '\n' ∉ line.toList := by
  obtain ⟨cs, hcs, rfl⟩ := List.mem_map.mp h
  have hfeed := lineFeed_not_mem_of_mem_splitOn hcs
  rw [String.toList_ofList, withoutReturn]
  split
  · exact fun hmem => hfeed (List.dropLast_subset cs hmem)
  · exact hfeed

theorem linesOf_of_single (hfeed : '\n' ∉ text.toList) (hreturn : text.toList.getLast? ≠ some '\r') :
    linesOf text = [text] := by
  rw [linesOf, List.splitOn_eq_singleton hfeed, List.map_singleton, withoutReturn_eq_self hreturn,
    String.ofList_toList]

theorem linesOf_intercalate (h : lines ≠ []) :
    linesOf ("\n".intercalate lines) = lines.flatMap linesOf := by
  rw [linesOf, splitOn_intercalate h, List.map_flatMap]
  rfl

/-! ### Carriage returns -/

/-- A text without the one carriage return right in front of each line feed and at its end. -/
def withoutReturns : List Char → List Char
  | [] => []
  | c :: cs =>
    if c = '\r' ∧ (cs = [] ∨ cs.head? = some '\n') then withoutReturns cs
    else c :: withoutReturns cs

theorem withoutReturns_cons_of_ne {c : Char} (h : c ≠ '\r') (cs : List Char) :
    withoutReturns (c :: cs) = c :: withoutReturns cs := by
  rw [withoutReturns, if_neg fun hc => h hc.1]

theorem withoutReturns_eq_self {cs : List Char} (h : '\r' ∉ cs) : withoutReturns cs = cs := by
  induction cs with
  | nil => rfl
  | cons c cs ih =>
    obtain ⟨hc, hcs⟩ := List.ne_and_not_mem_of_not_mem_cons h
    rw [withoutReturns_cons_of_ne hc.symm, ih hcs]

/-- A line in front of a line feed, or of nothing, loses the carriage return at its end. -/
theorem withoutReturns_append {line rest : List Char} (hline : '\n' ∉ line)
    (hrest : rest = [] ∨ rest.head? = some '\n') :
    withoutReturns (line ++ rest) = withoutReturn line ++ withoutReturns rest := by
  -- Only the last character of the line stands in front of what ends it.
  induction line with
  | nil => rfl
  | cons c cs ih =>
    obtain ⟨-, hcs⟩ := List.ne_and_not_mem_of_not_mem_cons hline
    cases cs with
    | nil =>
      by_cases hc : c = '\r'
      · subst hc
        show (if '\r' = '\r' ∧ (rest = [] ∨ rest.head? = some '\n') then withoutReturns rest
          else _) = _
        rw [if_pos ⟨rfl, hrest⟩]
        rfl
      · have hkept : withoutReturn [c] = [c] :=
          withoutReturn_eq_self fun hlast => hc (Option.some.inj hlast)
        rw [hkept, List.singleton_append, withoutReturns_cons_of_ne hc, List.singleton_append]
    | cons d ds =>
      have hinner : ¬ (c = '\r' ∧
          (d :: (ds ++ rest) = [] ∨ (d :: (ds ++ rest)).head? = some '\n')) := by
        rintro ⟨-, hd | hd⟩
        · cases hd
        · exact hcs (Option.some.inj hd ▸ List.mem_cons_self)
      have hkept : withoutReturn (c :: d :: ds) = c :: withoutReturn (d :: ds) := by
        unfold withoutReturn
        rw [List.getLast?_cons_cons, List.dropLast_cons_cons]
        split <;> rfl
      rw [List.cons_append, List.cons_append, withoutReturns, if_neg hinner, ← List.cons_append,
        ih hcs, hkept, List.cons_append]

theorem intercalate_withoutReturn (cs : List Char) :
    ['\n'].intercalate ((cs.splitOn '\n').map withoutReturn) = withoutReturns cs := by
  induction cs using lines_induction with
  | last line h =>
    have hline := withoutReturns_append h (.inl rfl)
    rw [List.append_nil] at hline
    rw [List.splitOn_eq_singleton h, List.map_singleton, List.intercalate_singleton, hline]
    exact (List.append_nil _).symm
  | next line rest h ih =>
    have hne : (rest.splitOn '\n').map withoutReturn ≠ [] := by
      rw [ne_eq, List.map_eq_nil_iff]
      exact List.splitOn_ne_nil _ _
    rw [List.splitOn_append_cons_self_of_not_mem h, List.map_cons,
      List.intercalate_cons_of_ne_nil hne, ih, withoutReturns_append h (.inr rfl),
      withoutReturns_cons_of_ne (by decide), List.append_assoc, List.singleton_append]

theorem toList_linesOf (text : String) :
    (linesOf text).map String.toList = (text.toList.splitOn '\n').map withoutReturn := by
  unfold linesOf
  rw [List.map_map]
  exact List.map_congr_left fun line _ => String.toList_ofList

theorem length_linesOf (text : String) : (linesOf text).length = 1 + text.toList.count '\n' := by
  rw [linesOf, List.length_map, length_splitOn]

/-- The lines of a text are joined to the text without those carriage returns. -/
theorem join_linesOf (text : String) :
    "\n".intercalate (linesOf text) = String.ofList (withoutReturns text.toList) := by
  rw [← String.toList_inj, String.toList_intercalate, toList_linesOf]
  exact (intercalate_withoutReturn text.toList).trans String.toList_ofList.symm

/-- Nothing but carriage returns is lost between a text and its lines. -/
theorem intercalate_linesOf (h : '\r' ∉ text.toList) :
    ['\n'].intercalate ((linesOf text).map String.toList) = text.toList := by
  rw [toList_linesOf, intercalate_withoutReturn, withoutReturns_eq_self h]

end Composer

end Receipt
