import Receipt.Proofs.Preview.Conservation

/-!
# Lines as wide as the paper

A line that takes all columns of the paper is drawn as it is, wherever it is aligned. One column more and
it is wrapped. A text of several lines is drawn line by line.
-/

namespace Receipt.Preview

open Text

/-- A single line that takes a number of columns, the last of them with no blank. -/
structure Fills (columns : Nat) (line : String) : Prop where
  length : line.length = columns
  single : '\n' ∉ line.toList
  last : ∀ c, line.toList.getLast? = some c → isBlank c = false

theorem trimEnd_eq_self {cs : List Char} (h : ∀ c, cs.getLast? = some c → isBlank c = false) :
    trimEnd cs = cs := by
  refine List.rdropWhile_eq_self_iff.mpr fun hne => ?_
  rw [h _ (List.getLast?_eq_some_getLast hne)]
  exact Bool.false_ne_true

theorem pieces_of_length_le {n : Nat} {line : List Char} (h : line.length ≤ n + 1) :
    pieces n line = [line] := by
  cases line with
  | nil => rfl
  | cons c cs =>
    have hcs : cs.length ≤ n := Nat.le_of_succ_le_succ h
    rw [pieces, chunks_cons, List.take_of_length_le hcs, List.drop_of_length_le hcs, chunks_nil]

theorem margin_self (width : Nat) (a : Alignment) : margin width (width * 1) a = 0 := by
  cases a <;> simp only [margin] <;> omega

theorem wrapped_of_single {line : String} (h : '\n' ∉ line.toList) (width : Nat) (size : TextSize) :
    wrapped width size line = pieces (width / size.columns - 1) line.toList := by
  rw [wrapped, List.splitOn_eq_singleton h, List.flatMap_singleton]

theorem wrapped_intercalate (width : Nat) (size : TextSize) {lines : List String} (h : lines ≠ []) :
    wrapped width size ("\n".intercalate lines) = lines.flatMap (wrapped width size) := by
  rw [wrapped, splitOn_intercalate h, List.flatMap_assoc]
  rfl

variable {columns : Nat} {line : String} (h : Fills columns line) (a : Alignment)
  {style : Option TextStyle} (hstyle : (style.getD .plain).size = .normal)

include h hstyle

/-- On paper of just its width a line is drawn as it is. -/
theorem Fills.drawn_eq : drawn columns a (.text line style) = [line] := by
  have hlength : line.toList.length = columns := by rw [String.length_toList, h.length]
  have hmargin : margin columns (line.toList.length * TextSize.normal.columns) a = 0 := by
    rw [hlength]
    exact margin_self columns a
  have hplace : place columns a .normal line.toList = line.toList := by
    rw [place, hmargin]
    exact trimEnd_eq_self h.last
  rw [drawn_text, hstyle, wrapped_of_single h.single, pieces_of_length_le, List.map_singleton, hplace,
    String.ofList_toList]
  rw [hlength]
  show columns ≤ columns / 1 - 1 + 1
  omega

/-- On paper with a column less it takes two lines. -/
theorem Fills.length_drawn {width : Nat} (hwidth : 0 < width) (hcolumns : columns = width + 1) :
    (drawn width a (.text line style)).length = 2 := by
  have htwo : divUp (width + 1) width = 2 := Nat.div_eq_of_lt_le (by omega) (by omega)
  rw [Preview.length_drawn hwidth, height, rowsOf, hstyle, List.splitOn_eq_singleton h.single,
    List.map_singleton, List.sum_singleton, String.length_toList, h.length, hcolumns, perLine, htwo]
  rfl

omit h hstyle

/-- Lines are drawn one after another. -/
theorem drawn_intercalate (width : Nat) {lines : List String} (hlines : lines ≠ [])
    (style : Option TextStyle) :
    drawn width a (.text ("\n".intercalate lines) style) =
      lines.flatMap fun line => drawn width a (.text line style) := by
  simp only [drawn_text, wrapped_intercalate width _ hlines, List.map_flatMap]

end Receipt.Preview
