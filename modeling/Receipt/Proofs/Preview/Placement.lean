import Mathlib.Data.List.DropRight
import Mathlib.Data.List.Forall2
import Receipt.Proofs.Session

/-!
# Where lines stand on the paper

No line of text is wider than the paper. A piece of a wrapped line starts at the column that its alignment
asks for: the columns that it leaves free stand in front of it, behind it, or half of them on either side.
A large character takes two columns, so on paper of one column it does not fit; what sticks out then is
the blank behind it, and blanks at the end of a line are left off.

`placed_place` places one piece, `shows_drawn` what one primitive draws, and
`lines_stay_on_paper` what a whole program adds to paper in use.
-/

namespace Receipt

open Text

/-! ### Blanks at the end -/

theorem length_trimEnd_le (cs : List Char) : (trimEnd cs).length ≤ cs.length :=
  (List.rdropWhile_prefix isBlank cs).length_le

theorem trimEnd_concat {c : Char} (h : isBlank c = true) (cs : List Char) :
    trimEnd (cs ++ [c]) = trimEnd cs :=
  List.rdropWhile_concat_pos isBlank cs c h

/-- Only blanks are missing behind what is left. -/
theorem getElem?_trimEnd {cs : List Char} {i : Nat} {c : Char} (h : cs[i]? = some c) :
    (trimEnd cs)[i]? = some c ∨ isBlank c = true ∧ (trimEnd cs).length ≤ i := by
  have hsplit : trimEnd cs ++ cs.rtakeWhile isBlank = cs :=
    List.rdropWhile_append_rtakeWhile
  by_cases hi : i < (trimEnd cs).length
  · left
    rw [← hsplit, List.getElem?_append_left hi] at h
    exact h
  · right
    have hle : (trimEnd cs).length ≤ i := by omega
    rw [← hsplit, List.getElem?_append_right hle] at h
    exact ⟨List.mem_rtakeWhile_imp (List.mem_of_getElem? h), hle⟩

namespace Preview

/-! ### Columns of a piece -/

theorem spread_large_cons (c : Char) (cs : List Char) :
    spread .large (c :: cs) = c :: ' ' :: spread .large cs := rfl

theorem length_spread (size : TextSize) (cs : List Char) :
    (spread size cs).length = cs.length * size.columns := by
  cases size with
  | normal => exact (Nat.mul_one _).symm
  | large =>
    induction cs with
    | nil => rfl
    | cons c cs ih =>
      change _ = cs.length * 2 at ih
      rw [spread_large_cons]
      simp only [List.length_cons, ih, TextSize.columns]
      omega

theorem getElem?_spread (size : TextSize) (cs : List Char) (i : Nat) :
    (spread size cs)[i * size.columns]? = cs[i]? := by
  cases size with
  | normal =>
    change cs[i * 1]? = _
    rw [Nat.mul_one]
  | large =>
    change (spread .large cs)[i * 2]? = _
    induction cs generalizing i with
    | nil => rfl
    | cons c cs ih =>
      rw [spread_large_cons]
      cases i with
      | zero => rfl
      | succ i =>
        rw [Nat.succ_mul]
        exact ih i

theorem getElem?_spread_second {cs : List Char} {i : Nat} (h : i < cs.length) :
    (spread .large cs)[i * 2 + 1]? = some ' ' := by
  induction cs generalizing i with
  | nil => cases h
  | cons c cs ih =>
    rw [spread_large_cons]
    cases i with
    | zero => rfl
    | succ i =>
      rw [Nat.succ_mul]
      exact ih (Nat.lt_of_succ_lt_succ h)

/-- A piece stands in a line from a column on. In front of it there are spaces; each of its characters is
in the first of its own columns, and a space in the second of them if it is large. Blanks at the end
of the line may be left off. -/
structure Placed (size : TextSize) (start : Nat) (piece row : List Char) : Prop where
  margin : ∀ j < start, row[j]? = some ' ' ∨ row.length ≤ j
  cells : ∀ i c, piece[i]? = some c →
    row[start + i * size.columns]? = some c ∨
      isBlank c = true ∧ row.length ≤ start + i * size.columns
  seconds : size = .large → ∀ i < piece.length,
    row[start + (i * 2 + 1)]? = some ' ' ∨ row.length ≤ start + (i * 2 + 1)
  ends : row.length ≤ start + piece.length * size.columns

theorem placed_place (width : Nat) (a : Alignment) (size : TextSize) (piece : List Char) :
    Placed size (margin width (piece.length * size.columns) a) piece (place width a size piece) := by
  unfold place
  generalize margin width (piece.length * size.columns) a = start
  have hcell : ∀ {j : Nat} {c : Char}, (spread size piece)[j]? = some c →
      (List.replicate start ' ' ++ spread size piece)[start + j]? = some c := by
    intro j c hj
    rw [List.getElem?_append_right (by simp)]
    simpa using hj
  constructor
  · intro j hj
    have hspace : (List.replicate start ' ' ++ spread size piece)[j]? = some ' ' := by
      rw [List.getElem?_append_left (by simpa using hj), List.getElem?_replicate_of_lt hj]
    exact (getElem?_trimEnd hspace).imp_right And.right
  · intro i c hi
    exact getElem?_trimEnd (hcell ((getElem?_spread size piece i).trans hi))
  · intro hsize i hi
    subst hsize
    exact (getElem?_trimEnd (hcell (getElem?_spread_second hi))).imp_right And.right
  · refine (length_trimEnd_le _).trans ?_
    rw [List.length_append, List.length_replicate, length_spread]

/-! ### Width -/

/-- The pieces into which a text is wrapped, in order; a line feed ends a piece. -/
def wrapped (width : Nat) (size : TextSize) (content : String) : List (List Char) :=
  (content.toList.splitOn '\n').flatMap (pieces (width / size.columns - 1))

theorem length_le_of_mem_pieces {n : Nat} {line piece : List Char} (h : piece ∈ pieces n line) :
    piece.length ≤ n + 1 := by
  cases line with
  | nil =>
    rw [List.mem_singleton.mp h]
    exact Nat.zero_le _
  | cons c cs => exact length_le_of_mem_chunks n (c :: cs) piece h

theorem length_le_of_mem_wrapped {width : Nat} {size : TextSize} {content : String}
    {piece : List Char} (h : piece ∈ wrapped width size content) :
    piece.length ≤ max (width / size.columns) 1 := by
  obtain ⟨line, -, hpiece⟩ := List.mem_flatMap.mp h
  have hle := length_le_of_mem_pieces hpiece
  omega

theorem margin_add_le {width taken : Nat} (h : taken ≤ width) (a : Alignment) :
    margin width taken a + taken ≤ width := by
  cases a <;> simp only [margin] <;> omega

/-- Only on paper of one column may a piece be too wide, and then a blank sticks out. -/
theorem length_place_le {width : Nat} (hwidth : 0 < width) (a : Alignment) {size : TextSize}
    {piece : List Char} (h : piece.length ≤ max (width / size.columns) 1) :
    (place width a size piece).length ≤ width := by
  by_cases hfit : piece.length * size.columns ≤ width
  · have hlength := length_trimEnd_le
      (List.replicate (margin width (piece.length * size.columns) a) ' ' ++ spread size piece)
    rw [List.length_append, List.length_replicate, length_spread] at hlength
    exact hlength.trans (margin_add_le hfit a)
  · cases size with
    | normal =>
      simp only [TextSize.columns, Nat.div_one, Nat.mul_one] at h hfit
      omega
    | large =>
      simp only [TextSize.columns] at h hfit
      have hone : width = 1 := by omega
      have hlength : piece.length = 1 := by omega
      obtain ⟨c, rfl⟩ := List.length_eq_one_iff.mp hlength
      subst hone
      have hplace : place 1 a .large [c] = trimEnd [c] := by
        have hstart : margin 1 2 a = 0 := by cases a <;> decide
        change trimEnd (List.replicate (margin 1 2 a) ' ' ++ [c, ' ']) = _
        rw [hstart]
        exact trimEnd_concat (by decide) [c]
      rw [hplace]
      exact length_trimEnd_le [c]

theorem length_cutLine (width : Nat) : (cutLine width).length = max width 5 := by
  simp only [cutLine, List.length_append, List.length_replicate]
  have hword : " cut ".toList.length = 5 := by decide
  omega

/-! ### Primitives -/

/-- A line that is no wider than the paper and has no blank at its end. -/
structure OnPaper (width : Nat) (line : String) : Prop where
  fits : line.length ≤ width
  trimmed : ∀ c, line.toList.getLast? = some c → isBlank c = false

/-- What a primitive adds to paper of some width, under the alignment in force. -/
def Shows (width : Nat) (a : Alignment) : Op → List String → Prop
  | .align _, block => block = []
  | .text content style, block =>
    let size := (style.getD .plain).size
    (∀ line ∈ block, OnPaper width line) ∧
      List.Forall₂ (fun piece line =>
        let free := width - piece.length * size.columns
        Placed size (match a with | .left => 0 | .center => free / 2 | .right => free) piece
          line.toList) (wrapped width size content) block
  | .feed lines, block => block.length = lines.toNat ∧ ∀ line ∈ block, OnPaper width line
  | .cut, block => ∃ line, block = [line] ∧ line.length = max width 5

theorem onPaper_empty (width : Nat) : OnPaper width "" := by
  constructor
  · exact Nat.zero_le width
  · intro c hc
    cases hc

theorem onPaper_place {width : Nat} (hwidth : 0 < width) (a : Alignment) {size : TextSize}
    {piece : List Char} (h : piece.length ≤ max (width / size.columns) 1) :
    OnPaper width (String.ofList (place width a size piece)) := by
  constructor
  · rw [String.length_ofList]
    exact length_place_le hwidth a h
  · intro c hc
    rw [String.toList_ofList] at hc
    exact getLast?_trimEnd hc

theorem drawn_text (width : Nat) (a : Alignment) (content : String) (style : Option TextStyle) :
    drawn width a (.text content style) =
      (wrapped width (style.getD .plain).size content).map fun piece =>
        String.ofList (place width a (style.getD .plain).size piece) := by
  simp only [drawn, textLines, wrapped, List.map_flatMap, List.map_map, Function.comp_def]

theorem shows_drawn {width : Nat} (hwidth : 0 < width) (a : Alignment) (op : Op) :
    Shows width a op (drawn width a op) := by
  cases op with
  | align b => rfl
  | text content style =>
    rw [drawn_text]
    refine ⟨?_, ?_⟩
    · intro line hline
      obtain ⟨piece, hpiece, rfl⟩ := List.mem_map.mp hline
      exact onPaper_place hwidth a (length_le_of_mem_wrapped hpiece)
    · rw [List.forall₂_map_right_iff, List.forall₂_same]
      intro piece _
      have hplaced := placed_place width a (style.getD .plain).size piece
      rw [String.toList_ofList]
      cases a <;> exact hplaced
  | feed lines =>
    refine ⟨List.length_replicate, fun line hline => ?_⟩
    rw [List.eq_of_mem_replicate hline]
    exact onPaper_empty width
  | cut => exact ⟨_, rfl, (String.length_ofList).trans (length_cutLine width)⟩

/-! ### Programs -/

theorem alignment_replay (p : Program) (paper : Preview) :
    (p.replay paper).alignment = p.register paper.alignment := by
  induction p generalizing paper with
  | nil => rfl
  | cons op p ih => exact (ih (Printer.issue paper op)).trans rfl

theorem drawing_singleton (width : Nat) (a : Alignment) (op : Op) :
    drawing width a [op] = drawn width a op :=
  List.append_nil _

/-- Whatever a preview has received before, each further primitive of a program adds a block of lines
that stay on the paper and stand where the last alignment puts them. -/
theorem lines_stay_on_paper (paper : Preview) (before after : Program) (op : Op) :
    (∃ earlier block later : List String,
      (before.replay paper).lines.toList = paper.lines.toList ++ earlier ∧
      (Program.replay (before ++ [op]) paper).lines.toList =
        paper.lines.toList ++ earlier ++ block ∧
      (Program.replay (before ++ op :: after) paper).lines.toList =
        paper.lines.toList ++ earlier ++ block ++ later ∧
      Shows paper.width (before.lastAlignment?.getD paper.alignment) op block) ∧
    -- What the width and the alignment of paper in use are.
    ∀ (width : Nat) (history : Program),
      (history.replay (blank width)).width = max width 1 ∧
        (history.replay (blank width)).alignment = history.lastAlignment?.getD .left := by
  constructor
  · have hrest : before ++ op :: after = before ++ [op] ++ after := by simp
    refine ⟨drawing paper.width paper.alignment before,
      drawn paper.width (before.register paper.alignment) op,
      drawing paper.width (Program.register (before ++ [op]) paper.alignment) after,
      lines_replay before paper, ?_, ?_, ?_⟩
    · rw [lines_replay, drawing_append, drawing_singleton, List.append_assoc]
    · rw [hrest, lines_replay, drawing_append, drawing_append, drawing_singleton]
      simp only [List.append_assoc]
    · rw [← Program.register_eq_lastAlignment?]
      exact shows_drawn paper.width_pos _ op
  · intro width history
    rw [width_replay, alignment_replay, Program.register_eq_lastAlignment?]
    exact ⟨rfl, rfl⟩

/-- On paper of one column every large character has a line of its own, and the cut is wider. -/
example :
    render [.align .right, .text "ab" (some { size := .large }), .feed 1, .cut] 0 =
      "a\nb\n\n cut \n" := by decide +kernel

end Preview

end Receipt
