import Mathlib.Algebra.GroupWithZero.Nat
import Receipt.Proofs.Preview.Placement
import Receipt.Proofs.Text.Lines

/-!
# What a preview keeps of a text

A line is cut into pieces, a large character is followed by a space, a piece is moved to its place, and
blanks at the end are left off. All that comes in or goes on the way is blank, so the other characters of a
text are on the paper, in order. The pieces have all the characters that fit on a line but for the last one,
so the length of a line says how many lines of paper it takes.

`ink_drawn` and `length_drawn` say so for one primitive, `wrapping_loses_nothing` for texts and programs on
paper in use.
-/

namespace Receipt

/-! ### Characters that are not blank -/

namespace Text

/-- The characters of a text that are not blank, in order. -/
def withoutBlanks (cs : List Char) : List Char :=
  cs.filter fun c => !isBlank c

theorem withoutBlanks_append (cs ds : List Char) :
    withoutBlanks (cs ++ ds) = withoutBlanks cs ++ withoutBlanks ds :=
  List.filter_append cs ds

theorem withoutBlanks_flatten (parts : List (List Char)) :
    withoutBlanks parts.flatten = parts.flatMap withoutBlanks := by
  rw [List.flatMap_def]
  exact List.filter_flatten

theorem withoutBlanks_eq_nil {cs : List Char} (h : ∀ c ∈ cs, isBlank c = true) :
    withoutBlanks cs = [] := by
  refine List.filter_eq_nil_iff.mpr fun c hc => ?_
  rw [h c hc]
  exact Bool.false_ne_true

theorem withoutBlanks_trimEnd (cs : List Char) : withoutBlanks (trimEnd cs) = withoutBlanks cs := by
  have hsplit : trimEnd cs ++ cs.rtakeWhile isBlank = cs := List.rdropWhile_append_rtakeWhile
  have hdropped : withoutBlanks (cs.rtakeWhile isBlank) = [] :=
    withoutBlanks_eq_nil fun _ hc => List.mem_rtakeWhile_imp hc
  conv_rhs => rw [← hsplit, withoutBlanks_append, hdropped, List.append_nil]

/-- The line feeds between the lines of a text are blank. -/
theorem withoutBlanks_splitOn (cs : List Char) :
    (cs.splitOn '\n').flatMap withoutBlanks = withoutBlanks cs := by
  induction cs using lines_induction with
  | last line h => rw [List.splitOn_eq_singleton h, List.flatMap_singleton]
  | next line rest h ih =>
    rw [List.splitOn_append_cons_self_of_not_mem h, List.flatMap_cons, ih, withoutBlanks_append]
    rfl

end Text

open Text

/-- A quotient, rounded up. -/
def divUp (a b : Nat) : Nat :=
  (a + b - 1) / b

theorem divUp_zero (n : Nat) : divUp 0 (n + 1) = 0 :=
  Nat.div_eq_of_lt (by omega)

/-- A list takes as many chunks as its length asks for. -/
theorem length_chunks {α : Type} (n : Nat) :
    ∀ l : List α, (chunks n l).length = divUp l.length (n + 1)
  | [] => by rw [chunks_nil, List.length_nil, List.length_nil, divUp_zero]
  | a :: l => by
    -- What the first chunk leaves counts one less; if it leaves nothing, the list is no longer than `n + 1`.
    have hrest : (l.length - n + (n + 1) - 1) / (n + 1) = l.length / (n + 1) := by
      rcases le_total n l.length with hle | hle
      · have hsum : l.length - n + (n + 1) - 1 = l.length := by omega
        rw [hsum]
      · have hsum : l.length - n + (n + 1) - 1 < n + 1 := by omega
        rw [Nat.div_eq_of_lt hsum, Nat.div_eq_of_lt (Nat.lt_succ_of_le hle)]
    have hwhole : l.length + 1 + (n + 1) - 1 = l.length + (n + 1) := by omega
    rw [chunks_cons, List.length_cons, List.length_cons, length_chunks n (l.drop n),
      List.length_drop, divUp, divUp, hrest, hwhole, Nat.add_div_right _ (Nat.succ_pos n)]
termination_by l => l.length
decreasing_by
  simp only [List.length_drop, List.length_cons]
  omega

namespace Preview

variable {width : Nat}

/-! ### Pieces -/

theorem withoutBlanks_spread (size : TextSize) (cs : List Char) :
    withoutBlanks (spread size cs) = withoutBlanks cs := by
  cases size with
  | normal => rfl
  | large =>
    induction cs with
    | nil => rfl
    | cons c cs ih =>
      show withoutBlanks ([c] ++ ([' '] ++ spread .large cs)) = withoutBlanks ([c] ++ cs)
      rw [withoutBlanks_append, withoutBlanks_append, withoutBlanks_append, ih]
      rfl

theorem withoutBlanks_place (width : Nat) (a : Alignment) (size : TextSize) (piece : List Char) :
    withoutBlanks (place width a size piece) = withoutBlanks piece := by
  have hmargin : ∀ n, withoutBlanks (List.replicate n ' ') = [] := fun n =>
    withoutBlanks_eq_nil fun c hc => by rw [List.eq_of_mem_replicate hc]; decide
  rw [place, withoutBlanks_trimEnd, withoutBlanks_append, hmargin, List.nil_append,
    withoutBlanks_spread]

theorem flatten_pieces (n : Nat) (line : List Char) : (pieces n line).flatten = line := by
  cases line with
  | nil => rfl
  | cons c cs => exact flatten_chunks n (c :: cs)

theorem length_pieces (n : Nat) (line : List Char) :
    (pieces n line).length = max 1 (divUp line.length (n + 1)) := by
  cases line with
  | nil =>
    rw [List.length_nil, divUp_zero]
    rfl
  | cons c cs =>
    have hpieces : (pieces n (c :: cs)).length = divUp (c :: cs).length (n + 1) :=
      length_chunks n (c :: cs)
    have hpos : 0 < (pieces n (c :: cs)).length := by
      rw [pieces, chunks_cons]
      exact Nat.succ_pos _
    omega

/-! ### Primitives -/

/-- The characters of some size that fit on a line, and at least one. -/
def perLine (width : Nat) : TextSize → Nat
  | .normal => width
  | .large => max 1 (width / 2)

/-- The lines of paper that a text takes: for each of its own lines as many as its length asks for, and for
an empty one a line as well. -/
def rowsOf (width : Nat) (size : TextSize) (content : String) : Nat :=
  ((content.toList.splitOn '\n').map fun line => max 1 (divUp line.length (perLine width size))).sum

/-- The lines of paper that a primitive takes. -/
def height (width : Nat) : Op → Nat
  | .align _ => 0
  | .text content style => rowsOf width (style.getD .plain).size content
  | .feed lines => lines.toNat
  | .cut => 1

/-- What a primitive leaves on paper, blanks apart: the characters of its text, or the line of a cut. -/
def ink (width : Nat) : Op → List Char
  | .align _ => []
  | .text content _ => withoutBlanks content.toList
  | .feed _ => []
  | .cut => withoutBlanks (cutLine width)

/-- The characters of lines that are not blank, line by line. -/
def inkOf (lines : List String) : List Char :=
  lines.flatMap fun line => withoutBlanks line.toList

theorem inkOf_append (lines lines' : List String) :
    inkOf (lines ++ lines') = inkOf lines ++ inkOf lines' :=
  List.flatMap_append

theorem columns_perLine (hwidth : 0 < width) (size : TextSize) :
    width / size.columns - 1 + 1 = perLine width size := by
  cases size with
  | normal =>
    rw [TextSize.columns, Nat.div_one, perLine]
    omega
  | large =>
    rw [TextSize.columns, perLine]
    omega

theorem ink_drawn (width : Nat) (a : Alignment) (op : Op) :
    inkOf (drawn width a op) = ink width op := by
  cases op with
  | align b => rfl
  | text content style =>
    have hplaced : ∀ piece : List Char,
        withoutBlanks (String.ofList (place width a (style.getD .plain).size piece)).toList =
          withoutBlanks piece := by
      intro piece
      rw [String.toList_ofList, withoutBlanks_place]
    have hline : ∀ line : List Char,
        (pieces (width / (style.getD .plain).size.columns - 1) line).flatMap withoutBlanks =
          withoutBlanks line := by
      intro line
      rw [← withoutBlanks_flatten, flatten_pieces]
    rw [drawn_text, inkOf, List.flatMap_map]
    simp only [hplaced]
    rw [wrapped, List.flatMap_assoc]
    simp only [hline]
    exact withoutBlanks_splitOn content.toList
  | feed lines =>
    refine List.flatMap_eq_nil_iff.mpr fun line hline => ?_
    rw [List.eq_of_mem_replicate hline]
    rfl
  | cut =>
    rw [drawn, inkOf, List.flatMap_singleton, String.toList_ofList]
    rfl

theorem length_drawn (hwidth : 0 < width) (a : Alignment) (op : Op) :
    (drawn width a op).length = height width op := by
  cases op with
  | align b => rfl
  | text content style =>
    rw [drawn_text, List.length_map, wrapped, List.length_flatMap, height, rowsOf]
    simp only [length_pieces, columns_perLine hwidth]
  | feed lines => exact List.length_replicate
  | cut => rfl

/-! ### Programs -/

theorem ink_drawing (width : Nat) (a : Alignment) (p : Program) :
    inkOf (drawing width a p) = p.flatMap (ink width) := by
  induction p generalizing a with
  | nil => rfl
  | cons op p ih => rw [drawing, inkOf_append, ink_drawn, ih, List.flatMap_cons]

theorem length_drawing (hwidth : 0 < width) (a : Alignment) (p : Program) :
    (drawing width a p).length = (p.map (height width)).sum := by
  induction p generalizing a with
  | nil => rfl
  | cons op p ih =>
    rw [drawing, List.length_append, length_drawn hwidth, ih, List.map_cons, List.sum_cons]

/-- Whatever is on the paper already and however lines are aligned, a text adds lines whose characters,
blanks apart, are those of the text in order, and a program those of its primitives. How many lines it is
follows from the lengths of the lines of texts alone. Paper of no width counts as one column wide. -/
theorem wrapping_loses_nothing (paper : Preview) :
    (∀ (content : String) (style : Option TextStyle), ∃ added : List String,
      (Printer.issue paper (.text content style)).lines.toList = paper.lines.toList ++ added ∧
      inkOf added = withoutBlanks content.toList ∧
      added.length = rowsOf paper.width (style.getD .plain).size content) ∧
    (∀ p : Program, ∃ added : List String,
      (p.replay paper).lines.toList = paper.lines.toList ++ added ∧
      inkOf added = p.flatMap (ink paper.width) ∧
      added.length = (p.map (height paper.width)).sum) ∧
    ∀ (width : Nat) (history : Program), (history.replay (blank width)).width = max width 1 := by
  refine ⟨fun content style => ⟨drawn paper.width paper.alignment (.text content style), ?_, ?_, ?_⟩,
    fun p => ⟨drawing paper.width paper.alignment p, lines_replay p paper, ?_, ?_⟩,
    fun width history => width_replay history (blank width)⟩
  · exact lines_issue paper (.text content style)
  · exact ink_drawn paper.width paper.alignment (.text content style)
  · exact length_drawn paper.width_pos paper.alignment (.text content style)
  · exact ink_drawing paper.width paper.alignment p
  · exact length_drawing paper.width_pos paper.alignment p

/-- On paper of five columns two large characters fit on a line, and a blank between them counts as one. -/
example : drawn 5 .center (.text "ab c\n" (some { size := .large })) = ["a b", "  c", ""] := by
  decide +kernel

end Preview

end Receipt
