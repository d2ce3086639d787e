import Receipt.Program.Dump
import Receipt.Proofs.Text.Lines
import Receipt.Proofs.Text.Quoted

/-!
# Lines of a dump

A dump has a line for each primitive, in order, and no other lines. The texts of a program may hold
line feeds; quoted, they do not end a line. A line shows all of its primitive (`Op.dump_injective`), and so
a dump shows all of its program.
-/

namespace Receipt

open Text

theorem lineFeed_not_mem_dumpMark (style : Option TextStyle) :
    '\n' ∉ (TextStyle.dumpMark style).toList := by
  cases style with
  | none => decide +kernel
  | some s =>
    obtain ⟨bold, size⟩ := s
    cases bold <;> cases size <;> decide +kernel

theorem dump_text (content : String) (style : Option TextStyle) :
    (Op.text content style).dump =
      "Text \x7b content: " ++ quoted content ++ ", style: " ++ TextStyle.dumpMark style ++ " \x7d" :=
  rfl

theorem dump_feed (lines : UInt8) :
    (Op.feed lines).dump = "Feed \x7b lines: " ++ toString lines.toNat ++ " \x7d" := rfl

theorem lineFeed_not_mem_dump (op : Op) : '\n' ∉ op.dump.toList := by
  cases op with
  | align a => cases a <;> decide +kernel
  | cut => decide +kernel
  | feed lines =>
    rw [dump_feed]
    simp [Nat.toList_repr, lineFeed_not_mem_decimal lines.toNat]
  | text content style =>
    rw [dump_text]
    simp [lineFeed_not_mem_quoted content, lineFeed_not_mem_dumpMark style]

/-! ### What a line shows -/

/-- The first character of a line tells the kind of the primitive. -/
theorem head?_dump (op : Op) :
    op.dump.toList.head? = some (match op with
      | .align _ => 'S'
      | .text _ _ => 'T'
      | .feed _ => 'F'
      | .cut => 'C') := by
  cases op with
  | align a => cases a <;> rfl
  | text content style =>
    rw [dump_text, String.append_assoc, String.append_assoc, String.append_assoc, String.toList_append]
    rfl
  | feed lines =>
    rw [dump_feed, String.append_assoc, String.toList_append]
    rfl
  | cut => rfl

theorem dumpMark_injective {style style' : Option TextStyle}
    (h : TextStyle.dumpMark style = TextStyle.dumpMark style') : style = style' := by
  -- There are four styles; every two marks are compared.
  obtain _ | ⟨bold, size⟩ := style
  · obtain _ | ⟨bold', size'⟩ := style'
    · rfl
    · cases bold' <;> cases size' <;> exact absurd h (by decide +kernel)
  · obtain _ | ⟨bold', size'⟩ := style'
    · cases bold <;> cases size <;> exact absurd h (by decide +kernel)
    · cases bold <;> cases size <;> cases bold' <;> cases size' <;>
        first | rfl | exact absurd h (by decide +kernel)

/-- Behind the closing quote of the text stands its style. -/
theorem dump_text_inj {content content' : String} {style style' : Option TextStyle}
    (h : (Op.text content style).dump = (Op.text content' style').dump) :
    content = content' ∧ style = style' := by
  have hrest : (quoted content).toList ++ (", style: " ++ TextStyle.dumpMark style ++ " \x7d").toList =
      (quoted content').toList ++ (", style: " ++ TextStyle.dumpMark style' ++ " \x7d").toList := by
    rw [dump_text, dump_text] at h
    simpa [String.append_assoc] using congrArg String.toList h
  obtain ⟨hcontent, hstyle⟩ := quoted_append_inj hrest
  have hmark : TextStyle.dumpMark style = TextStyle.dumpMark style' := by
    simpa [String.toList_inj] using hstyle
  exact ⟨hcontent, dumpMark_injective hmark⟩

theorem dump_feed_inj {lines lines' : UInt8} (h : (Op.feed lines).dump = (Op.feed lines').dump) :
    lines = lines' := by
  have hdigits : Nat.toDigits 10 lines.toNat = Nat.toDigits 10 lines'.toNat := by
    rw [dump_feed, dump_feed] at h
    simpa [Nat.toList_repr] using congrArg String.toList h
  have hlines : lines.toNat = lines'.toNat := by
    rw [← Nat.ofDigitChars_ten_toDigits (n := lines.toNat), hdigits, Nat.ofDigitChars_ten_toDigits]
  exact UInt8.toNat_inj.mp hlines

/-- A line shows all of its primitive. -/
theorem Op.dump_injective {op op' : Op} (h : op.dump = op'.dump) : op = op' := by
  -- Lines of two kinds differ in their first character.
  have hkind := congrArg (fun line => line.toList.head?) h
  simp only [head?_dump] at hkind
  cases op with
  | align a =>
    cases op' with
    | align a' => cases a <;> cases a' <;> first | rfl | exact absurd h (by decide)
    | text _ _ | feed _ | cut => simp at hkind
  | text content style =>
    cases op' with
    | text content' style' =>
      obtain ⟨rfl, rfl⟩ := dump_text_inj h
      rfl
    | align _ | feed _ | cut => simp at hkind
  | feed lines =>
    cases op' with
    | feed lines' => rw [dump_feed_inj h]
    | align _ | text _ _ | cut => simp at hkind
  | cut =>
    cases op' with
    | cut => rfl
    | align _ | text _ _ | feed _ => simp at hkind

example : (Op.text "5\" wide\n" (some .emphasis)).dump =
    "Text \x7b content: \"5\\\" wide\\n\", style: Some(TextStyle \x7b bold: true, size: Normal \x7d) \x7d" := by
  decide +kernel

/-! ### Whole dumps -/

theorem toList_dump (p : Program) : p.dump.toList = p.flatMap fun op => op.dump.toList ++ ['\n'] := by
  unfold Program.dump
  rw [String.toList_join, List.flatMap_map]
  simp

/-- The lines of a dump are those of its primitives; behind the last line feed nothing follows. -/
theorem splitOn_dump (p : Program) :
    p.dump.toList.splitOn '\n' = p.map (fun op => op.dump.toList) ++ [[]] := by
  rw [toList_dump]
  induction p with
  | nil => rfl
  | cons op p ih =>
    rw [List.flatMap_cons, List.append_assoc, List.singleton_append,
      List.splitOn_append_cons_self_of_not_mem (lineFeed_not_mem_dump op), ih]
    rfl

/-- Two programs with one dump are one program. -/
theorem Program.dump_injective {p q : Program} (h : p.dump = q.dump) : p = q := by
  have hlines : p.map (fun op => op.dump.toList) ++ [[]] = q.map (fun op => op.dump.toList) ++ [[]] := by
    rw [← splitOn_dump, ← splitOn_dump, h]
  have hline : ∀ op op' : Op, op.dump.toList = op'.dump.toList → op = op' :=
    fun _ _ hop => Op.dump_injective (String.toList_inj.mp hop)
  exact (List.map_inj_right hline).mp (List.append_cancel_right hlines)

end Receipt
