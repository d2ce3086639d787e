import Receipt.Layout.Writer
import Receipt.Proofs.Printer.ReadBack
import Receipt.Proofs.WellFormed

/-!
# One cut on the wire

The code page sends control characters as they are, so a text may hold a command of its own: an escape
with a letter behind it that the printer knows. `receipt_cuts_once_iff` shows that such texts are the
only obstacle. Without them the printer reads the compiled commands and the texts, and one cut at the
end; with one of them it reads something else. The last command is a cut in any case.
-/

namespace Receipt

open Printer Printer.Signal

/-- A job that the printer reads as it was compiled, with a single cut at its end. -/
structure Program.CutsOnce (p : Program) : Prop where
  as_compiled : Signal.ofBytes p.toBytes = p.signals
  /-- The cut is the last signal, right behind a feed of two lines. -/
  one_cut : ∃ front, Signal.ofBytes p.toBytes =
    front ++ [.command (.feed 2), .command (.cut 2)] ∧ ∀ mode, .command (.cut mode) ∉ front

/-- What makes a command of an escape character within a text. -/
def commandOpeners : List (List Char) :=
  [['@'], ['E'], ['F'], ['a'], ['d'], ['i'], ['\x1d', 't'], ['\x1d', 'a']]

/-- A text with a printer command in it. -/
def HoldsCommand (line : String) : Prop :=
  ∃ opener ∈ commandOpeners, '\x1b' :: opener <:+: line.toList

/-! ### Texts and their bytes -/

theorem eq_of_map_eq_map {α β : Type} {f : α → β} {v w : List α}
    (hf : ∀ c ∈ w, ∀ x, f x = f c → x = c) (h : v.map f = w.map f) : v = w := by
  induction w generalizing v with
  | nil => exact List.map_eq_nil_iff.mp h
  | cons c w ih =>
    obtain ⟨x, v, rfl, hx, hv⟩ := List.map_eq_cons_iff.mp h
    rw [hf c List.mem_cons_self x hx, ih (fun c hc => hf c (List.mem_cons_of_mem _ hc)) hv]

theorem infix_of_map_infix_map {α β : Type} {f : α → β} {w l : List α}
    (hf : ∀ c ∈ w, ∀ x, f x = f c → x = c) (h : w.map f <:+: l.map f) : w <:+: l := by
  obtain ⟨s, t, h⟩ := h
  obtain ⟨front, t', rfl, hfront, -⟩ := List.map_eq_append_iff.mp h.symm
  obtain ⟨s', w', rfl, -, hw⟩ := List.map_eq_append_iff.mp hfront
  exact ⟨s', t', by rw [eq_of_map_eq_map hf hw]⟩

theorem inert_encode_iff (line : String) :
    Printer.Inert (CodePage.encode line) ↔ ¬ HoldsCommand line := by
  have hopeners : openers = commandOpeners.map (List.map CodePage.byte) := by decide +kernel
  have hholds : ∀ opener ∈ commandOpeners,
      escape :: opener.map CodePage.byte <:+: CodePage.encode line ↔
        '\x1b' :: opener <:+: line.toList := by
    intro opener ho
    have hascii : ∀ o ∈ commandOpeners, ∀ c ∈ '\x1b' :: o, c.toNat < 0x80 ∧ c ≠ '?' := by
      simp [commandOpeners]
    have hescape : CodePage.byte '\x1b' = escape := by decide +kernel
    rw [← hescape, ← List.map_cons]
    constructor
    · refine infix_of_map_infix_map fun c hc x hx => ?_
      obtain ⟨hlt, hq⟩ := hascii opener ho c hc
      exact (CodePage.byte_eq_byte_iff x hlt hq).mp hx
    · exact fun h => h.map CodePage.byte
  unfold Printer.Inert HoldsCommand
  rw [hopeners, List.forall_mem_map]
  constructor
  · intro h hcommand
    obtain ⟨opener, ho, hi⟩ := hcommand
    exact h opener ho ((hholds opener ho).mpr hi)
  · intro h opener ho hi
    exact h ⟨opener, ho, (hholds opener ho).mp hi⟩

/-! ### The last command -/

/-- A command takes at most three bytes besides its escape. -/
theorem command?_eq_drop {bs after : List UInt8} {c : Command}
    (h : command? bs = some (c, after)) : ∃ k, k ≤ 3 ∧ after = bs.drop k := by
  unfold command? at h
  split at h <;> cases h
  · exact ⟨1, by decide, rfl⟩
  · exact ⟨3, by decide, rfl⟩
  · exact ⟨3, by decide, rfl⟩
  · exact ⟨1, by decide, rfl⟩
  · exact ⟨1, by decide, rfl⟩
  · exact ⟨3, by decide, rfl⟩
  · exact ⟨2, by decide, rfl⟩
  · exact ⟨2, by decide, rfl⟩

theorem next_eq_drop (b : UInt8) (rest : List UInt8) :
    ∃ k, k ≤ 3 ∧ (next b rest).2 = rest.drop k := by
  unfold next
  split
  · split
    · next c after hc => exact command?_eq_drop hc
    · exact ⟨0, by decide, rfl⟩
  · split <;> exact ⟨0, by decide, rfl⟩

/-- What every receipt ends with on the wire. -/
def endingBytes : List UInt8 :=
  (Command.feed 2).bytes ++ Command.fullCut.bytes

/-- Whatever stands before it, a feed of two lines keeps the cut behind it readable: a command that
swallows its escape has no room left for the next one. -/
theorem ofBytes_ends_in_cut (bs : List UInt8) :
    ∃ front, Signal.ofBytes (bs ++ endingBytes) = front ++ [.command (.cut 2)] := by
  -- on the length, since a command takes several bytes at once
  induction hn : bs.length using Nat.strongRecOn generalizing bs with
  | ind n ih =>
    cases bs with
    | nil => exact ⟨[.command (.feed 2)], by decide +kernel⟩
    | cons b bs =>
      rw [List.cons_append, ofBytes_cons]
      obtain ⟨k, hk, hdrop⟩ := next_eq_drop b (bs ++ endingBytes)
      have hrest : ∃ front, Signal.ofBytes ((bs ++ endingBytes).drop k) =
          front ++ [.command (.cut 2)] := by
        by_cases hle : k ≤ bs.length
        · rw [List.drop_append_of_le_length hle]
          refine ih (bs.drop k).length ?_ (bs.drop k) rfl
          rw [List.length_drop, ← hn, List.length_cons]
          omega
        · rw [List.drop_append, List.drop_eq_nil_of_le (by omega), List.nil_append]
          have hj : k - bs.length = 1 ∨ k - bs.length = 2 ∨ k - bs.length = 3 := by omega
          rcases hj with hj | hj | hj <;> rw [hj]
          · exact ⟨[.byte 0x61, .byte 2], by decide +kernel⟩
          · exact ⟨[.byte 2], by decide +kernel⟩
          · exact ⟨[], by decide +kernel⟩
      obtain ⟨front, hfront⟩ := hrest
      exact ⟨(next b (bs ++ endingBytes)).1 :: front, by rw [hdrop, hfront]; rfl⟩

/-! ### Bodies without a cut -/

theorem cut_not_mem_signals {op : Op} (h : op ≠ .cut) (mode : UInt8) :
    .command (.cut mode) ∉ op.signals := by
  cases op with
  | align a => simp [Op.signals, Command.alignTo]
  | feed n => simp [Op.signals]
  | cut => exact absurd rfl h
  | text content style =>
    have hbytes : .command (.cut mode) ∉ Signal.ofText (CodePage.encode content) := by
      intro hm
      obtain ⟨b, -, hb⟩ := List.mem_map.mp hm
      split at hb <;> cases hb
    have henter : Command.cut mode ∉ (style.getD .plain).enter := by
      unfold TextStyle.enter
      split <;> split <;> simp [Command.doubleSize, Command.enlarge]
    have hleave : Command.cut mode ∉ (style.getD .plain).leave := by
      unfold TextStyle.leave
      split <;> split <;> simp [Command.normalSize, Command.enlarge]
    simp [Op.signals, hbytes, henter, hleave]

theorem toBytes_finish (body : Program) :
    Program.toBytes (body ++ [.feed 2, .cut]) =
      Program.preamble ++ (body.flatMap Op.bytes ++ endingBytes) := by
  unfold Program.toBytes endingBytes
  rw [List.flatMap_append]
  rfl

theorem signals_finish (body : Program) :
    Program.signals (body ++ [.feed 2, .cut]) =
      Program.signals body ++ [.command (.feed 2), .command (.cut 2)] := by
  unfold Program.signals
  rw [List.flatMap_append, List.append_assoc]
  rfl

theorem lines_finish (body : Program) :
    Program.lines (body ++ [.feed 2, .cut]) = body.lines := by
  rw [Program.lines_append]
  exact List.append_nil _

/-- A body without a cut is cut once exactly if none of its texts holds a command. -/
theorem cutsOnce_finish_iff {body : Program} (h : .cut ∉ body) :
    Program.CutsOnce (body ++ [.feed 2, .cut]) ↔ body.Inert := by
  constructor
  · intro hc
    have hread := hc.as_compiled
    rw [toBytes_finish, ofBytes_preamble, signals_finish, Program.signals, List.append_assoc] at hread
    exact inert_of_ofBytes_ops (List.append_cancel_left hread)
  · intro hi
    have hlines : Program.Inert (body ++ [.feed 2, .cut]) := by
      unfold Program.Inert
      rw [lines_finish]
      exact hi
    refine ⟨ofBytes_toBytes hlines, body.signals, ?_, fun mode hm => ?_⟩
    · rw [ofBytes_toBytes hlines, signals_finish]
    · unfold Program.signals at hm
      rcases List.mem_append.mp hm with hpre | hop
      · simp [Command.selectPage437] at hpre
      · obtain ⟨op, hop, hm⟩ := List.mem_flatMap.mp hop
        exact cut_not_mem_signals (fun he => h (he ▸ hop)) mode hm

/-- Every receipt is sent with a cut as its last command. It is read as it was compiled, with that one
cut right behind the feed of two lines, exactly if none of its texts holds a command. -/
theorem receipt_cuts_once_iff (d : Dialect) (order : Option Order) (text : String) :
    (∃ front, Signal.ofBytes (Program.toBytes (d.receipt order text)) =
      front ++ [.command (.cut 2)]) ∧
    (Program.CutsOnce (d.receipt order text) ↔
      ∀ line ∈ Program.lines (d.receipt order text), ¬ HoldsCommand line) := by
  have hsources : ∃ body : Program,
      d.receipt order text = body ++ [.feed 2, .cut] ∧ body.WellFormed :=
    complete_wellFormed fun p hp => body_wellFormed hp
  obtain ⟨body, hreceipt, hform⟩ := hsources
  rw [hreceipt]
  constructor
  · rw [toBytes_finish, ← List.append_assoc]
    exact ofBytes_ends_in_cut _
  · rw [cutsOnce_finish_iff hform.no_cut, lines_finish]
    exact forall₂_congr fun line _ => inert_encode_iff line

/-- A content with an escape and a `d` cuts the paper in the middle of the receipt. -/
theorem escape_in_content_cuts :
    let l : Layout := { sections := [{ tag := "text", content := some "\x1bd0" }] }
    let receipt := Dialect.receipt {} none l.write
    Signal.ofBytes (Program.toBytes receipt) =
      [.command .reset, .command (.codePage 1), .command (.align 0), .command (.cut 0x30),
        .lineFeed, .command (.feed 2), .command (.cut 2)] ∧
    ¬ Program.CutsOnce receipt := by
  intro l receipt
  have hreceipt : receipt = [.align .left, .text "\x1bd0" none, .feed 2, .cut] := by decide +kernel
  rw [hreceipt]
  refine ⟨by decide +kernel, fun h => ?_⟩
  exact absurd h.as_compiled (by decide +kernel)

end Receipt
