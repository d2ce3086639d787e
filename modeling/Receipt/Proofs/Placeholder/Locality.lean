import Receipt.Proofs.Placeholder.Substitution
import Receipt.Proofs.Text.Lines

/-!
# Resolving in parts

A character that stands in no placeholder keeps the texts on its two sides apart: an opening brace in
front of it comes to nothing behind it. `Substituted.append_cons` joins two substitutions at such a
character, and `Substituted.of_append_cons` takes one apart where no value has the character in it. Line
feeds and carriage returns are of that kind, so a text is resolved line by line.
-/

namespace Receipt.Placeholder

open Composer (linesOf template withoutReturn)

variable {a b cs out w x y : List Char} {c : Char}

/-- A character that stands in no placeholder. -/
def Separates (c : Char) : Prop :=
  ∀ sample ∈ samples, c ∉ braces sample.1

theorem separates (hopen : c ≠ '{') (hclose : c ≠ '}') (hname : isNameChar c = false) :
    Separates c := by
  intro sample hs hmem
  simp only [braces, List.cons_append, List.mem_cons, List.mem_append, List.not_mem_nil,
    or_false] at hmem
  rcases hmem with h | h | h
  · exact hopen h
  · exact (isName_of_mem hs).not_mem hname h
  · exact hclose h

/-! ### Joining and taking apart -/

theorem Substituted.append_cons (hc : Separates c) (ha : Substituted a x) (hb : Substituted b y) :
    Substituted (a ++ c :: b) (x ++ c :: y) := by
  induction ha with
  | done =>
    refine .copied (fun sample hs hp => hc sample hs ?_) hb
    have hopen : '{' = c := (List.cons_prefix_cons.mp hp).1
    exact hopen ▸ List.mem_cons_self
  | replaced known begins _ ih =>
    subst begins
    rw [List.append_assoc, List.append_assoc]
    exact .replaced known rfl ih
  | copied plain _ ih =>
    refine .copied (fun sample hs hp => plain sample hs ?_) ih
    exact prefix_of_append_cons (hc sample hs) hp

/-- A character that no value brings in comes from the text, and the parts around it do so too. -/
theorem Substituted.of_append_cons (hvalues : Unwritten c)
    (h : Substituted cs (x ++ c :: y)) :
    ∃ a b, cs = a ++ c :: b ∧ Substituted a x ∧ Substituted b y := by
  generalize hout : x ++ c :: y = out at h
  induction h generalizing x with
  | done => exact absurd hout (by simp)
  | replaced known begins _ ih =>
    obtain ⟨front, rfl, hrest⟩ := exists_of_append_cons_eq (hvalues _ known) hout
    obtain ⟨a, b, rfl, ha, hb⟩ := ih hrest.symm
    refine ⟨_, b, ?_, .replaced known rfl ha, hb⟩
    rw [begins, List.append_assoc]
  | @copied d rest out plain h ih =>
    cases x with
    | nil =>
      obtain ⟨rfl, rfl⟩ := List.cons.inj hout
      exact ⟨[], rest, rfl, .done, h⟩
    | cons e x =>
      obtain ⟨rfl, htail⟩ := List.cons.inj hout
      obtain ⟨a, b, rfl, ha, hb⟩ := ih htail
      refine ⟨e :: a, b, rfl, .copied (fun sample hs hp => plain sample hs ?_) ha, hb⟩
      exact hp.trans (List.prefix_append (e :: a) (c :: b))

theorem Substituted.eq_nil (h : Substituted cs []) : cs = [] := by
  generalize hout : [] = out at h
  cases h with
  | done => rfl
  | replaced known _ _ =>
    obtain ⟨c, tail, hvalue, -⟩ := exists_value_eq_cons known
    rw [hvalue] at hout
    cases hout
  | copied _ _ => cases hout

/-! ### Texts -/

/-- A text with the samples put in. -/
def resolved (cs : List Char) : List Char :=
  (resolve (String.ofList cs)).toList

theorem substituted_iff_resolved : Substituted cs out ↔ out = resolved cs := by
  rw [resolved, ← substituted_iff, String.toList_ofList]

theorem toList_resolve_eq (s : String) : (resolve s).toList = resolved s.toList := by
  rw [resolved, String.ofList_toList]

theorem resolved_append_cons (hc : Separates c) (a b : List Char) :
    resolved (a ++ c :: b) = resolved a ++ c :: resolved b := by
  have ha : Substituted a (resolved a) := substituted_iff_resolved.mpr rfl
  have hb : Substituted b (resolved b) := substituted_iff_resolved.mpr rfl
  exact (substituted_iff_resolved.mp (ha.append_cons hc hb)).symm

theorem resolved_concat (hc : Separates c) (a : List Char) :
    resolved (a ++ [c]) = resolved a ++ [c] := by
  have hnil : [] = resolved [] := substituted_iff_resolved.mp .done
  rw [resolved_append_cons hc, ← hnil]

theorem mem_of_mem_resolved (hvalues : Unwritten c) (h : c ∈ resolved cs) : c ∈ cs := by
  obtain ⟨x, y, hout⟩ := List.append_of_mem h
  obtain ⟨a, b, rfl, -, -⟩ := (substituted_iff_resolved.mpr hout.symm).of_append_cons hvalues
  exact List.mem_append_right a List.mem_cons_self

theorem getLast?_resolved (hc : Separates c) (hvalues : Unwritten c) :
    (resolved cs).getLast? = some c ↔ cs.getLast? = some c := by
  rw [List.getLast?_eq_some_iff, List.getLast?_eq_some_iff]
  constructor
  · rintro ⟨x, hx⟩
    obtain ⟨a, b, rfl, -, hb⟩ := (substituted_iff_resolved.mpr hx.symm).of_append_cons hvalues
    exact ⟨a, by rw [hb.eq_nil]⟩
  · rintro ⟨a, rfl⟩
    exact ⟨resolved a, resolved_concat hc a⟩

theorem separates_lineFeed : Separates '\n' :=
  separates (by decide) (by decide) (by decide)

theorem separates_return : Separates '\r' :=
  separates (by decide) (by decide) (by decide)

theorem unwritten_lineFeed : Unwritten '\n' :=
  unwritten (by decide)

theorem unwritten_return : Unwritten '\r' :=
  unwritten (by decide)

theorem splitOn_resolved (cs : List Char) :
    (resolved cs).splitOn '\n' = (cs.splitOn '\n').map resolved :=
  Text.splitOn_eq_map (resolved_append_cons separates_lineFeed)
    (fun _ hline hfeed => hline (mem_of_mem_resolved unwritten_lineFeed hfeed)) cs

theorem withoutReturn_resolved (line : List Char) :
    withoutReturn (resolved line) = resolved (withoutReturn line) := by
  by_cases h : line.getLast? = some '\r'
  · obtain ⟨front, rfl⟩ := List.getLast?_eq_some_iff.mp h
    unfold withoutReturn
    rw [resolved_concat separates_return]
    simp
  · have hresolved := mt (getLast?_resolved separates_return unwritten_return).mp h
    rw [Composer.withoutReturn_eq_self h, Composer.withoutReturn_eq_self hresolved]

theorem linesOf_resolve (t : String) : linesOf (resolve t) = (linesOf t).map resolve := by
  unfold linesOf
  rw [toList_resolve_eq, splitOn_resolved, List.map_map, List.map_map]
  refine List.map_congr_left fun line _ => ?_
  rw [Function.comp_apply, Function.comp_apply, withoutReturn_resolved, resolved,
    String.ofList_toList]

/-- The texts on the two sides of a character that is no brace and stands in no name are resolved each
on its own. So a text is resolved line by line, whether or not it has been cut into lines before. -/
theorem resolve_in_parts :
    (∀ (a b : String) (c : Char), c ≠ '{' → c ≠ '}' → isNameChar c = false →
      resolve (a ++ String.singleton c ++ b) =
        resolve a ++ String.singleton c ++ resolve b) ∧
    (∀ t : String, (resolve t).toList.splitOn '\n' =
      (t.toList.splitOn '\n').map fun line => (resolve (String.ofList line)).toList) ∧
    ∀ (o : Options) (t : String), linesOf (template o t) = (linesOf t).map (template o) := by
  refine ⟨fun a b c hopen hclose hname => ?parts, fun t => ?pieces, fun o t => ?lines⟩
  case parts =>
    have h := resolved_append_cons (separates hopen hclose hname) a.toList b.toList
    rw [← String.toList_inj]
    simpa [toList_resolve_eq] using h
  case pieces =>
    rw [toList_resolve_eq]
    exact splitOn_resolved t.toList
  case lines =>
    unfold template
    cases o.placeholders with
    | false => exact (List.map_id (linesOf t)).symm
    | true => exact linesOf_resolve t

/-- A brace that is opened on one line closes nothing on the next. -/
theorem open_brace_ends_with_its_line :
    '\n' ≠ '{' ∧ '\n' ≠ '}' ∧ isNameChar '\n' = false ∧
      resolve ("TOTAL \x7btotal" ++ String.singleton '\n' ++ "{tax} {date}") =
        "TOTAL \x7btotal\n$2.24 12/04/2024" ∧
      linesOf (template {} "\x7b {tax}\r\n\r\n\x7btotal") = ["\x7b $2.24", "", "\x7btotal"] := by
  obtain ⟨hparts, -, hlines⟩ := resolve_in_parts
  have hfeed : '\n' ≠ '{' ∧ '\n' ≠ '}' ∧ isNameChar '\n' = false := by decide
  refine ⟨hfeed.1, hfeed.2.1, hfeed.2.2, ?_, ?_⟩
  · rw [hparts _ _ _ hfeed.1 hfeed.2.1 hfeed.2.2]
    decide +kernel
  · rw [hlines]
    decide +kernel

end Receipt.Placeholder
