import Receipt.Proofs.Placeholder.Substitution

/-!
# Nothing is left to resolve

A value may stand between braces that were there before it, so resolving a text can make new brace
pairs. None of them is a placeholder: a value has no braces of its own, and it begins with a character
that no placeholder has in it, so whatever looks like a placeholder afterwards has been one before.
-/

namespace Receipt.Placeholder

variable {cs out w : List Char} {sample : String × String}

/-- A text in which no sample is named. -/
def Settled (cs : List Char) : Prop :=
  ∀ sample ∈ samples, ¬ braces sample.1 <:+: cs

/-- What is made of the characters of a placeholder has been copied: no value can begin within it. -/
theorem Substituted.begins_of_begins (hs : sample ∈ samples) (h : Substituted cs out)
    (hw : w ⊆ braces sample.1) (hp : w <+: out) : w <+: cs := by
  induction h generalizing w with
  | done => exact hp
  | replaced known _ _ _ =>
    obtain ⟨c, tail, hvalue, hc⟩ := exists_value_eq_cons known
    rw [hvalue, List.cons_append] at hp
    rcases List.prefix_cons_iff.mp hp with rfl | ⟨w, rfl, -⟩
    · exact List.nil_prefix
    · exact absurd (hw List.mem_cons_self) (hc sample hs)
  | copied _ _ ih =>
    rcases List.prefix_cons_iff.mp hp with rfl | ⟨w, rfl, hrest⟩
    · exact List.nil_prefix
    · exact List.cons_prefix_cons.mpr ⟨rfl, ih (List.subset_of_cons_subset hw) hrest⟩

theorem Substituted.settled (h : Substituted cs out) : Settled out := by
  induction h with
  | done =>
    intro sample _ hi
    exact absurd (List.infix_nil.mp hi) (List.cons_ne_nil _ _)
  | @replaced name value cs rest out known _ _ ih =>
    intro sample hs hi
    have hopen : '{' ∉ value.toList := unwritten (by decide) _ known
    exact ih sample hs (infix_of_infix_append hopen hi)
  | copied plain h ih =>
    intro sample hs hi
    rcases List.infix_cons_iff.mp hi with hp | hi
    · exact plain sample hs ((h.copied plain).begins_of_begins hs (List.Subset.refl _) hp)
    · exact ih sample hs hi

theorem Settled.substituted (h : Settled cs) : Substituted cs cs := by
  induction cs with
  | nil => exact .done
  | cons c cs ih =>
    refine .copied (fun sample hs hp => h sample hs hp.isInfix) (ih fun sample hs hi => ?_)
    exact h sample hs (hi.trans (List.suffix_cons c cs).isInfix)

theorem settled_resolve (s : String) : Settled (resolve s).toList :=
  (substituted_iff.mpr rfl : Substituted s.toList (resolve s).toList).settled

/-- No sample is named in a resolved text, so resolving it again changes nothing. -/
theorem resolved_text_is_settled (s : String) :
    (∀ sample ∈ samples, ¬ braces sample.1 <:+: (resolve s).toList) ∧
    resolve (resolve s) = resolve s := by
  have h := settled_resolve s
  have hsame : (resolve s).toList = (resolve (resolve s)).toList := substituted_iff.mp h.substituted
  exact ⟨h, String.toList_inj.mp hsame.symm⟩

/-- A value within braces makes a new pair of braces, which is left alone. -/
theorem value_in_braces_is_left :
    ("tax", "$2.24") ∈ samples ∧ ¬ braces "tax" <:+: (resolve "{{item_count}}{ta{tax}x}").toList ∧
      resolve "{{item_count}}{ta{tax}x}" = "{5}{ta$2.24x}" ∧
      resolve "{5}{ta$2.24x}" = "{5}{ta$2.24x}" := by
  have htax : ("tax", "$2.24") ∈ samples := by decide +kernel
  have hresolve : resolve "{{item_count}}{ta{tax}x}" = "{5}{ta$2.24x}" := by decide +kernel
  obtain ⟨hsettled, hagain⟩ := resolved_text_is_settled "{{item_count}}{ta{tax}x}"
  rw [hresolve] at hagain
  have hleft : ¬ braces "tax" <:+: (resolve "{{item_count}}{ta{tax}x}").toList :=
    hsettled ("tax", "$2.24") htax
  exact ⟨htax, hleft, hresolve, hagain⟩

end Receipt.Placeholder
