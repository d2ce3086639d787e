import Receipt.Json.Record
import Receipt.Proofs.Json.Numbers

/-!
# Records that are read

What is read for a list or a record has every property that its entries or fields bring about. A record
is read in steps, so a property of the record must hold before any field is read and must be kept by each.
-/

namespace Receipt.Json

variable {α β σ : Type} {p : α → Prop}

/-- Whatever a reader reads has a property. -/
def Yields (p : α → Prop) (reader : Reader α) : Prop :=
  ∀ cs, Gives p (reader cs)

/-! ### Scalars -/

theorem gives_refuseNext (expected : String) (cs : List Char) :
    Gives p (refuseNext expected cs) := by
  unfold refuseNext
  split
  · exact gives_error _
  · exact gives_error _
  · exact gives_step fun _ => gives_error _

theorem gives_settle {meaning : Except Mismatch α} (h : ∀ a, meaning = .ok a → p a)
    (rest : List Char) : Gives p (settle meaning rest) := by
  unfold settle
  split
  · exact gives_ok (h _ rfl) rest
  · exact gives_error _

/-- A scalar is read from a value whose numbers are in range. -/
theorem yields_scalar {k : Scalar α} (h : ∀ v : Value, v.InRange → ∀ a, k.ofValue v = .ok a → p a) :
    Yields p k.read := by
  intro cs
  unfold Scalar.read
  split
  · exact gives_refuseNext _ _
  · exact gives_refuseNext _ _
  · exact gives_bind (gives_readScalar _) fun v rest hv => gives_settle (h v hv) rest

theorem yields_amount : Yields (fun x : Binary64 => x.isFinite = true) Scalar.amount.read := by
  refine yields_scalar fun v hv x hx => ?_
  cases v with
  | integer n =>
    cases hx
    exact Binary64.isFinite_nearest_word _ hv
  | double y =>
    cases hx
    exact hv
  | null => cases hx
  | boolean b => cases hx
  | text s => cases hx
  | array items => cases hx
  | object members => cases hx

theorem yields_option {reader : Reader α} (h : Yields p reader) :
    Yields (fun a => ∀ x, a = some x → p x) (readOption reader) := by
  intro cs
  unfold readOption
  split
  · exact gives_step fun rest => gives_ok nofun rest
  · refine gives_bind (h _) fun x rest hx => gives_ok ?_ rest
    intro y hy
    cases hy
    exact hx

/-! ### Lists -/

theorem gives_nested {depth : Nat} {reader : Nat → Reader α} (h : ∀ depth, Yields p (reader depth))
    (bracket : Char) (rest : List Char) : Gives p (nested depth reader bracket rest) := by
  cases depth with
  | zero => exact gives_error _
  | succ depth => exact h depth rest

/-- Each round of the loop adds an element that has been read. -/
theorem gives_readElements {item : Reader α} (h : Yields p item) (fuel : Nat) (done : List α)
    (hdone : ∀ a ∈ done, p a) (cs : List Char) :
    Gives (fun l => ∀ a ∈ l, p a) (readElements item fuel done cs) := by
  induction fuel generalizing done cs with
  | zero => exact gives_error _
  | succ fuel ih =>
    refine gives_step fun more => ?_
    cases more with
    | done rest =>
      refine gives_ok ?_ rest
      simpa using hdone
    | entry rest =>
      refine gives_bind (h rest) fun a rest ha => ih (a :: done) ?_ rest
      exact List.forall_mem_cons.mpr ⟨ha, hdone⟩

theorem yields_list {item : Nat → Reader α} (h : ∀ depth, Yields p (item depth)) (depth : Nat) :
    Yields (fun l => ∀ a ∈ l, p a) (readList item depth) := by
  intro cs
  unfold readList
  split
  · exact gives_nested (fun depth cs => gives_readElements (h depth) _ [] nofun cs) '[' _
  · exact gives_refuseNext _ _

/-! ### Records -/

/-- Each round of the loop reads a member into the result so far. -/
theorem gives_readMembers {member : String → σ → Reader σ} {q : σ → Prop}
    (h : ∀ key s, q s → Yields q (member key s)) (fuel : Nat) (first : Bool) (s : σ) (hs : q s)
    (cs : List Char) : Gives q (readMembers member fuel first s cs) := by
  induction fuel generalizing first s cs with
  | zero => exact gives_error _
  | succ fuel ih =>
    refine gives_step fun more => ?_
    cases more with
    | done rest => exact gives_ok hs rest
    | entry rest =>
      refine gives_step fun key => ?_
      exact gives_bind (h key.1 s hs key.2) fun s' rest hs' => ih false s' hs' rest

namespace Record

/-- Reading a field keeps a property of the record. -/
def Field.Keeps (p : α → Prop) (field : Field α) : Prop :=
  ∀ depth a, p a → Yields p (field.read depth a)

/-- A field whose value is read first and put into the record then. -/
theorem Field.keeps_of_set {field : Field α} {reader : Nat → Reader β} {set : α → β → α}
    {q : β → Prop} (hread : ∀ depth a cs, field.read depth a cs = do
      let (b, rest) ← reader depth cs
      pure (set a b, rest))
    (hq : ∀ depth, Yields q (reader depth)) (hset : ∀ a b, p a → q b → p (set a b)) :
    field.Keeps p := by
  intro depth a ha cs
  rw [hread]
  exact gives_bind (hq depth cs) fun b rest hb => gives_ok (hset a b ha hb) rest

variable {r : Record α} (hblank : p r.blank) (hfields : ∀ field ∈ r.fields, field.Keeps p)

include hfields

theorem yields_member (depth : Nat) (key : String) (s : List String × α) (hs : p s.2) :
    Yields (fun s => p s.2) (r.member depth key s) := by
  intro cs
  unfold member
  dsimp only
  split
  case h_1 field hfield =>
    split
    · exact gives_error _
    · refine gives_step fun rest => ?_
      have hkeeps := hfields field (List.mem_of_find?_eq_some hfield) depth s.2 hs
      exact gives_bind (hkeeps rest) fun a rest ha => gives_ok (a := (key :: s.1, a)) ha rest
  case h_2 =>
    exact gives_step fun rest => gives_step fun rest => gives_ok (a := s) hs rest

theorem gives_readFrom (depth : Nat) {fields : List (Field α)} (hsub : ∀ f ∈ fields, f ∈ r.fields)
    (i : Nat) (a : α) (ha : p a) (cs : List Char) : Gives p (r.readFrom depth fields i a cs) := by
  induction fields generalizing i a cs with
  | nil => exact gives_step fun rest => gives_ok ha rest
  | cons field fields ih =>
    have hsub' := List.forall_mem_cons.mp hsub
    refine gives_step fun more => ?_
    cases more with
    | entry rest =>
      refine gives_bind (hfields field hsub'.1 depth a ha rest) fun b rest hb => ?_
      exact ih hsub'.2 (i + 1) b hb rest
    | done rest =>
      dsimp only
      split
      · exact gives_error _
      · exact gives_ok ha rest

include hblank

/-- A record has what its blank has and each of its fields keeps. -/
theorem yields_read (depth : Nat) : Yields p (r.read depth) := by
  intro cs
  unfold read
  split
  · refine gives_nested (fun depth cs => ?_) '{' _
    have hmembers := gives_readMembers (yields_member hfields depth) (cs.length + 1) true
      ([], r.blank) hblank cs
    refine gives_bind hmembers fun s rest hs => ?_
    dsimp only
    split
    · exact gives_error _
    · exact gives_ok hs rest
  · exact gives_nested (fun depth cs =>
      gives_readFrom hfields depth (fun _ h => h) 0 r.blank hblank cs) '[' _
  · exact gives_refuseNext _ _

end Record

/-- A whole text is read for what its reader yields. -/
theorem of_readWhole {reader : Reader α} (h : Yields p reader) {text : String} {a : α}
    (hread : readWhole reader text = .ok a) : p a := by
  unfold readWhole at hread
  dsimp only at hread
  split at hread
  · cases hread
  case h_2 b rest hb =>
    split at hread
    · cases hread
      exact h text.toList _ rest hb
    · cases hread

end Receipt.Json
