import Mathlib.Data.List.GetD
import Mathlib.Data.List.Nodup
import Receipt.Proofs.Printer.Page

/-!
# Reading the code page back

The upper half of the page has 128 different characters, none of them ASCII. A byte therefore stands for one
character and a character on the page has one byte: `byte_char` and `char_byte` are the two directions for a
single character, and texts follow character by character.
-/

namespace Receipt.Printer.CodePage

variable {c : Char} {i : Nat}

/-- A character that has a byte of its own. -/
def OnPage (c : Char) : Prop :=
  c.toNat < 0x80 ∨ c ∈ upperHalf

instance (c : Char) : Decidable (OnPage c) :=
  inferInstanceAs (Decidable (c.toNat < 0x80 ∨ c ∈ upperHalf))

/-! ### The upper half -/

theorem nodup_upperHalf : upperHalf.Nodup := by
  have hcodes : (upperHalf.map Char.toNat).Nodup := by decide +kernel
  exact hcodes.of_map

theorem not_lt_of_mem_upperHalf (h : c ∈ upperHalf) : ¬ c.toNat < 0x80 := by
  have hall : (upperHalf.all fun c => 0x80 ≤ c.toNat) = true := by decide +kernel
  exact Nat.not_lt.mpr (of_decide_eq_true (List.all_eq_true.mp hall c h))

/-- The place of a character is told by the character, since none stands twice. -/
theorem idxOf?_eq_some_iff_getElem? : upperHalf.idxOf? c = some i ↔ upperHalf[i]? = some c := by
  rw [List.idxOf?_eq_some_iff, List.getElem?_eq_some_iff]
  refine exists_congr fun hi => and_iff_left_of_imp fun hc j hj heq => ?_
  have hij : j = i := nodup_upperHalf.getElem_inj_iff.mp (heq.trans hc.symm)
  omega

theorem byte_of_getElem? (h : upperHalf[i]? = some c) : byte c = (0x80 + i).toUInt8 := by
  have hc := not_lt_of_mem_upperHalf (List.mem_of_getElem? h)
  unfold byte byte?
  rw [if_neg hc, idxOf?_eq_some_iff_getElem?.mpr h]
  rfl

/-- The index of a byte of the upper half, which is not carried over. -/
theorem toNat_upper (hi : i < 128) : ((0x80 + i).toUInt8).toNat = 0x80 + i := by
  rw [UInt8.toNat_ofNat', Nat.mod_eq_of_lt (by omega)]

theorem byte_of_not_onPage (h : ¬ OnPage c) : byte c = substitute := by
  obtain ⟨hlow, hupper⟩ := not_or.mp h
  unfold byte byte?
  rw [if_neg hlow, List.idxOf?_eq_none_iff.mpr hupper]
  rfl

/-! ### Characters and bytes -/

theorem byte_char (b : UInt8) : byte (char b) = b := by
  have hb : b.toNat < 2 ^ 8 := b.toNat_lt
  unfold char
  split
  case isTrue hlow =>
    have hvalid : b.toNat.isValidChar := .inl (by omega)
    have hchar : (Char.ofNat b.toNat).toNat = b.toNat := by
      rw [Char.ofNat, dif_pos hvalid]
      rfl
    rw [byte_of_lt (hchar.symm ▸ hlow), hchar]
    exact UInt8.ofNat_toNat
  case isFalse hupper =>
    have hi : b.toNat - 0x80 < upperHalf.length := by
      rw [length_upperHalf]
      omega
    have hindex : 0x80 + (b.toNat - 0x80) = b.toNat := by omega
    rw [List.getD_eq_getElem _ _ hi, byte_of_getElem? (List.getElem?_eq_getElem hi), hindex]
    exact UInt8.ofNat_toNat

theorem char_byte (c : Char) : char (byte c) = if OnPage c then c else '?' := by
  by_cases hlow : c.toNat < 0x80
  · have hbyte : (byte c).toNat = c.toNat := by
      rw [byte_of_lt hlow, UInt8.toNat_ofNat', Nat.mod_eq_of_lt (by omega)]
    unfold char
    rw [hbyte, if_pos hlow, Char.ofNat_toNat, if_pos (.inl hlow)]
  · by_cases hupper : c ∈ upperHalf
    · obtain ⟨i, hi⟩ := List.mem_iff_getElem?.mp hupper
      obtain ⟨hlt, hget⟩ := List.getElem?_eq_some_iff.mp hi
      have hbyte : (byte c).toNat = 0x80 + i := by
        rw [byte_of_getElem? hi, toNat_upper (length_upperHalf ▸ hlt)]
      unfold char
      rw [hbyte, if_neg (by omega), Nat.add_sub_cancel_left, List.getD_eq_getElem _ _ hlt, hget,
        if_pos (.inr hupper)]
    · have hoff : ¬ OnPage c := not_or.mpr ⟨hlow, hupper⟩
      rw [byte_of_not_onPage hoff, if_neg hoff]
      rfl

theorem char_byte_eq_self_iff (c : Char) : char (byte c) = c ↔ OnPage c := by
  rw [char_byte]
  split
  case isTrue h => exact iff_of_true rfl h
  case isFalse h =>
    refine iff_of_false (fun heq => h ?_) h
    rw [← heq]
    exact .inl (by decide)

/-! ### Texts and byte strings -/

theorem toList_decode_encode (s : String) :
    (decode (encode s)).toList = s.toList.map fun c => char (byte c) := by
  unfold decode encode
  rw [String.toList_ofList, List.map_map]
  rfl

theorem decode_encode (s : String) :
    decode (encode s) = s.map fun c => if OnPage c then c else '?' := by
  rw [← String.toList_inj, toList_decode_encode, String.toList_map]
  exact List.map_congr_left fun c _ => char_byte c

theorem decode_encode_eq_self_iff (s : String) :
    decode (encode s) = s ↔ ∀ c ∈ s.toList, OnPage c := by
  rw [← String.toList_inj, toList_decode_encode]
  conv_lhs => rhs; rw [← List.map_id s.toList]
  rw [List.map_inj_left]
  exact forall₂_congr fun c _ => char_byte_eq_self_iff c

theorem encode_decode (bs : List UInt8) : encode (decode bs) = bs := by
  unfold encode decode
  rw [String.toList_ofList, List.map_map]
  exact (List.map_congr_left fun b _ => byte_char b).trans (List.map_id bs)

/-- A character of ASCII other than the question mark is sent just where it stands. -/
theorem getElem?_encode_iff (s : String) (i : Nat) (hc : c.toNat < 0x80) (hq : c ≠ '?') :
    (encode s)[i]? = some (byte c) ↔ s.toList[i]? = some c := by
  unfold encode
  rw [List.getElem?_map, Option.map_eq_some_iff]
  simp only [byte_eq_byte_iff _ hc hq, exists_eq_right]

/-- A text takes a byte for each character, and the bytes of a text in two parts are those of the parts. Reading
them back replaces the characters that are not on the page by question marks, and so gives the text exactly
if all its characters are; every byte string is written as it was read. The escape character and the line
feed are sent just where they stand in the text. -/
theorem texts_and_bytes_correspond :
    (∀ s : String, (encode s).length = s.length) ∧
    (∀ s t : String, encode (s ++ t) = encode s ++ encode t) ∧
    (∀ s : String, decode (encode s) = s.map fun c => if OnPage c then c else '?') ∧
    (∀ s : String, decode (encode s) = s ↔ ∀ c ∈ s.toList, OnPage c) ∧
    (∀ bs : List UInt8, encode (decode bs) = bs) ∧
    ∀ (s : String) (i : Nat),
      ((encode s)[i]? = some 0x1B ↔ s.toList[i]? = some '\x1b') ∧
      ((encode s)[i]? = some 0x0A ↔ s.toList[i]? = some '\n') := by
  refine ⟨fun s => ?_, encode_append, decode_encode, decode_encode_eq_self_iff, encode_decode,
    fun s i => ⟨?_, ?_⟩⟩
  · rw [length_encode, String.length_toList]
  · exact getElem?_encode_iff (c := '\x1b') s i (by decide) (by decide)
  · exact getElem?_encode_iff (c := '\n') s i (by decide) (by decide)

/-- Characters that look like one of the page are not on it, and a no-break space is. -/
example : decode (encode "µ\u03bc ßβ \u00a0☕") = "µ? ß? \u00a0?" := by decide +kernel

end Receipt.Printer.CodePage
