import Receipt.Printer.CodePage

/-!
# Bytes of the lower half of the code page

A character outside ASCII takes a byte of the upper half or the question mark. Every other byte below
`0x80` therefore comes from the ASCII character of the same number and from no other character, control
characters included. Nothing is said here about the characters of the upper half.
-/

namespace Receipt.Printer.CodePage

theorem length_upperHalf : upperHalf.length = 128 := by decide +kernel

theorem byte_of_lt {c : Char} (h : c.toNat < 0x80) : byte c = c.toNat.toUInt8 := by
  unfold byte byte?
  rw [if_pos h, Option.getD_some]

/-- The index of a character of the upper half never carries into the lower one. -/
theorem byte_of_not_lt {c : Char} (h : ¬ c.toNat < 0x80) :
    byte c = substitute ∨ 0x80 ≤ (byte c).toNat := by
  unfold byte byte?
  rw [if_neg h]
  cases hi : upperHalf.idxOf? c with
  | none => exact .inl rfl
  | some i =>
    right
    obtain ⟨hlt, -⟩ := List.idxOf?_eq_some_iff.mp hi
    rw [length_upperHalf] at hlt
    simp only [Option.map_some, Option.getD_some, UInt8.toNat_ofNat', Nat.reducePow]
    omega

theorem byte_eq_iff (c : Char) {b : UInt8} (hb : b.toNat < 0x80) (hs : b ≠ substitute) :
    byte c = b ↔ c.toNat = b.toNat := by
  by_cases hc : c.toNat < 0x80
  · rw [byte_of_lt hc, ← UInt8.toNat_inj, UInt8.toNat_ofNat', Nat.mod_eq_of_lt (by omega)]
  · constructor
    · intro h
      rcases byte_of_not_lt hc with hsub | hhigh
      · exact absurd (h.symm.trans hsub) hs
      · rw [h] at hhigh
        omega
    · intro h
      omega

/-- No other character is sent as an ASCII character other than the question mark. -/
theorem byte_eq_byte_iff (x : Char) {c : Char} (hc : c.toNat < 0x80) (hq : c ≠ '?') :
    byte x = byte c ↔ x = c := by
  constructor
  · intro h
    have hb : (byte c).toNat = c.toNat := by
      rw [byte_of_lt hc, UInt8.toNat_ofNat', Nat.mod_eq_of_lt (by omega)]
    have hs : byte c ≠ substitute := by
      intro hs
      rw [hs] at hb
      exact hq (Char.toNat_inj.mp hb.symm)
    have hx := (byte_eq_iff x (by omega) hs).mp h
    exact Char.toNat_inj.mp (hx.trans hb)
  · intro h
    rw [h]

/-- A byte below `0x80` other than the question mark is sent only where its character stands. -/
theorem mem_encode_iff (s : String) {c : Char} (hc : c.toNat < 0x80) (hq : c ≠ '?') :
    byte c ∈ encode s ↔ c ∈ s.toList := by
  unfold encode
  rw [List.mem_map]
  constructor
  · intro hm
    obtain ⟨x, hx, h⟩ := hm
    rw [← (byte_eq_byte_iff x hc hq).mp h]
    exact hx
  · intro h
    exact ⟨c, h, rfl⟩

end Receipt.Printer.CodePage
