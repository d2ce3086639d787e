/-!
# Code page 437

The printer knows 256 characters. The lower half of the page is ASCII; the upper half is the table
below. `encode` writes one byte for each character and a question mark for a character that is not
on the page; `decode` reads bytes back.
-/

namespace Receipt.Printer.CodePage

/-- The characters of the bytes `0x80` to `0xFF`, in order, sixteen to a row. -/
def upperHalf : List Char :=
  "ÇüéâäàåçêëèïîìÄÅ".toList ++
  "ÉæÆôöòûùÿÖÜ¢£¥₧ƒ".toList ++
  "áíóúñÑªº¿⌐¬½¼¡«»".toList ++
  "░▒▓│┤╡╢╖╕╣║╗╝╜╛┐".toList ++
  "└┴┬├─┼╞╟╚╔╩╦╠═╬╧".toList ++
  "╨╤╥╙╘╒╓╫╪┘┌█▄▌▐▀".toList ++
  "αßΓπΣσµτΦΘΩδ∞φε∩".toList ++
  "≡±≥≤⌠⌡÷≈°∙·√ⁿ²■\u00a0".toList

/-- The byte printed for a character that is not on the page. -/
def substitute : UInt8 := 0x3F

/-- The byte of a character, if the page has the character. -/
def byte? (c : Char) : Option UInt8 :=
  if c.toNat < 0x80 then some c.toNat.toUInt8
  else (upperHalf.idxOf? c).map fun i => (0x80 + i).toUInt8

def byte (c : Char) : UInt8 :=
  (byte? c).getD substitute

def char (b : UInt8) : Char :=
  if b.toNat < 0x80 then Char.ofNat b.toNat
  else upperHalf.getD (b.toNat - 0x80) '?'

/-- The bytes of a text, one for each character. -/
def encode (s : String) : List UInt8 :=
  s.toList.map byte

def decode (bs : List UInt8) : String :=
  String.ofList (bs.map char)

@[simp] theorem length_encode (s : String) : (encode s).length = s.toList.length := by
  simp [encode]

@[simp] theorem encode_append (s t : String) : encode (s ++ t) = encode s ++ encode t := by
  simp [encode]

end Receipt.Printer.CodePage
