/-!
# The old page of characters

In texts of bytes that are not known to be anything else, a byte of seven bits is the character of its code, and
the others are the characters of a fixed page.
-/

namespace DegreeGraph.Text.CodePage

/-- The characters of the bytes from 128 on; the last one is a space at which no line is broken. -/
def upper : Array Char :=
  ("ÇüéâäàåçêëèïîìÄÅÉæÆôöòûùÿÖÜ¢£¥₧ƒ" ++
    "áíóúñÑªº¿⌐¬½¼¡«»░▒▓│┤╡╢╖╕╣║╗╝╜╛┐" ++
    "└┴┬├─┼╞╟╚╔╩╦╠═╬╧╨╤╥╙╘╒╓╫╪┘┌█▄▌▐▀" ++
    "αßΓπΣσµτΦΘΩδ∞φε∩≡±≥≤⌠⌡÷≈°∙·√ⁿ²■").toList.toArray.push '\u00a0'

/-- The character of a byte. -/
def charOf (b : UInt8) : Char :=
  if b < 128 then Char.ofNat b.toNat else upper.getD (b.toNat - 128) ' '

/-- The text of some bytes. -/
def decode (bytes : List UInt8) : String := String.ofList (bytes.map charOf)

end DegreeGraph.Text.CodePage
