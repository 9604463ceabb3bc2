/-!
# Code page 437

The character set of names in old zip files: ASCII, and 128 further characters in a fixed order.
-/
namespace Trajectory.CodePage437

/-- The characters of the bytes from 128 on. -/
def upper : List Char :=
  ("ÇüéâäàåçêëèïîìÄÅÉæÆôöòûùÿÖÜ¢£¥₧ƒáíóúñÑªº¿⌐¬½¼¡«»" ++
    "░▒▓│┤╡╢╖╕╣║╗╝╜╛┐└┴┬├─┼╞╟╚╔╩╦╠═╬╧╨╤╥╙╘╒╓╫╪┘┌█▄▌▐▀" ++
    "αßΓπΣσµτΦΘΩδ∞φε∩≡±≥≤⌠⌡÷≈°∙·√ⁿ²■\u00a0").toList

/-- The character of a byte. -/
def char (byte : UInt8) : Char :=
  if byte < 128 then Char.ofNat byte.toNat else upper.getD (byte.toNat - 128) ' '

end Trajectory.CodePage437
