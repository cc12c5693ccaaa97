import PointFree.Text.CodePoint

/-!
Contract: blank characters, the Unicode property White_Space, and the trimming
of a line by it.
-/

namespace PointFree.Text

def blankRanges : List Range := [
  (0x9, 0xD), (0x20, 0x20), (0x85, 0x85), (0xA0, 0xA0), (0x1680, 0x1680),
  (0x2000, 0x200A), (0x2028, 0x2029), (0x202F, 0x202F), (0x205F, 0x205F), (0x3000, 0x3000)]

def isBlank (letter : Char) : Bool :=
  inRanges blankRanges letter.toNat

/-- The characters between the first and the last one that is not blank. -/
def trim (text : String) : String :=
  let leading := text.toList.dropWhile isBlank
  String.ofList (leading.reverse.dropWhile isBlank).reverse

end PointFree.Text
