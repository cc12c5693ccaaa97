import PointFree.Value

/-!
Contract: the names of functions.

A name spells out how a function was made: its glyph, or the names of its parts
around the glyph of their modifier. A constant bears the text its content had
when it was made, and a block its number.
-/

namespace PointFree

mutual

def Function.name : Function → String
  | .mk _ form => form.name
termination_by structural function => function

def Form.name : Form → String
  | .primitive primitive => String.singleton primitive.glyph
  | .constant _ written => written ++ "˙"
  | .atop left right => "(" ++ left.name ++ right.name ++ ")"
  | .fork left middle right => "(" ++ left.name ++ middle.name ++ right.name ++ ")"
  | .over left right => "(" ++ left.name ++ "○" ++ right.name ++ ")"
  | .under left right => "(" ++ left.name ++ "⌾" ++ right.name ++ ")"
  | .rank left right => "(" ++ left.name ++ "⎉" ++ right.name ++ ")"
  | .before left right => "(" ++ left.name ++ "⊸" ++ right.name ++ ")"
  | .after left right => "(" ++ left.name ++ "⟜" ++ right.name ++ ")"
  | .swap operand => operand.name ++ "˜"
  | .each operand => operand.name ++ "¨"
  | .table operand => operand.name ++ "⌜"
  | .cells operand => operand.name ++ "˘"
  | .fold operand => operand.name ++ "´"
  | .scan operand => operand.name ++ "\x60"
  | .inverse operand => operand.name ++ "⁼"
  | .block _ block _ => "\x7bblock " ++ toString block ++ "\x7d"
termination_by structural form => form

end

end PointFree
