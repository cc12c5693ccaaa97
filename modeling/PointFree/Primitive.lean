/-!
Contract: the primitive functions and their glyphs.

`Primitive.all` lists them in the order of the standard vocabulary, and
`ofGlyph?` inverts `glyph`. What a primitive computes is said in
`PointFree.Primitive.Forms`.
-/

namespace PointFree

inductive Primitive where
  | add
  | subtract
  | multiply
  | divide
  | power
  | root
  | floor
  | ceiling
  | modulus
  | not
  | and
  | or
  | equals
  | notEquals
  | less
  | greater
  | lessOrEqual
  | greaterOrEqual
  | right
  | left
  | shape
  | depth
  | reshape
  | range
  | reverse
  | pick
  | select
  | take
  | drop
  | join
  | couple
  | pair
  | replicate
  | assert
deriving DecidableEq, Repr

namespace Primitive

def all : List Primitive :=
  [.add, .subtract, .multiply, .divide, .power, .root, .floor, .ceiling, .modulus,
   .not, .and, .or, .equals, .notEquals, .less, .greater, .lessOrEqual, .greaterOrEqual,
   .right, .left, .shape, .depth, .reshape, .range, .reverse, .pick, .select, .take, .drop,
   .join, .couple, .pair, .replicate, .assert]

def glyph : Primitive → Char
  | .add => '+'
  | .subtract => '-'
  | .multiply => '×'
  | .divide => '÷'
  | .power => '⋆'
  | .root => '√'
  | .floor => '⌊'
  | .ceiling => '⌈'
  | .modulus => '|'
  | .not => '¬'
  | .and => '∧'
  | .or => '∨'
  | .equals => '='
  | .notEquals => '≠'
  | .less => '<'
  | .greater => '>'
  | .lessOrEqual => '≤'
  | .greaterOrEqual => '≥'
  | .right => '⊢'
  | .left => '⊣'
  | .shape => '≢'
  | .depth => '≡'
  | .reshape => '⥊'
  | .range => '↕'
  | .reverse => '⌽'
  | .pick => '⊑'
  | .select => '⊏'
  | .take => '↑'
  | .drop => '↓'
  | .join => '∾'
  | .couple => '≍'
  | .pair => '⋈'
  | .replicate => '/'
  | .assert => '!'

/-- The word for the primitive in reports. -/
def label : Primitive → String
  | .add => "add"
  | .subtract => "subtract"
  | .multiply => "multiply"
  | .divide => "divide"
  | .power => "power"
  | .root => "root"
  | .floor => "floor"
  | .ceiling => "ceiling"
  | .modulus => "modulus"
  | .not => "not"
  | .and => "and"
  | .or => "or"
  | .equals => "equals"
  | .notEquals => "not-equals"
  | .less => "less"
  | .greater => "greater"
  | .lessOrEqual => "less-or-equal"
  | .greaterOrEqual => "greater-or-equal"
  | .right => "right"
  | .left => "left"
  | .shape => "shape"
  | .depth => "depth"
  | .reshape => "reshape"
  | .range => "range"
  | .reverse => "reverse"
  | .pick => "pick"
  | .select => "select"
  | .take => "take"
  | .drop => "drop"
  | .join => "join"
  | .couple => "couple"
  | .pair => "pair"
  | .replicate => "replicate"
  | .assert => "assert"

def ofGlyph? (glyph : Char) : Option Primitive :=
  all.find? fun primitive => primitive.glyph == glyph

theorem mem_all (primitive : Primitive) : primitive ∈ all := by
  cases primitive <;> decide

theorem ofGlyph?_glyph (primitive : Primitive) : ofGlyph? primitive.glyph = some primitive := by
  cases primitive <;> decide

end Primitive

end PointFree
