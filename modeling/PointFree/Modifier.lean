/-!
Contract: the modifiers and their glyphs.

A one-modifier stands after its operand and a two-modifier between its two.
Their places in `all` are their codes in compiled programs.
-/

namespace PointFree

inductive OneModifier where
  | constant
  | swap
  | each
  | table
  | cells
  | fold
  | scan
  | undo
deriving DecidableEq, Repr

namespace OneModifier

def all : List OneModifier :=
  [.constant, .swap, .each, .table, .cells, .fold, .scan, .undo]

def glyph : OneModifier → Char
  | .constant => '˙'
  | .swap => '˜'
  | .each => '¨'
  | .table => '⌜'
  | .cells => '˘'
  | .fold => '´'
  | .scan => '\x60'
  | .undo => '⁼'

def code : OneModifier → Nat
  | .constant => 0
  | .swap => 1
  | .each => 2
  | .table => 3
  | .cells => 4
  | .fold => 5
  | .scan => 6
  | .undo => 7

def ofGlyph? (glyph : Char) : Option OneModifier :=
  all.find? fun modifier => modifier.glyph == glyph

def ofCode? (code : Nat) : Option OneModifier :=
  all[code]?

theorem ofGlyph?_glyph (modifier : OneModifier) : ofGlyph? modifier.glyph = some modifier := by
  cases modifier <;> decide

theorem ofCode?_code (modifier : OneModifier) : ofCode? modifier.code = some modifier := by
  cases modifier <;> decide

end OneModifier

inductive TwoModifier where
  | atop
  | over
  | under
  | rank
  | before
  | after
deriving DecidableEq, Repr

namespace TwoModifier

def all : List TwoModifier :=
  [.atop, .over, .under, .rank, .before, .after]

def glyph : TwoModifier → Char
  | .atop => '∘'
  | .over => '○'
  | .under => '⌾'
  | .rank => '⎉'
  | .before => '⊸'
  | .after => '⟜'

def code : TwoModifier → Nat
  | .atop => 0
  | .over => 1
  | .under => 2
  | .rank => 3
  | .before => 4
  | .after => 5

def ofGlyph? (glyph : Char) : Option TwoModifier :=
  all.find? fun modifier => modifier.glyph == glyph

def ofCode? (code : Nat) : Option TwoModifier :=
  all[code]?

theorem ofGlyph?_glyph (modifier : TwoModifier) : ofGlyph? modifier.glyph = some modifier := by
  cases modifier <;> decide

theorem ofCode?_code (modifier : TwoModifier) : ofCode? modifier.code = some modifier := by
  cases modifier <;> decide

end TwoModifier

end PointFree
