import PointFree.Primitive
import PointFree.Tree

/-!
Contract: the parts of a statement before roles are assigned.

An atom is a literal, a name, a glyph, or a bracketed group of atoms. A
statement is a row of atoms with its place in the source.
-/

namespace PointFree

/-- Whether a word stands for a value or for what is done to values. -/
inductive Role where
  | data
  | function
deriving DecidableEq, Repr

mutual

inductive Atom where
  | number (number : Float)
  | character (letter : Char)
  | string (text : String)
  | name (spelling : String)
  | implicit (variant : Implicit) (role : Role)
  /-- A name that the host has registered. -/
  | system (spelling : String)
  | primitive (primitive : Primitive)
  | oneModifier (modifier : OneModifier)
  | twoModifier (modifier : TwoModifier)
  | paren (atoms : List Atom)
  | list (elements : List (List Atom))
  | strand (atoms : List Atom)
  | block (statements : List RawStatement)
  | define
  | assign
  | guard

inductive RawStatement where
  | mk (atoms : List Atom) (span : Span)

end

end PointFree
