import PointFree.Primitive.Cellwise
import PointFree.Primitive.Scalar
import PointFree.Value.Pervasion

/-!
Contract: what each primitive computes.

A primitive has a form for one argument, a form for two, or both, and some
declare inverses. The inverse of a form for two arguments recovers its right
argument from the result and the left one.
-/

namespace PointFree.Primitive

variable {H : Type}

/-- What a form for one argument computes, over any heap. -/
abbrev Monadic := ∀ {H : Type}, Value → Action H Value

/-- What a form for two arguments computes. -/
abbrev Dyadic := ∀ {H : Type}, Value → Value → Action H Value

/-- A form for one argument, applied to each leaf. -/
def eachLeaf (rule : Value → Outcome Value) : Option Monadic :=
  some fun right => right.mapLeaves rule

/-- A form for two arguments, applied to each pair of leaves that meet. -/
def eachPair (rule : Value → Value → Outcome Value) : Option Dyadic :=
  some fun left right => left.zipLeaves rule right

def monad? : Primitive → Option Monadic
  | .add => eachLeaf .ok
  | .subtract => eachLeaf (Scalar.onNumber fun number => -number)
  | .multiply => eachLeaf (Scalar.onNumber Scalar.sign)
  | .divide => eachLeaf (Scalar.onNumber Scalar.reciprocal)
  | .power => eachLeaf (Scalar.onNumber Float.exp)
  | .root => eachLeaf (Scalar.onNumber Float.sqrt)
  | .floor => eachLeaf (Scalar.onNumber Float.floor)
  | .ceiling => eachLeaf (Scalar.onNumber Float.ceil)
  | .modulus => eachLeaf (Scalar.onNumber Float.abs)
  | .not => eachLeaf (Scalar.onNumber Scalar.complement)
  | .and | .or | .lessOrEqual | .greaterOrEqual => none
  | .equals => some Cellwise.rank
  | .notEquals => some Cellwise.length
  | .less => some Cellwise.enclose
  | .greater => some Cellwise.mergeElements
  | .right | .left => some fun right => return right
  | .shape => some Cellwise.shape
  | .depth => some Cellwise.depth
  | .reshape => some Cellwise.deshape
  | .range => some Cellwise.range
  | .reverse => some Cellwise.reverse
  | .pick => some Cellwise.first
  | .select => some Cellwise.firstCell
  | .take => some Cellwise.prefixes
  | .drop => some Cellwise.suffixes
  | .join => some Cellwise.join
  | .couple => some Cellwise.solo
  | .pair => some Cellwise.enlist
  | .replicate => some Cellwise.indices
  | .assert => some Cellwise.assert

def dyad? : Primitive → Option Dyadic
  | .add => eachPair Scalar.add
  | .subtract => eachPair Scalar.subtract
  | .multiply => eachPair (Scalar.onNumbers fun left right => left * right)
  | .divide => eachPair (Scalar.onNumbers fun left right => left / right)
  | .power => eachPair (Scalar.onNumbers Float.pow)
  | .root => eachPair (Scalar.onNumbers Scalar.root)
  | .floor => eachPair (Scalar.onNumbers Scalar.minimum)
  | .ceiling => eachPair (Scalar.onNumbers Scalar.maximum)
  | .modulus => eachPair (Scalar.onNumbers Scalar.modulus)
  | .not => eachPair (Scalar.onNumbers Scalar.extent)
  | .and => eachPair (Scalar.onNumbers fun left right => left * right)
  | .or => eachPair (Scalar.onNumbers Scalar.disjunction)
  | .equals => eachPair Scalar.equals
  | .notEquals => eachPair Scalar.differs
  | .less => eachPair (Scalar.compares Ordering.isLT)
  | .greater => eachPair (Scalar.compares Ordering.isGT)
  | .lessOrEqual => eachPair (Scalar.compares Ordering.isLE)
  | .greaterOrEqual => eachPair (Scalar.compares Ordering.isGE)
  | .right => some fun _ right => return right
  | .left => some fun left _ => return left
  | .shape => some Cellwise.differs
  | .depth => some Cellwise.equals
  | .reshape => some Cellwise.reshape
  | .range => none
  | .reverse => some Cellwise.rotate
  | .pick => some Cellwise.pick
  | .select => some Cellwise.select
  | .take => some Cellwise.take
  | .drop => some Cellwise.drop
  | .join => some Cellwise.joinTo
  | .couple => some Cellwise.couple
  | .pair => some Cellwise.pair
  | .replicate => some Cellwise.replicate
  | .assert => some Cellwise.assertSaying

def monadInverse? : Primitive → Option Monadic
  | .add => eachLeaf .ok
  | .subtract => eachLeaf (Scalar.onNumber fun number => -number)
  | .divide => eachLeaf (Scalar.onNumber Scalar.reciprocal)
  | .power => eachLeaf (Scalar.onNumber Float.log)
  | .root => eachLeaf (Scalar.onNumber Scalar.square)
  | .not => eachLeaf (Scalar.onNumber Scalar.complement)
  | .right => some fun right => return right
  | .reverse => some Cellwise.reverse
  | _ => none

def dyadInverse? : Primitive → Option Dyadic
  | .add => eachPair Scalar.unadd
  | .subtract => eachPair Scalar.subtract
  | .multiply => eachPair (Scalar.onNumbers fun left right => right / left)
  | .divide => eachPair (Scalar.onNumbers fun left right => left / right)
  | .power => eachPair (Scalar.onNumbers Scalar.logarithm)
  | .root => eachPair (Scalar.onNumbers fun degree number => Float.pow number degree)
  | .not => eachPair (Scalar.onNumbers Scalar.extent)
  | .right => some fun _ right => return right
  | .reverse => some Cellwise.rotateBack
  | _ => none

def isInvertible (primitive : Primitive) : Bool :=
  primitive.monadInverse?.isSome || primitive.dyadInverse?.isSome

/-- The form that fits the arguments at hand. -/
def dispatch (primitive : Primitive) (monad : Option Monadic)
    (dyad : Option Dyadic) (right : Value) : Option Value → Action H Value
  | none =>
      match monad with
      | some rule => rule right
      | none => Action.refuse (.noMonad primitive.glyph)
  | some other =>
      match dyad with
      | some rule => rule other right
      | none => Action.refuse (.noDyad primitive.glyph)

def apply (primitive : Primitive) (right : Value) (left : Option Value) : Action H Value :=
  primitive.dispatch primitive.monad? primitive.dyad? right left

def applyInverse (primitive : Primitive) (right : Value) (left : Option Value) : Action H Value :=
  primitive.dispatch primitive.monadInverse? primitive.dyadInverse? right left

/-- The form for diagnostics. -/
def debugText (primitive : Primitive) : String :=
  "BuiltinOp \x7b glyph: " ++ Text.quoted primitive.glyph ++ ", name: \"" ++ primitive.label
    ++ "\", invertible: " ++ toString primitive.isInvertible ++ " \x7d"

end PointFree.Primitive
