import PointFree.Function.Call
import PointFree.Proofs.Settling

/-!
Contract: declared inverses that undo.

One action takes back another if it restores the argument wherever the other one succeeds. A
function is lawful if its inverse takes back each of its calls, and each of its calls takes back the
inverse, with the same left argument. Which values count as the same is a relation of its own:
equality asks for the very argument, and a coarser relation can leave open how an array came about.
An action that takes back another has to do so for every value that counts as its result, so actions
that are taken back can follow one another, and are then taken back in the opposite order.

What can be undone declares an inverse, since a function without one refuses. The inverse that
computing under a function declares takes back its prefix calls alone: an infix call gives the left
argument to the first step and not to the last one, and the declared inverse does the same.
-/

namespace PointFree

variable {H : Type} {calling : Call H} {held : Memory H → Prop} {alike : Value → Value → Prop}

/-! ### Actions that take back others -/

/-- Wherever the first action succeeds, the second one restores its argument from whatever counts as
the result. -/
def TakesBack (calling : Call H) (held : Memory H → Prop) (alike : Value → Value → Prop)
    (act back : Value → Action H Value) : Prop :=
  ∀ right, alike right right → ∀ memory found after, held memory →
    act right calling memory = (.ok found, after) →
    held after ∧ alike found found ∧
      ∀ found', alike found found' → (back found').Settles calling held alike (some right)

section Actions

variable {act back act' back' : Value → Action H Value}

/-- What is done last is taken back first. -/
theorem TakesBack.comp (first : TakesBack calling held alike act back)
    (second : TakesBack calling held alike act' back') :
    TakesBack calling held alike (fun right => act right >>= act')
      (fun found => back' found >>= back) := by
  intro right isRight memory found after holds ended
  obtain ⟨between, middle, begun, ended⟩ := Action.bind_eq_ok.1 ended
  obtain ⟨kept, isBetween, restore⟩ := first right isRight memory between middle holds begun
  obtain ⟨kept, isFound, restore'⟩ := second between isBetween middle found after kept ended
  refine ⟨kept, isFound, fun found' same => ?_⟩
  have ends : (back' found' >>= back).Settles calling held alike
      ((some between).bind fun _ => some right) := by
    refine (restore' found' same).bind fun foretold result isForetold agrees => ?_
    cases isForetold
    exact restore result agrees
  exact ends

/-- It is enough to know how the argument is restored where there was a result. -/
theorem TakesBack.of_succeeds (takes : TakesBack calling held alike act back)
    (same : ∀ right memory found after, alike right right → held memory →
      act right calling memory = (.ok found, after) → ∀ found', back' found' = back found') :
    TakesBack calling held alike act back' := by
  intro right isRight memory found after holds ended
  obtain ⟨kept, isFound, restore⟩ := takes right isRight memory found after holds ended
  refine ⟨kept, isFound, fun found' agrees => ?_⟩
  rw [same right memory found after isRight holds ended]
  exact restore found' agrees

end Actions

/-! ### Lawful functions -/

namespace Function

variable [Blocks H]

/-- Calls and undone calls take back one another, in the prefix and in the infix form. -/
def IsLawful (calling : Call H) (held : Memory H → Prop) (alike : Value → Value → Prop)
    (function : Function) : Prop :=
  ∀ direction left, (∀ other, left = some other → alike other other) →
    TakesBack calling held alike (fun right => function.apply direction right left)
      (fun right => function.apply direction.turn right left)

variable {function outer inner work guise operand : Function} {stamp : Nat}
variable {right found : Value} {left : Option Value} {memory after : Memory H}

/-- Undoing succeeds only where an inverse is declared. -/
theorem hasInverse_of_undo
    (ended : function.apply .backward right left calling memory = (.ok found, after)) :
    function.hasInverse = true := by
  have declared {inverse : Bool} {action : Action H Value} {fault : Fault}
      (ended : (if inverse then action else Action.refuse fault) calling memory =
        (.ok found, after)) : inverse = true := by
    by_contra missing
    rw [if_neg missing] at ended
    cases ended
  obtain ⟨stamp, form⟩ := function
  cases form with
  | primitive primitive => exact declared ended
  | atop outer inner => exact declared ended
  | under work guise => exact declared ended
  | each operand => exact declared ended
  | inverse operand => rfl
  | _ => cases ended

/-- A lawful function that succeeds, in either direction, declares an inverse. -/
theorem IsLawful.hasInverse {direction : Direction}
    (lawful : function.IsLawful calling held alike)
    (isLeft : ∀ other, left = some other → alike other other) (isRight : alike right right)
    (holds : held memory)
    (ended : function.apply direction right left calling memory = (.ok found, after)) :
    function.hasInverse = true := by
  cases direction with
  | backward => exact hasInverse_of_undo ended
  | forward =>
      obtain ⟨kept, isFound, restore⟩ :=
        lawful .forward left isLeft right isRight memory found after holds ended
      obtain ⟨_, _, undone, _⟩ := (restore found isFound).ok kept
      exact hasInverse_of_undo undone

/-! ### One function after the other -/

theorem undo_atop (outerInverse : outer.hasInverse = true) (innerInverse : inner.hasInverse = true)
    (right : Value) (left : Option Value) :
    ((mk stamp (.atop outer inner)).apply .backward right left : Action H Value) = (do
      let between ← outer.apply .backward right none
      inner.apply .backward between left) :=
  if_pos (by rw [outerInverse, innerInverse]; rfl)

theorem IsLawful.atop (outerLawful : outer.IsLawful calling held alike)
    (innerLawful : inner.IsLawful calling held alike) :
    (mk stamp (.atop outer inner)).IsLawful calling held alike := by
  intro direction left isLeft
  have noLeft : ∀ other, none = some other → alike other other := nofun
  cases direction with
  | forward =>
      refine ((innerLawful .forward left isLeft).comp
        (outerLawful .forward none noLeft)).of_succeeds ?_
      intro right memory found after isRight holds ended found'
      obtain ⟨between, middle, begun, ended⟩ := Action.bind_eq_ok.1 ended
      obtain ⟨kept, isBetween, _⟩ :=
        innerLawful .forward left isLeft right isRight memory between middle holds begun
      exact undo_atop (outerLawful.hasInverse noLeft isBetween kept ended)
        (innerLawful.hasInverse isLeft isRight holds begun) found' left
  | backward =>
      intro right isRight memory found after holds ended
      have inverses : (outer.hasInverse && inner.hasInverse) = true := hasInverse_of_undo ended
      rw [Bool.and_eq_true] at inverses
      refine ((outerLawful .backward none noLeft).comp (innerLawful .backward left isLeft)) right
        isRight memory found after holds ?_
      rw [← ended]
      exact (congrFun (congrFun (undo_atop inverses.1 inverses.2 right left) calling) memory).symm

/-- The inverse as a function of its own has the function for an inverse. -/
theorem IsLawful.inverse (lawful : operand.IsLawful calling held alike) :
    (mk stamp (.inverse operand)).IsLawful calling held alike :=
  fun direction left isLeft => lawful direction.turn left isLeft

/-! ### Computing under a function -/

theorem undo_under (inverse : work.hasInverse = true) (right : Value) (left : Option Value) :
    ((mk stamp (.under work guise)).apply .backward right left : Action H Value) = (do
      let inside ← guise.apply .forward right left
      let worked ← work.apply .backward inside none
      guise.apply .backward worked none) :=
  if_pos inverse

/-- What takes back computing under a function gives the left argument to its last step. -/
theorem IsLawful.under_takesBack (workLawful : work.IsLawful calling held alike)
    (guiseLawful : guise.IsLawful calling held alike)
    (isLeft : ∀ other, left = some other → alike other other) :
    TakesBack calling held alike
      (fun right => (mk stamp (.under work guise)).apply .forward right left)
      (fun found => do
        let inside ← guise.apply .forward found none
        let worked ← work.apply .backward inside none
        guise.apply .backward worked left) := by
  have noLeft : ∀ other, none = some other → alike other other := nofun
  have later := (workLawful .forward none noLeft).comp (guiseLawful .backward none noLeft)
  refine ((guiseLawful .forward left isLeft).comp later).of_succeeds ?_
  intro right memory found after isRight holds ended found'
  exact (bind_assoc ..).symm

/-- The declared inverse of computing under a function takes back the prefix calls. -/
theorem IsLawful.under_prefix (workLawful : work.IsLawful calling held alike)
    (guiseLawful : guise.IsLawful calling held alike) :
    TakesBack calling held alike
      (fun right => (mk stamp (.under work guise)).apply .forward right none)
      (fun found => (mk stamp (.under work guise)).apply .backward found none) := by
  have noLeft : ∀ other, none = some other → alike other other := nofun
  refine (workLawful.under_takesBack guiseLawful noLeft).of_succeeds ?_
  intro right memory found after isRight holds ended found'
  obtain ⟨inside, between, begun, ended⟩ := Action.bind_eq_ok.1 ended
  obtain ⟨worked, _, ended, _⟩ := Action.bind_eq_ok.1 ended
  obtain ⟨kept, isInside, _⟩ :=
    guiseLawful .forward none noLeft right isRight memory inside between holds begun
  exact undo_under (workLawful.hasInverse noLeft isInside kept ended) found' none

end Function

end PointFree
