import PointFree.Function.Call
import PointFree.Function.Making
import PointFree.Proofs.Correspondence.Action

/-!
Contract: where a call looks for an inverse that is missing.

A function that is undone, and one that another is computed under, declares an inverse when it is
made, or is refused. Then no call ever comes to a function that declares none, whatever would be
answered there. But one declaration stands for two forms: multiplication declares an inverse, and
has one for two arguments only. What is computed under it asks for the other one, and that is
noticed by the call and not before. No other primitive has one form without the other.
-/

namespace PointFree

theorem Action.bind_outcome_congr {H α β : Type} {outcome : Outcome α} {next next' : α → Action H β}
    (same : ∀ result, outcome = .ok result → next result = next' result) :
    (liftM outcome >>= next) = liftM outcome >>= next' := by
  cases outcome with
  | error failure => rfl
  | ok result => exact same result rfl

/-! ### Operations that agree -/

namespace Operation

variable {H : Type} {operation operation' : Operation H} {beside : Bool}

/-- The two are the same on a left argument, or on none. -/
def AgreeOn (beside : Bool) (operation operation' : Operation H) : Prop :=
  ∀ (right : Value) (left : Option Value), left.isSome = beside →
    operation right left = operation' right left

theorem AgreeOn.alone (agree : AgreeOn false operation operation') (right : Value) :
    operation right none = operation' right none :=
  agree right none rfl

theorem AgreeOn.paired (agree : AgreeOn true operation operation') (right left : Value) :
    operation right (some left) = operation' right (some left) :=
  agree right (some left) rfl

theorem AgreeOn.each (agree : AgreeOn beside operation operation') :
    AgreeOn beside operation.each operation'.each := by
  rintro right (_ | left) rfl
  · simp only [Operation.each, eachElement, agree.alone]
  · simp only [Operation.each, eachAligned, agree.paired]

theorem AgreeOn.table (agree : AgreeOn beside operation operation') :
    AgreeOn beside operation.table operation'.table := by
  rintro right (_ | left) rfl
  · simp only [Operation.table, eachElement, agree.alone]
  · simp only [Operation.table, agree.paired]

theorem AgreeOn.fold (agree : AgreeOn true operation operation') :
    operation.fold = operation'.fold := by
  funext right left
  unfold Operation.fold
  simp only [agree.paired]

theorem AgreeOn.scan (agree : AgreeOn true operation operation') :
    operation.scan = operation'.scan := by
  have step : operation.scanStep = operation'.scanStep := by
    funext state cell
    unfold scanStep
    simp only [agree.paired]
  funext right left
  unfold Operation.scan
  rw [step]

/-- A left argument has a part for each cell, and none has none. -/
def Companion.isBeside : Companion → Bool
  | .whole left => left.isSome
  | .cells _ => true

theorem isBeside_of_companion {frame : Shape} {left : Option Value} {others : Companion}
    (found : companion frame left = .ok others) : others.isBeside = left.isSome := by
  unfold companion at found
  split at found
  · split at found
    · cases found
      rfl
    · split at found
      · cases found
        rfl
      · cases found
  · cases found
    rfl

theorem AgreeOn.cellAt (agree : AgreeOn beside operation operation') {others : Companion}
    (isBeside : others.isBeside = beside) (position : List Nat) (cell : Value) :
    (others.cellAt position >>= operation cell) = others.cellAt position >>= operation' cell := by
  cases others with
  | whole left => exact agree cell left isBeside
  | cells items =>
      subst isBeside
      simp only [Companion.cellAt, bind_assoc, pure_bind, agree.paired]

theorem AgreeOn.atRank (agree : AgreeOn beside operation operation') (asked : Int) :
    AgreeOn beside (operation.atRank asked) (operation'.atRank asked) := by
  intro right left isBeside
  unfold Operation.atRank
  simp only [agree right left isBeside]
  split
  · rfl
  · refine Action.bind_outcome_congr fun others found => ?_
    simp only [agree.cellAt ((isBeside_of_companion found).trans isBeside)]

theorem AgreeOn.cells (agree : AgreeOn beside operation operation') :
    AgreeOn beside operation.cells operation'.cells := by
  intro right left isBeside
  unfold Operation.cells
  rw [agree.atRank (-1) right left isBeside]

end Operation

/-! ### Calls that find what they look for -/

/-- What a call comes to where the inverse that it looks for is missing. -/
structure Fallback (H : Type) where
  /-- The function declares no inverse. -/
  undeclared : Form → Action H Value
  /-- The primitive declares one, for other arguments. -/
  formless : Primitive → Operation H

/-- The primitive has an inverse for these arguments. -/
def Primitive.inverts (primitive : Primitive) (beside : Bool) : Bool :=
  if beside then primitive.dyadInverse?.isSome else primitive.monadInverse?.isSome

section Calls

variable {H : Type} [Blocks H]

mutual

/-- A call that falls back where an inverse is missing. -/
def Function.applyElse (fallback : Fallback H) : Function → Direction → Operation H
  | .mk stamp form, direction, right, left => form.applyElse fallback stamp direction right left
termination_by structural function => function

def Form.applyElse (fallback : Fallback H) : Form → (stamp : Nat) → Direction → Operation H
  | .primitive primitive, _, .forward, right, left => primitive.apply right left
  | .constant content _, _, .forward, _, _ => return content
  | .atop outer inner, _, .forward, right, left => do
      let between ← inner.applyElse fallback .forward right left
      outer.applyElse fallback .forward between none
  | .fork before middle after, _, .forward, right, left => do
      let second ← after.applyElse fallback .forward right left
      let first ← before.applyElse fallback .forward right left
      middle.applyElse fallback .forward second (some first)
  | .over outer inner, _, .forward, right, left => do
      let second ← inner.applyElse fallback .forward right none
      match left with
      | none => outer.applyElse fallback .forward second none
      | some other => do
          let first ← inner.applyElse fallback .forward other none
          outer.applyElse fallback .forward second (some first)
  | .under work guise, _, .forward, right, left => do
      let inside ← guise.applyElse fallback .forward right left
      let worked ← work.applyElse fallback .forward inside none
      guise.applyElse fallback .backward worked none
  | .rank operand degree, _, .forward, right, left => do
      let asked ← degree.applyElse fallback .forward right left
      let rank ← asked.toInteger
      Operation.atRank (operand.applyElse fallback .forward) rank right left
  | .before early late, _, .forward, right, left => do
      let first ← early.applyElse fallback .forward (left.getD right) none
      late.applyElse fallback .forward right (some first)
  | .after late early, _, .forward, right, left => do
      let second ← early.applyElse fallback .forward right none
      late.applyElse fallback .forward second (some (left.getD right))
  | .swap operand, _, .forward, right, left =>
      operand.applyElse fallback .forward (left.getD right) (some right)
  | .each operand, _, .forward, right, left =>
      Operation.each (operand.applyElse fallback .forward) right left
  | .table operand, _, .forward, right, left =>
      Operation.table (operand.applyElse fallback .forward) right left
  | .cells operand, _, .forward, right, left =>
      Operation.cells (operand.applyElse fallback .forward) right left
  | .fold operand, _, .forward, right, left =>
      Operation.fold (operand.applyElse fallback .forward) right left
  | .scan operand, _, .forward, right, left =>
      Operation.scan (operand.applyElse fallback .forward) right left
  | .inverse operand, _, direction, right, left =>
      operand.applyElse fallback direction.turn right left
  | .block program block frame, stamp, .forward, right, left =>
      Blocks.enter program block frame (.mk stamp (.block program block frame)) right left
  | .primitive primitive, _, .backward, right, left =>
      if primitive.isInvertible then
        if primitive.inverts left.isSome then primitive.applyInverse right left
        else fallback.formless primitive right left
      else fallback.undeclared (.primitive primitive)
  | .atop outer inner, _, .backward, right, left =>
      if outer.hasInverse && inner.hasInverse then do
        let between ← outer.applyElse fallback .backward right none
        inner.applyElse fallback .backward between left
      else fallback.undeclared (.atop outer inner)
  | .under work guise, _, .backward, right, left =>
      if work.hasInverse then do
        let inside ← guise.applyElse fallback .forward right left
        let worked ← work.applyElse fallback .backward inside none
        guise.applyElse fallback .backward worked none
      else fallback.undeclared (.under work guise)
  | .each operand, _, .backward, right, left =>
      if operand.hasInverse then
        Operation.each (operand.applyElse fallback .backward) right left
      else fallback.undeclared (.each operand)
  | form, _, .backward, _, _ => fallback.undeclared form
termination_by structural form => form

end

end Calls

mutual

/-- The primitives that a call may ask for their inverse, and whether it does so with a left
argument. -/
def Function.asks : Function → Direction → (beside : Bool) → List (Primitive × Bool)
  | .mk _ form, direction, beside => form.asks direction beside
termination_by structural function => function

def Form.asks : Form → Direction → (beside : Bool) → List (Primitive × Bool)
  | .primitive primitive, .backward, beside => [(primitive, beside)]
  | .atop outer inner, .forward, beside => inner.asks .forward beside ++ outer.asks .forward false
  | .atop outer inner, .backward, beside =>
      outer.asks .backward false ++ inner.asks .backward beside
  | .fork before middle after, _, beside =>
      after.asks .forward beside ++ before.asks .forward beside ++ middle.asks .forward true
  | .over outer inner, _, beside => inner.asks .forward false ++ outer.asks .forward beside
  | .under work guise, direction, beside =>
      guise.asks .forward beside ++ work.asks direction false ++ guise.asks .backward false
  | .rank operand degree, _, beside => degree.asks .forward beside ++ operand.asks .forward beside
  | .before early late, _, _ | .after late early, _, _ =>
      early.asks .forward false ++ late.asks .forward true
  | .each operand, direction, beside => operand.asks direction beside
  | .table operand, _, beside | .cells operand, _, beside => operand.asks .forward beside
  | .swap operand, _, _ | .fold operand, _, _ | .scan operand, _, _ => operand.asks .forward true
  | .inverse operand, direction, beside => operand.asks direction.turn beside
  | _, _, _ => []
termination_by structural form => form

end

mutual

/-- What is undone in the function, and what is computed under, declares an inverse. -/
def Function.IsDeclared : Function → Prop
  | .mk _ form => form.IsDeclared
termination_by structural function => function

def Form.IsDeclared : Form → Prop
  | .under work guise => work.IsDeclared ∧ guise.IsDeclared ∧ guise.hasInverse = true
  | .inverse operand => operand.IsDeclared ∧ operand.hasInverse = true
  | .atop left right | .over left right | .rank left right | .before left right
  | .after left right => left.IsDeclared ∧ right.IsDeclared
  | .fork before middle after => before.IsDeclared ∧ middle.IsDeclared ∧ after.IsDeclared
  | .swap operand | .each operand | .table operand | .cells operand | .fold operand
  | .scan operand => operand.IsDeclared
  | .primitive _ | .constant _ _ | .block _ _ _ => True
termination_by structural form => form

end

section Calls

variable {H : Type} [Blocks H] {fallback : Fallback H}

open Operation (AgreeOn)

/-- Where these primitives have no inverse of the form that they are asked for, the fallback does
what they do. -/
def Fallback.Follows (fallback : Fallback H) (asked : List (Primitive × Bool)) : Prop :=
  ∀ ask ∈ asked, ask.1.isInvertible = true → ask.1.inverts ask.2 = false →
    fallback.formless ask.1 = ask.1.applyInverse

omit [Blocks H] in
theorem Fallback.follows_append {first second : List (Primitive × Bool)} :
    fallback.Follows (first ++ second) ↔ fallback.Follows first ∧ fallback.Follows second := by
  simp only [Follows, List.mem_append, or_imp, forall_and]

mutual

theorem Function.agreeOn_applyElse : (function : Function) → function.IsDeclared →
    (direction : Direction) → (direction = .backward → function.hasInverse = true) →
    (beside : Bool) → fallback.Follows (function.asks direction beside) →
    AgreeOn beside (function.applyElse fallback direction) (function.apply direction)
  | .mk stamp form, declared, direction, able, beside, follows => fun right left isBeside =>
      form.agreeOn_applyElse declared stamp direction able beside follows right left isBeside
termination_by structural function => function

theorem Form.agreeOn_applyElse : (form : Form) → form.IsDeclared → (stamp : Nat) →
    (direction : Direction) → (direction = .backward → form.hasInverse = true) →
    (beside : Bool) → fallback.Follows (form.asks direction beside) →
    AgreeOn beside (form.applyElse fallback stamp direction) (form.apply stamp direction)
  | .primitive primitive, _, _, .forward, _, _, _ => fun _ _ _ => rfl
  | .primitive primitive, _, _, .backward, able, beside, follows => fun right left isBeside => by
      have invertible : primitive.isInvertible = true := able rfl
      subst isBeside
      simp only [Form.applyElse, Form.apply, invertible, if_true]
      split
      · rfl
      · next lacks =>
          have none : primitive.inverts left.isSome = false := eq_false_of_ne_true lacks
          rw [follows _ (List.mem_singleton_self _) invertible none]
  | .constant .., _, _, .forward, _, _, _ => fun _ _ _ => rfl
  | .block .., _, _, .forward, _, _, _ => fun _ _ _ => rfl
  | .atop outer inner, declared, _, .forward, _, beside, follows => fun right left isBeside => by
      obtain ⟨inners, outers⟩ := Fallback.follows_append.1 follows
      have first := inner.agreeOn_applyElse declared.2 .forward nofun beside inners
      have second := outer.agreeOn_applyElse declared.1 .forward nofun false outers
      simp only [Form.applyElse, Form.apply, first right left isBeside, second.alone]
  | .atop outer inner, declared, _, .backward, able, beside, follows =>
      fun right left isBeside => by
      obtain ⟨outers, inners⟩ := Fallback.follows_append.1 follows
      have both : (outer.hasInverse && inner.hasInverse) = true := able rfl
      obtain ⟨ableOuter, ableInner⟩ := Bool.and_eq_true_iff.1 both
      have first := outer.agreeOn_applyElse declared.1 .backward (fun _ => ableOuter) false outers
      have second := inner.agreeOn_applyElse declared.2 .backward (fun _ => ableInner) beside inners
      have later (between : Value) := second between left isBeside
      simp only [Form.applyElse, Form.apply, both, if_true, first.alone, later]
  | .fork before middle after, declared, _, .forward, _, beside, follows =>
      fun right left isBeside => by
      obtain ⟨sides, middles⟩ := Fallback.follows_append.1 follows
      obtain ⟨afters, befores⟩ := Fallback.follows_append.1 sides
      have first := before.agreeOn_applyElse declared.1 .forward nofun beside befores
      have second := after.agreeOn_applyElse declared.2.2 .forward nofun beside afters
      have joint := middle.agreeOn_applyElse declared.2.1 .forward nofun true middles
      simp only [Form.applyElse, Form.apply, first right left isBeside, second right left isBeside,
        joint.paired]
  | .over outer inner, declared, _, .forward, _, beside, follows => fun right left isBeside => by
      obtain ⟨inners, outers⟩ := Fallback.follows_append.1 follows
      have each := inner.agreeOn_applyElse declared.2 .forward nofun false inners
      have joint := outer.agreeOn_applyElse declared.1 .forward nofun beside outers
      subst isBeside
      cases left with
      | none => simp only [Form.applyElse, Form.apply, each.alone, joint.alone]
      | some other => simp only [Form.applyElse, Form.apply, each.alone, joint.paired]
  | .under work guise, declared, _, .forward, _, beside, follows => fun right left isBeside => by
      obtain ⟨there, backs⟩ := Fallback.follows_append.1 follows
      obtain ⟨guises, works⟩ := Fallback.follows_append.1 there
      have first := guise.agreeOn_applyElse declared.2.1 .forward nofun beside guises
      have second := work.agreeOn_applyElse declared.1 .forward nofun false works
      have back := guise.agreeOn_applyElse declared.2.1 .backward (fun _ => declared.2.2) false
        backs
      simp only [Form.applyElse, Form.apply, first right left isBeside, second.alone, back.alone]
  | .under work guise, declared, _, .backward, able, beside, follows =>
      fun right left isBeside => by
      obtain ⟨there, backs⟩ := Fallback.follows_append.1 follows
      obtain ⟨guises, works⟩ := Fallback.follows_append.1 there
      have able : work.hasInverse = true := able rfl
      have first := guise.agreeOn_applyElse declared.2.1 .forward nofun beside guises
      have second := work.agreeOn_applyElse declared.1 .backward (fun _ => able) false works
      have back := guise.agreeOn_applyElse declared.2.1 .backward (fun _ => declared.2.2) false
        backs
      simp only [Form.applyElse, Form.apply, able, if_true, first right left isBeside, second.alone,
        back.alone]
  | .rank operand degree, declared, _, .forward, _, beside, follows =>
      fun right left isBeside => by
      obtain ⟨degrees, operands⟩ := Fallback.follows_append.1 follows
      have asked := degree.agreeOn_applyElse declared.2 .forward nofun beside degrees
      have cells := operand.agreeOn_applyElse declared.1 .forward nofun beside operands
      have cells (rank : Int) := cells.atRank rank right left isBeside
      simp only [Form.applyElse, Form.apply, asked right left isBeside, cells]
  | .before early late, declared, _, .forward, _, beside, follows => fun right left _ => by
      obtain ⟨earlies, lates⟩ := Fallback.follows_append.1 follows
      have first := early.agreeOn_applyElse declared.1 .forward nofun false earlies
      have second := late.agreeOn_applyElse declared.2 .forward nofun true lates
      simp only [Form.applyElse, Form.apply, first.alone, second.paired]
  | .after late early, declared, _, .forward, _, beside, follows => fun right left _ => by
      obtain ⟨earlies, lates⟩ := Fallback.follows_append.1 follows
      have first := early.agreeOn_applyElse declared.2 .forward nofun false earlies
      have second := late.agreeOn_applyElse declared.1 .forward nofun true lates
      simp only [Form.applyElse, Form.apply, first.alone, second.paired]
  | .swap operand, declared, _, .forward, _, _, follows => fun right left _ =>
      (operand.agreeOn_applyElse declared .forward nofun true follows).paired _ _
  | .each operand, declared, _, .forward, _, beside, follows =>
      (operand.agreeOn_applyElse declared .forward nofun beside follows).each
  | .each operand, declared, _, .backward, able, beside, follows => fun right left isBeside => by
      have able : operand.hasInverse = true := able rfl
      have items := operand.agreeOn_applyElse declared .backward (fun _ => able) beside follows
      simp only [Form.applyElse, Form.apply, able, if_true, items.each right left isBeside]
  | .table operand, declared, _, .forward, _, beside, follows =>
      (operand.agreeOn_applyElse declared .forward nofun beside follows).table
  | .cells operand, declared, _, .forward, _, beside, follows =>
      (operand.agreeOn_applyElse declared .forward nofun beside follows).cells
  | .fold operand, declared, _, .forward, _, _, follows => fun right left _ => by
      have steps := operand.agreeOn_applyElse declared .forward nofun true follows
      simp only [Form.applyElse, Form.apply, steps.fold]
  | .scan operand, declared, _, .forward, _, _, follows => fun right left _ => by
      have steps := operand.agreeOn_applyElse declared .forward nofun true follows
      simp only [Form.applyElse, Form.apply, steps.scan]
  | .inverse operand, declared, _, direction, _, beside, follows =>
      operand.agreeOn_applyElse declared.1 direction.turn (fun _ => declared.2) beside follows
  | .constant .., _, _, .backward, able, _, _ | .fork .., _, _, .backward, able, _, _
  | .over .., _, _, .backward, able, _, _ | .rank .., _, _, .backward, able, _, _
  | .before .., _, _, .backward, able, _, _ | .after .., _, _, .backward, able, _, _
  | .swap .., _, _, .backward, able, _, _ | .table .., _, _, .backward, able, _, _
  | .cells .., _, _, .backward, able, _, _ | .fold .., _, _, .backward, able, _, _
  | .scan .., _, _, .backward, able, _, _ | .block .., _, _, .backward, able, _, _ => by
      cases able rfl
termination_by structural form => form

end

end Calls

/-- Multiplication alone declares an inverse without having both its forms. -/
theorem Primitive.inverts_eq_false_iff {primitive : Primitive} {beside : Bool}
    (invertible : primitive.isInvertible = true) :
    primitive.inverts beside = false ↔ primitive = .multiply ∧ beside = false := by
  revert invertible
  cases primitive <;> cases beside <;> decide

/-! ### Functions that are made -/

section Making

variable {H : Type} {calling : Call H} {memory after : Memory H} {made : Function}

/-- A function as an operand is declared, and data are. -/
def Value.IsDeclared (operand : Value) : Prop :=
  ∀ function, operand = .function function → function.IsDeclared

theorem Value.IsDeclared.toFunction {operand : Value} (declared : operand.IsDeclared)
    (ended : operand.toFunction calling memory = (.ok made, after)) : made.IsDeclared := by
  unfold Value.toFunction at ended
  split at ended
  · next function =>
      cases ended
      exact declared _ rfl
  · obtain ⟨written, between, -, ended⟩ := Action.bind_eq_ok.1 ended
    cases ended
    trivial

/-- An operation on a function that has to declare an inverse. -/
theorem Function.requireInverse_bind {function : Function} {next : Function → Action H Function}
    (ended : (liftM function.requireInverse >>= next : Action H Function) calling memory =
      (.ok made, after)) :
    function.hasInverse = true ∧ next function calling memory = (.ok made, after) := by
  unfold requireInverse at ended
  split at ended
  · next able => exact ⟨able, ended⟩
  · cases ended

theorem OneModifier.isDeclared {modifier : OneModifier} {operand : Value}
    (declared : operand.IsDeclared)
    (ended : modifier.apply operand calling memory = (.ok made, after)) : made.IsDeclared := by
  obtain ⟨function, between, isFunction, ended⟩ := Action.bind_eq_ok.1 ended
  have declared := declared.toFunction isFunction
  cases modifier with
  | constant =>
      obtain ⟨written, between, -, ended⟩ := Action.bind_eq_ok.1 ended
      cases ended
      trivial
  | swap | each | table | cells | fold | scan =>
      cases ended
      exact declared
  | undo =>
      obtain ⟨able, ended⟩ := Function.requireInverse_bind ended
      cases ended
      exact ⟨declared, able⟩

/-- Whatever a modifier makes of functions that are declared is declared. -/
theorem TwoModifier.isDeclared {modifier : TwoModifier} {left right : Value}
    (lefts : left.IsDeclared) (rights : right.IsDeclared)
    (ended : modifier.apply left right calling memory = (.ok made, after)) : made.IsDeclared := by
  obtain ⟨work, between, isWork, ended⟩ := Action.bind_eq_ok.1 ended
  obtain ⟨guise, between', isGuise, ended⟩ := Action.bind_eq_ok.1 ended
  have works := lefts.toFunction isWork
  have guises := rights.toFunction isGuise
  cases modifier with
  | under =>
      obtain ⟨able, ended⟩ := Function.requireInverse_bind ended
      cases ended
      exact ⟨works, guises, able⟩
  | _ =>
      cases ended
      exact ⟨works, guises⟩

/-- What cannot be undone is refused when something is to be computed under it. -/
theorem TwoModifier.under_refused {work guise : Function} (unable : guise.hasInverse = false) :
    TwoModifier.under.apply (.function work) (.function guise) calling memory =
      (refuse (.noInverse guise.name), memory) := by
  have required : guise.requireInverse = refuse (.noInverse guise.name) := by
    rw [Function.requireInverse, unable]
    rfl
  change ((liftM guise.requireInverse >>= _ : Action H Function)) calling memory = _
  rw [required]
  rfl

/-- Where a function computed under another one is made, no call of it comes to a part that declares
no inverse. One may come to multiplication, which has no inverse for one argument; where it does
not, all inverses it asks for are there. -/
theorem TwoModifier.under_fails_fast [Blocks H] {work guise : Function} (works : work.IsDeclared)
    (guises : guise.IsDeclared)
    (ended : TwoModifier.under.apply (.function work) (.function guise) calling memory =
      (.ok made, after))
    {direction : Direction} (able : direction = .backward → made.hasInverse = true)
    (fallback : Fallback H) (right : Value) (left : Option Value)
    (multiplies : (.multiply, false) ∈ made.asks direction left.isSome →
      fallback.formless .multiply = Primitive.multiply.applyInverse) :
    made.applyElse fallback direction right left = made.apply direction right left := by
  have declared : made.IsDeclared := by
    refine isDeclared ?_ ?_ ended
    · rintro _ ⟨⟩
      exact works
    · rintro _ ⟨⟩
      exact guises
  refine made.agreeOn_applyElse declared direction able left.isSome ?_ right left rfl
  rintro ⟨primitive, beside⟩ asked invertible lacks
  obtain ⟨rfl, rfl⟩ := (Primitive.inverts_eq_false_iff invertible).1 lacks
  exact multiplies asked

/-- What is computed under multiplication is made, and no call of it succeeds. -/
theorem Function.under_multiply_fails [Blocks H] (work : Function) (stamp stamp' : Nat)
    (right : Value) (left : Option Value) (memory : Memory H) :
    (mk stamp' (.primitive .multiply)).hasInverse = true ∧
      ∃ failure after, (mk stamp (.under work (.mk stamp' (.primitive .multiply)))).apply .forward
        right left calling memory = (.error failure, after) := by
  refine ⟨rfl, ?_⟩
  change ∃ failure after, (do
    let inside ← Primitive.multiply.apply right left
    let _ ← work.apply .forward inside none
    Action.refuse (.noMonad '×') : Action H Value) calling memory = (.error failure, after)
  rcases first : (Primitive.multiply.apply right left : Action H Value) calling memory with
    ⟨failure | inside, between⟩
  · exact ⟨failure, between, Action.bind_of_error first⟩
  · rw [Action.bind_of_ok first]
    rcases second : work.apply .forward inside none calling between with ⟨failure | worked, after⟩
    · exact ⟨failure, after, Action.bind_of_error second⟩
    · exact ⟨_, after, Action.bind_of_ok second⟩

end Making

end PointFree
