import PointFree.Proofs.Likeness.Array
import PointFree.Value.Depth
import PointFree.Value.Equality
import PointFree.Value.Text

/-!
Contract: walks through values that read alike.

The written form, depth and equality follow a value down through its arrays, and a walk
starts a new round at each pending element. Where the partner of such an element is there
already, the second walk goes on in the round it is in, so that it never asks for more
rounds than the first.
-/

namespace PointFree

variable {H β : Type}

/-! ### Pending elements -/

/-- Goes on with two values, where there are two. -/
def Outcome.onBoth (later : Value × Value → Action H Bool) :
    Outcome Value → Outcome Value → Action H Bool
  | .ok first, .ok second => later (first, second)
  | _, _ => return false

/-- Equality of two elements that are both read first. -/
def Element.sameOfRead (later : Value × Value → Action H Bool) (left right : Element) :
    Action H Bool := do
  let left ← Action.attempt left.force
  let right ← Action.attempt right.force
  left.onBoth later right

section Pending

variable {element : Element} (pending : ∀ content, element ≠ .value content)

include pending

theorem Element.textThrough_of_pending (later : Value → Action H String) :
    element.textThrough later = do
      match ← Action.attempt element.force with
      | .ok content => later content
      | .error reason => return reason.elementText := by
  cases element with
  | value content => exact absurd rfl (pending content)
  | failure => rfl
  | combined => rfl
  | selected => rfl

theorem Element.depthThrough_of_pending (later : Value → Action H Nat) :
    element.depthThrough later = element.force >>= later := by
  cases element with
  | value content => exact absurd rfl (pending content)
  | failure => rfl
  | combined => rfl
  | selected => rfl

theorem Element.sameThrough_of_pending (later : Value × Value → Action H Bool) (right : Element) :
    element.sameThrough later right = element.sameOfRead later right := by
  cases element with
  | value content => exact absurd rfl (pending content)
  | failure => rfl
  | combined => rfl
  | selected => rfl

end Pending

theorem Element.sameThrough_of_value (later : Value × Value → Action H Bool) (content : Value)
    (right : Element) :
    (Element.value content).sameThrough later right =
      (Element.value content).sameOfRead (fun pair => pair.1.sameThrough later pair.2) right := by
  have read (later : Value × Value → Action H Bool) :
      (Element.value content).sameOfRead later right =
        Action.attempt right.force >>= fun other => Outcome.onBoth later (.ok content) other := rfl
  rw [Element.sameThrough, read]
  refine bind_congr fun other => ?_
  cases other with
  | ok => rfl
  | error => rfl

namespace Likeness

variable {l : Likeness H} {B : β → β → Prop}

/-- An element that is pending on both sides is taken up in a round of its own on both. -/
theorem Onward.apart [l.Lawful] {step : (Value → Action H β) → Value → Action H β}
    {next next' : Value → Action H β} (onward : l.Onward l.Values B step next next')
    {element element' : Element} (elements : l.Elements element element') :
    l.Twins B (element.force >>= next) (element'.force >>= next') :=
  Twins.bind elements.steady.twins onward.later

/-- An element that is there on the second side is taken up in the same round. -/
theorem Onward.beside [l.Lawful] {step : (Value → Action H β) → Value → Action H β}
    {next next' : Value → Action H β} (onward : l.Onward l.Values B step next next')
    {element : Element} {content : Value} (elements : l.Elements element (.value content)) :
    l.Twins B (element.force >>= next) (step next' content) :=
  have forced : l.Twins B (element.force >>= next)
      ((Element.value content).force >>= step next') :=
    Twins.bind elements.steady.twins onward.here
  forced

/-! ### Written forms -/

theorem Elements.character? [l.Lawful] {element element' : Element}
    (elements : l.Elements element element') :
    l.Twins (Option.Rel Eq) element.character?.run element'.character?.run := by
  refine Twins.bind elements.steady.attempt fun outcomes => ?_
  cases outcomes with
  | error failure => exact Twins.pure .none
  | ok values =>
      cases values with
      | character letter => exact Twins.pure (.some rfl)
      | number number => exact Twins.pure .none
      | array arrays => exact Twins.pure .none
      | function contents => exact Twins.pure .none

theorem Arrays.string? [l.Lawful] {array array' : ShapedArray} (arrays : l.Arrays array array') :
    l.Twins Eq array.string? array'.string? := by
  rw [ShapedArray.string?, ShapedArray.string?, ← arrays.rank_eq, ← arrays.count_eq]
  split
  · refine Twins.bind (Twins.collectOption fun index inside =>
      (arrays.element inside).character?) fun letters => ?_
    cases letters with
    | none => exact Twins.pure rfl
    | some rows =>
        cases rows.eq
        exact Twins.pure rfl
  · exact Twins.pure rfl

theorem Values.string? [l.Lawful] {value value' : Value} (values : l.Values value value') :
    l.Twins Eq value.string? value'.string? := by
  cases values with
  | array arrays => exact arrays.string?
  | number number => exact Twins.pure rfl
  | character letter => exact Twins.pure rfl
  | function contents => exact Twins.pure rfl

/-- A pending element is written as what it turns out to be. -/
theorem Elements.textOfPending [l.Lawful] {element element' : Element}
    (elements : l.Elements element element') {next next' : Value → Action H String}
    (nexts : ∀ {value value'}, l.Values value value' → l.Twins Eq (next value) (next' value')) :
    l.Twins Eq
      (do
        match ← Action.attempt element.force with
        | .ok content => next content
        | .error reason => return reason.elementText)
      (do
        match ← Action.attempt element'.force with
        | .ok content => next' content
        | .error reason => return reason.elementText) := by
  refine Twins.bind elements.steady.attempt fun outcomes => ?_
  cases outcomes with
  | ok values => exact nexts values
  | error failure => exact Twins.pure rfl

/-- An array is written alike when its elements are. -/
theorem Arrays.textOfParts [l.Lawful] {next next' : Value → Action H String} {view view' : View}
    {shape : Shape} {fill fill' : Option Value} {element element' : Nat → Element}
    (arrays : l.Arrays (.mk view shape fill element) (.mk view' shape fill' element'))
    (items : ∀ index < shape.size,
      l.Twins Eq ((element index).textThrough next) ((element' index).textThrough next')) :
    l.Twins Eq ((ShapedArray.mk view shape fill element).textThrough next)
      ((ShapedArray.mk view' shape fill' element').textThrough next') := by
  rw [ShapedArray.textThrough, ShapedArray.textThrough]
  split
  · exact Twins.pure rfl
  next filled =>
  split
  · refine Twins.bind (items 0 (Nat.pos_of_ne_zero filled)) fun same => ?_
    cases same
    exact Twins.pure rfl
  · refine Twins.bind arrays.string? fun {found _} same => ?_
    cases same
    cases found with
    | some string => exact Twins.pure rfl
    | none =>
        refine Twins.bind (Twins.collect items) fun collected => ?_
        cases collected.rows.eq
        exact Twins.pure rfl

mutual

theorem Values.textThrough [l.Lawful] {next next' : Value → Action H String}
    (onward : l.Onward l.Values Eq Value.textThrough next next') {value value' : Value} :
    l.Values value value' → l.Twins Eq (value.textThrough next) (value'.textThrough next')
  | .number number => Twins.pure rfl
  | .character letter => Twins.pure rfl
  | .array arrays => arrays.textThrough onward
  | .function _ => Twins.pure rfl

theorem Arrays.textThrough [l.Lawful] {next next' : Value → Action H String}
    (onward : l.Onward l.Values Eq Value.textThrough next next') {array array' : ShapedArray} :
    l.Arrays array array' → l.Twins Eq (array.textThrough next) (array'.textThrough next')
  | .bare view view' shape elements =>
      Arrays.textOfParts (.bare view view' shape elements) fun index inside =>
        (elements index inside).textThrough onward
  | .padded view view' shape fills elements =>
      Arrays.textOfParts (.padded view view' shape fills elements) fun index inside =>
        (elements index inside).textThrough onward

theorem Elements.textThrough [l.Lawful] {next next' : Value → Action H String}
    (onward : l.Onward l.Values Eq Value.textThrough next next') {element element' : Element} :
    l.Elements element element' →
      l.Twins Eq (element.textThrough next) (element'.textThrough next')
  | .value values => values.textThrough onward
  | .pending reads => by
      have elements : l.Elements element element' := .pending reads
      rw [Element.textThrough_of_pending (Lawful.pending reads)]
      cases element' with
      | value content => exact elements.textOfPending onward.here
      | failure => exact elements.textOfPending onward.later
      | combined => exact elements.textOfPending onward.later
      | selected => exact elements.textOfPending onward.later

end

theorem Values.text [l.Lawful] {value value' : Value} (values : l.Values value value') :
    l.Twins Eq value.text value'.text :=
  Twins.rounds (fun onward _ _ values => values.textThrough onward) (Nat.le_refl _) values

/-! ### Depth -/

theorem Twins.depthOfParts {next next' : Value → Action H Nat} {view view' : View} {shape : Shape}
    {fill fill' : Option Value} {element element' : Nat → Element}
    (items : ∀ index < shape.size,
      l.Twins Eq ((element index).depthThrough next) ((element' index).depthThrough next')) :
    l.Twins Eq ((ShapedArray.mk view shape fill element).depthThrough next)
      ((ShapedArray.mk view' shape fill' element').depthThrough next') := by
  refine Twins.bind (Twins.collect items) fun collected => ?_
  cases collected.rows.eq
  exact Twins.pure rfl

mutual

theorem Values.depthThrough [l.Lawful] {next next' : Value → Action H Nat}
    (onward : l.Onward l.Values Eq Value.depthThrough next next') {value value' : Value} :
    l.Values value value' → l.Twins Eq (value.depthThrough next) (value'.depthThrough next')
  | .number _ => Twins.pure rfl
  | .character _ => Twins.pure rfl
  | .array arrays => arrays.depthThrough onward
  | .function _ => Twins.pure rfl

theorem Arrays.depthThrough [l.Lawful] {next next' : Value → Action H Nat}
    (onward : l.Onward l.Values Eq Value.depthThrough next next') {array array' : ShapedArray} :
    l.Arrays array array' → l.Twins Eq (array.depthThrough next) (array'.depthThrough next')
  | .bare _ _ _ elements =>
      Twins.depthOfParts fun index inside => (elements index inside).depthThrough onward
  | .padded _ _ _ _ elements =>
      Twins.depthOfParts fun index inside => (elements index inside).depthThrough onward

theorem Elements.depthThrough [l.Lawful] {next next' : Value → Action H Nat}
    (onward : l.Onward l.Values Eq Value.depthThrough next next') {element element' : Element} :
    l.Elements element element' →
      l.Twins Eq (element.depthThrough next) (element'.depthThrough next')
  | .value values => values.depthThrough onward
  | .pending reads => by
      have elements : l.Elements element element' := .pending reads
      rw [Element.depthThrough_of_pending (Lawful.pending reads)]
      cases element' with
      | value content => exact onward.beside elements
      | failure => exact onward.apart elements
      | combined => exact onward.apart elements
      | selected => exact onward.apart elements

end

theorem Values.depth [l.Lawful] {value value' : Value} (values : l.Values value value') :
    l.Twins Eq value.depth value'.depth :=
  Twins.rounds (fun onward _ _ values => values.depthThrough onward) (Nat.le_refl _) values

/-! ### Equality -/

/-- Two pairs of values that are alike side by side. -/
def Pairs (l : Likeness H) (pair pair' : Value × Value) : Prop :=
  l.Values pair.1 pair'.1 ∧ l.Values pair.2 pair'.2

theorem Values.sameLeaf_eq {left left' right right' : Value} (lefts : l.Values left left')
    (rights : l.Values right right') : left.sameLeaf right = left'.sameLeaf right' := by
  cases lefts with
  | number => cases rights <;> rfl
  | character => cases rights <;> rfl
  | array => cases rights <;> rfl
  | function => cases rights <;> rfl

/-- Equality step by step: a round takes up a pair. -/
abbrev sameStep (later : Value × Value → Action H Bool) (pair : Value × Value) : Action H Bool :=
  pair.1.sameThrough later pair.2

theorem Elements.sameOfPending [l.Lawful] {element element' right right' : Element}
    (elements : l.Elements element element') (rights : l.Elements right right')
    {next next' : Value × Value → Action H Bool}
    (nexts : ∀ {pair pair'}, l.Pairs pair pair' → l.Twins Eq (next pair) (next' pair')) :
    l.Twins Eq (element.sameOfRead next right) (element'.sameOfRead next' right') := by
  refine Twins.bind elements.steady.attempt fun firsts => ?_
  refine Twins.bind rights.steady.attempt fun seconds => ?_
  cases firsts with
  | error => exact Twins.pure rfl
  | ok first =>
      cases seconds with
      | error => exact Twins.pure rfl
      | ok second => exact nexts ⟨first, second⟩

theorem Values.sameAside {left right right' : Value} {next next' : Value × Value → Action H Bool}
    (lefts : l.Values left left) (rights : l.Values right right') (flat : left.isArray = false) :
    l.Twins Eq (left.sameThrough next right) (left.sameThrough next' right') := by
  have leaves := lefts.sameLeaf_eq rights
  cases left with
  | number => exact Twins.pure leaves
  | character => exact Twins.pure leaves
  | function => exact Twins.pure leaves
  | array => cases flat

theorem Arrays.sameOfParts {next next' : Value × Value → Action H Bool} {view view' : View}
    {shape : Shape} {fill fill' : Option Value} {element element' : Nat → Element}
    {right right' : ShapedArray} (rights : l.Arrays right right')
    (items : ∀ {other other'}, l.Elements other other' → ∀ index < shape.size,
      l.Twins Eq ((element index).sameThrough next other)
        ((element' index).sameThrough next' other')) :
    l.Twins Eq ((ShapedArray.mk view shape fill element).sameThrough next right)
      ((ShapedArray.mk view' shape fill' element').sameThrough next' right') := by
  rw [ShapedArray.sameThrough, ShapedArray.sameThrough, ← rights.shape_eq]
  split
  · next one =>
      refine Twins.every fun index inside => items (rights.element ?_) index inside
      rwa [ShapedArray.count, ← one]
  · exact Twins.pure rfl

mutual

theorem Values.sameThrough [l.Lawful] {next next' : Value × Value → Action H Bool}
    (onward : l.Onward l.Pairs Eq sameStep next next') {left left' right right' : Value} :
    l.Values left left' → l.Values right right' →
      l.Twins Eq (left.sameThrough next right) (left'.sameThrough next' right')
  | .number number, rights => Values.sameAside (.number number) rights rfl
  | .character letter, rights => Values.sameAside (.character letter) rights rfl
  | .function contents, rights => Values.sameAside (.function contents) rights rfl
  | .array arrays, rights => by
      cases rights with
      | array others => exact arrays.sameThrough onward others
      | number => exact Twins.pure rfl
      | character => exact Twins.pure rfl
      | function => exact Twins.pure rfl

theorem Arrays.sameThrough [l.Lawful] {next next' : Value × Value → Action H Bool}
    (onward : l.Onward l.Pairs Eq sameStep next next') {left left' right right' : ShapedArray} :
    l.Arrays left left' → l.Arrays right right' →
      l.Twins Eq (left.sameThrough next right) (left'.sameThrough next' right')
  | .bare _ _ _ elements, rights =>
      Arrays.sameOfParts rights fun others index inside =>
        (elements index inside).sameThrough onward others
  | .padded _ _ _ _ elements, rights =>
      Arrays.sameOfParts rights fun others index inside =>
        (elements index inside).sameThrough onward others

theorem Elements.sameThrough [l.Lawful] {next next' : Value × Value → Action H Bool}
    (onward : l.Onward l.Pairs Eq sameStep next next') {left left' right right' : Element} :
    l.Elements left left' → l.Elements right right' →
      l.Twins Eq (left.sameThrough next right) (left'.sameThrough next' right')
  | .value values, rights => by
      refine Twins.bind rights.steady.attempt fun others => ?_
      cases others with
      | error => exact Twins.pure rfl
      | ok others => exact values.sameThrough onward others
  | .pending reads, rights => by
      have elements : l.Elements left left' := .pending reads
      rw [Element.sameThrough_of_pending (Lawful.pending reads)]
      cases left' with
      | value content =>
          rw [Element.sameThrough_of_value]
          exact elements.sameOfPending rights onward.here
      | failure => exact elements.sameOfPending rights onward.later
      | combined => exact elements.sameOfPending rights onward.later
      | selected => exact elements.sameOfPending rights onward.later

end

theorem Values.same [l.Lawful] {left left' right right' : Value} (lefts : l.Values left left')
    (rights : l.Values right right') : l.Twins Eq (left.same right) (left'.same right') :=
  Twins.rounds (A := l.Pairs) (fun onward _ _ pairs => pairs.1.sameThrough onward pairs.2)
    (Nat.le_refl _) ⟨lefts, rights⟩

end Likeness

end PointFree
