import PointFree.Primitive.Scalar
import PointFree.Proofs.Likeness.Nested
import PointFree.Value.Pervasion

/-!
Contract: scalar functions on values that read alike.

What is no array is alike to itself alone, so a rule for leaves is given the same leaves on
both sides. What it makes of them must be alike to itself, which it is for every scalar rule
of the primitives.
-/

namespace PointFree

variable {H : Type}

/-! ### Pending elements -/

section Pending

variable {element : Element} (pending : ∀ content, element ≠ .value content)

include pending

theorem Element.mapLeavesThrough_of_pending (rule : Value → Outcome Value)
    (later : Value → Action H Value) :
    element.mapLeavesThrough rule later = element.force >>= later := by
  cases element with
  | value content => exact absurd rfl (pending content)
  | failure => rfl
  | combined => rfl
  | selected => rfl

theorem Element.againstLeavesThrough_of_pending (rule : Value → Outcome Value)
    (later : Value → Action H Value) :
    element.againstLeavesThrough rule later = element.force >>= later := by
  cases element with
  | value content => exact absurd rfl (pending content)
  | failure => rfl
  | combined => rfl
  | selected => rfl

theorem Element.zipLeavesThrough_of_pending (rule : Value → Value → Outcome Value)
    (later : Value × Value → Action H Value) (right : Element) :
    element.zipLeavesThrough rule later right = (do
      let left ← element.force
      let other ← right.force
      later (left, other)) := by
  cases element with
  | value content => exact absurd rfl (pending content)
  | failure => rfl
  | combined => rfl
  | selected => rfl

end Pending

namespace Likeness

variable {l : Likeness H}

theorem Twins.computed (shape : Shape) {item item' : Nat → Action H Value}
    (items : ∀ index < shape.size, l.Twins l.Values (item index) (item' index)) :
    l.Twins l.Values (computed shape item) (computed shape item') := by
  refine Twins.bind (Twins.lift ((Outcomes.same _).and ShapedArray.measure_eq_ok)) ?_
  rintro size _ ⟨rfl, rfl⟩
  refine Twins.bind (Twins.collect items) fun ⟨rows, size⟩ => Twins.pure (.array ?_)
  exact .ofView _ _ _ .none fun index inside => Elements.stored rows (size.symm ▸ inside)

/-! ### One operand -/

/-- A rule that makes of a leaf what is alike to itself. -/
def Rules (l : Likeness H) (rule : Value → Outcome Value) : Prop :=
  ∀ ⦃leaf⦄, l.Values leaf leaf → Outcomes l.Values (rule leaf) (rule leaf)

theorem Twins.mapLeavesOfParts {rule : Value → Outcome Value} {next next' : Value → Action H Value}
    {view view' : View} {shape : Shape} {fill fill' : Option Value}
    {element element' : Nat → Element}
    (items : ∀ index < shape.size,
      l.Twins l.Values ((element index).mapLeavesThrough rule next)
        ((element' index).mapLeavesThrough rule next')) :
    l.Twins l.Values
      ((ShapedArray.mk view shape fill element).mapLeavesThrough rule next)
      ((ShapedArray.mk view' shape fill' element').mapLeavesThrough rule next') := by
  refine Twins.bind (Twins.collect items) fun collected => ?_
  refine Twins.bind (Twins.lift (Arrays.new shape collected.rows)) fun arrays => ?_
  exact Twins.pure (.array arrays)

mutual

theorem Values.mapLeavesThrough [l.Lawful] {rule : Value → Outcome Value} (rules : l.Rules rule)
    {next next' : Value → Action H Value}
    (onward : l.Onward l.Values l.Values (Value.mapLeavesThrough rule) next next')
    {value value' : Value} :
    l.Values value value' →
      l.Twins l.Values (value.mapLeavesThrough rule next) (value'.mapLeavesThrough rule next')
  | .number number => Twins.lift (rules (.number number))
  | .character letter => Twins.lift (rules (.character letter))
  | .array arrays => arrays.mapLeavesThrough rules onward
  | .function contents => Twins.lift (rules (.function contents))

theorem Arrays.mapLeavesThrough [l.Lawful] {rule : Value → Outcome Value} (rules : l.Rules rule)
    {next next' : Value → Action H Value}
    (onward : l.Onward l.Values l.Values (Value.mapLeavesThrough rule) next next')
    {array array' : ShapedArray} :
    l.Arrays array array' →
      l.Twins l.Values (array.mapLeavesThrough rule next) (array'.mapLeavesThrough rule next')
  | .bare _ _ _ elements =>
      Twins.mapLeavesOfParts fun index inside =>
        (elements index inside).mapLeavesThrough rules onward
  | .padded _ _ _ _ elements =>
      Twins.mapLeavesOfParts fun index inside =>
        (elements index inside).mapLeavesThrough rules onward

theorem Elements.mapLeavesThrough [l.Lawful] {rule : Value → Outcome Value} (rules : l.Rules rule)
    {next next' : Value → Action H Value}
    (onward : l.Onward l.Values l.Values (Value.mapLeavesThrough rule) next next')
    {element element' : Element} :
    l.Elements element element' →
      l.Twins l.Values (element.mapLeavesThrough rule next) (element'.mapLeavesThrough rule next')
  | .value values => values.mapLeavesThrough rules onward
  | .pending reads => by
      have elements : l.Elements element element' := .pending reads
      rw [Element.mapLeavesThrough_of_pending (Lawful.pending reads)]
      cases element' with
      | value content => exact onward.beside elements
      | failure => exact onward.apart elements
      | combined => exact onward.apart elements
      | selected => exact onward.apart elements

end

theorem Values.mapLeaves [l.Lawful] {rule : Value → Outcome Value} (rules : l.Rules rule)
    {value value' : Value} (values : l.Values value value') :
    l.Twins l.Values (value.mapLeaves rule) (value'.mapLeaves rule) :=
  Twins.rounds (fun onward _ _ values => values.mapLeavesThrough rules onward) (Nat.le_refl _)
    values

/-! ### Two operands -/

mutual

theorem Values.againstLeavesThrough [l.Lawful] {rule : Value → Outcome Value}
    (rules : l.Rules rule) {next next' : Value → Action H Value}
    (onward : l.Onward l.Values l.Values (Value.againstLeavesThrough rule) next next')
    {value value' : Value} :
    l.Values value value' →
      l.Twins l.Values (value.againstLeavesThrough rule next)
        (value'.againstLeavesThrough rule next')
  | .number number => Twins.lift (rules (.number number))
  | .character letter => Twins.lift (rules (.character letter))
  | .array arrays => arrays.againstLeavesThrough rules onward
  | .function contents => Twins.lift (rules (.function contents))

theorem Arrays.againstLeavesThrough [l.Lawful] {rule : Value → Outcome Value}
    (rules : l.Rules rule) {next next' : Value → Action H Value}
    (onward : l.Onward l.Values l.Values (Value.againstLeavesThrough rule) next next')
    {array array' : ShapedArray} :
    l.Arrays array array' →
      l.Twins l.Values (array.againstLeavesThrough rule next)
        (array'.againstLeavesThrough rule next')
  | .bare _ _ shape elements =>
      Twins.computed shape fun index inside =>
        (elements index inside).againstLeavesThrough rules onward
  | .padded _ _ shape _ elements =>
      Twins.computed shape fun index inside =>
        (elements index inside).againstLeavesThrough rules onward

theorem Elements.againstLeavesThrough [l.Lawful] {rule : Value → Outcome Value}
    (rules : l.Rules rule) {next next' : Value → Action H Value}
    (onward : l.Onward l.Values l.Values (Value.againstLeavesThrough rule) next next')
    {element element' : Element} :
    l.Elements element element' →
      l.Twins l.Values (element.againstLeavesThrough rule next)
        (element'.againstLeavesThrough rule next')
  | .value values => values.againstLeavesThrough rules onward
  | .pending reads => by
      have elements : l.Elements element element' := .pending reads
      rw [Element.againstLeavesThrough_of_pending (Lawful.pending reads)]
      cases element' with
      | value content => exact onward.beside elements
      | failure => exact onward.apart elements
      | combined => exact onward.apart elements
      | selected => exact onward.apart elements

end

/-- A rule that makes of two leaves what is alike to itself. -/
def Joins (l : Likeness H) (rule : Value → Value → Outcome Value) : Prop :=
  ∀ ⦃left⦄, l.Values left left → l.Rules (rule left)

/-- Step by step: a round takes up a pair. -/
abbrev zipStep (rule : Value → Value → Outcome Value) (later : Value × Value → Action H Value)
    (pair : Value × Value) : Action H Value :=
  pair.1.zipLeavesThrough rule later pair.2

theorem Joins.leaf [l.Lawful] {rule : Value → Value → Outcome Value} (joins : l.Joins rule)
    {next next' : Value × Value → Action H Value}
    (onward : l.Onward l.Pairs l.Values (zipStep rule) next next') {leaf right right' : Value}
    (leaves : l.Values leaf leaf) (rights : l.Values right right')
    (flat : leaf.isArray = false) :
    l.Twins l.Values (leaf.zipLeavesThrough rule next right)
      (leaf.zipLeavesThrough rule next' right') := by
  have against (later : Value × Value → Action H Value) (right : Value) :
      leaf.zipLeavesThrough rule later right =
        right.againstLeavesThrough (rule leaf) fun found => later (leaf, found) := by
    cases leaf with
    | array => cases flat
    | number => rfl
    | character => rfl
    | function => rfl
  rw [against, against]
  refine rights.againstLeavesThrough (joins leaves) ⟨fun found => onward.later ⟨leaves, found⟩, ?_⟩
  intro found found' founds
  have pairs : l.Pairs (leaf, found) (leaf, found') := ⟨leaves, founds⟩
  rw [← against]
  exact onward.here pairs

theorem Elements.zipOfPending [l.Lawful] {element element' right right' : Element}
    (elements : l.Elements element element') (rights : l.Elements right right')
    {next next' : Value × Value → Action H Value}
    (nexts : ∀ {pair pair'}, l.Pairs pair pair' → l.Twins l.Values (next pair) (next' pair')) :
    l.Twins l.Values
      (do
        let left ← element.force
        let other ← right.force
        next (left, other))
      (do
        let left ← element'.force
        let other ← right'.force
        next' (left, other)) := by
  refine Twins.bind elements.steady.twins fun firsts => ?_
  exact Twins.bind rights.steady.twins fun seconds => nexts ⟨firsts, seconds⟩

theorem Arrays.zipLeavesOfParts {rule : Value → Value → Outcome Value}
    {next next' : Value × Value → Action H Value} {view view' : View} {shape : Shape}
    {fill fill' : Option Value} {element element' : Nat → Element} {right right' : Value}
    (rights : l.Values right right')
    (items : ∀ {other other'}, l.Elements other other' → ∀ index < shape.size,
      l.Twins l.Values ((element index).zipLeavesThrough rule next other)
        ((element' index).zipLeavesThrough rule next' other')) :
    l.Twins l.Values
      ((ShapedArray.mk view shape fill element).zipLeavesThrough rule next right)
      ((ShapedArray.mk view' shape fill' element').zipLeavesThrough rule next' right') := by
  cases rights with
  | number number => exact Twins.computed shape (items (.value (.number number)))
  | character letter => exact Twins.computed shape (items (.value (.character letter)))
  | function contents => exact Twins.computed shape (items (.value (.function contents)))
  | array arrays =>
      rw [ShapedArray.zipLeavesThrough, ShapedArray.zipLeavesThrough, ← arrays.shape_eq,
        ← arrays.count_eq]
      refine Twins.bind (Twins.lift ((Outcomes.same _).and ShapedArray.aligned_pos)) ?_
      rintro aligned _ ⟨rfl, filled⟩
      refine Twins.computed aligned fun index inside => ?_
      obtain ⟨leftSome, rightSome⟩ := filled (Nat.zero_lt_of_lt inside)
      exact items (arrays.element (Nat.mod_lt _ rightSome)) _ (Nat.mod_lt _ leftSome)

mutual

theorem Values.zipLeavesThrough [l.Lawful] {rule : Value → Value → Outcome Value}
    (joins : l.Joins rule) {next next' : Value × Value → Action H Value}
    (onward : l.Onward l.Pairs l.Values (zipStep rule) next next')
    {left left' right right' : Value} :
    l.Values left left' → l.Values right right' →
      l.Twins l.Values (left.zipLeavesThrough rule next right)
        (left'.zipLeavesThrough rule next' right')
  | .number number, rights => joins.leaf onward (.number number) rights rfl
  | .character letter, rights => joins.leaf onward (.character letter) rights rfl
  | .function contents, rights => joins.leaf onward (.function contents) rights rfl
  | .array arrays, rights => arrays.zipLeavesThrough joins onward rights

theorem Arrays.zipLeavesThrough [l.Lawful] {rule : Value → Value → Outcome Value}
    (joins : l.Joins rule) {next next' : Value × Value → Action H Value}
    (onward : l.Onward l.Pairs l.Values (zipStep rule) next next')
    {left left' : ShapedArray} {right right' : Value} :
    l.Arrays left left' → l.Values right right' →
      l.Twins l.Values (left.zipLeavesThrough rule next right)
        (left'.zipLeavesThrough rule next' right')
  | .bare _ _ _ elements, rights =>
      Arrays.zipLeavesOfParts rights fun others index inside =>
        (elements index inside).zipLeavesThrough joins onward others
  | .padded _ _ _ _ elements, rights =>
      Arrays.zipLeavesOfParts rights fun others index inside =>
        (elements index inside).zipLeavesThrough joins onward others

theorem Elements.zipLeavesThrough [l.Lawful] {rule : Value → Value → Outcome Value}
    (joins : l.Joins rule) {next next' : Value × Value → Action H Value}
    (onward : l.Onward l.Pairs l.Values (zipStep rule) next next')
    {left left' right right' : Element} :
    l.Elements left left' → l.Elements right right' →
      l.Twins l.Values (left.zipLeavesThrough rule next right)
        (left'.zipLeavesThrough rule next' right')
  | .value values, rights =>
      Twins.bind rights.steady.twins fun others => values.zipLeavesThrough joins onward others
  | .pending reads, rights => by
      have elements : l.Elements left left' := .pending reads
      rw [Element.zipLeavesThrough_of_pending (Lawful.pending reads)]
      cases left' with
      | value content => exact elements.zipOfPending rights onward.here
      | failure => exact elements.zipOfPending rights onward.later
      | combined => exact elements.zipOfPending rights onward.later
      | selected => exact elements.zipOfPending rights onward.later

end

theorem Values.zipLeaves [l.Lawful] {rule : Value → Value → Outcome Value} (joins : l.Joins rule)
    {left left' right right' : Value} (lefts : l.Values left left')
    (rights : l.Values right right') :
    l.Twins l.Values (left.zipLeaves rule right) (left'.zipLeaves rule right') :=
  Twins.rounds (A := l.Pairs)
    (fun onward _ _ pairs => pairs.1.zipLeavesThrough joins onward pairs.2) (Nat.le_refl _)
    ⟨lefts, rights⟩

/-! ### The scalar rules -/

theorem Rules.identity : l.Rules .ok :=
  fun _ leaves => .ok leaves

theorem Rules.onNumber (function : Float → Float) : l.Rules (Scalar.onNumber function) :=
  fun _ _ => (Outcomes.same _).map fun same => same ▸ .number _

theorem Joins.onNumbers (function : Float → Float → Float) :
    l.Joins (Scalar.onNumbers function) := by
  intro left _ right _
  refine Outcomes.bind (.same _) fun same => ?_
  cases same
  refine Outcomes.bind (.same _) fun same => ?_
  cases same
  exact .ok (.number _)

theorem Outcomes.shift (letter : Char) (distance : Float) :
    Outcomes l.Values (Scalar.shift letter distance) (Scalar.shift letter distance) := by
  rw [Scalar.shift]
  split
  · exact .refuse _
  · dsimp only
    split
    · exact .ok (.character _)
    · exact .refuse _

theorem Joins.add : l.Joins Scalar.add := by
  intro left _ right _
  unfold Scalar.add
  split
  · exact .ok (.number _)
  · exact Outcomes.shift _ _
  · exact Outcomes.shift _ _
  · exact .refuse _

theorem Outcomes.subtract (left right : Value) :
    Outcomes l.Values (Scalar.subtract left right) (Scalar.subtract left right) := by
  unfold Scalar.subtract
  split
  · exact .ok (.number _)
  · exact Outcomes.shift _ _
  · exact .ok (.number _)
  · exact .refuse _

theorem Joins.subtract : l.Joins Scalar.subtract :=
  fun left _ right _ => Outcomes.subtract left right

theorem Joins.unadd : l.Joins Scalar.unadd :=
  fun left _ right _ => Outcomes.subtract right left

theorem Joins.compares (holds : Ordering → Bool) : l.Joins (Scalar.compares holds) :=
  fun _ _ _ _ => (Outcomes.same _).map fun same => same ▸ .number _

theorem Joins.equals : l.Joins Scalar.equals :=
  fun _ _ _ _ => .ok (.number _)

theorem Joins.differs : l.Joins Scalar.differs :=
  fun _ _ _ _ => .ok (.number _)

end Likeness

end PointFree
