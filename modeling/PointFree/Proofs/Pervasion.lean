import PointFree.Function.Call
import PointFree.Proofs.Broadcasting
import PointFree.Proofs.Likeness.Pervasion
import PointFree.Proofs.Settling

/-!
Contract: one level of a scalar rule that is carried through two nested values.

Where an operand is an array, the two are aligned, the elements that meet are read, the left one
first, and the rule is carried through each pair that was read. `Meeting.yields` says so for elements
that are read in one way from every memory: the level then comes to what is assembled of the
outcomes of its pairs.
-/

namespace PointFree

variable {H : Type} {calling : Call H}

/-- The array of the results, or the first failure among them. -/
def assembled (shape : Shape) (outcome : Nat → Outcome Value) : Outcome Value :=
  (ShapedArray.measure shape).bind fun size =>
    (collect outcome size).bind fun items =>
      .ok (.array (.ofView .owned shape none (ShapedArray.stored items)))

theorem Action.Yields.computed {shape : Shape} {item : Nat → Action H Value}
    {outcome : Nat → Outcome Value}
    (items : ∀ index < shape.size, (item index).Yields calling (outcome index)) :
    (PointFree.computed shape item).Yields calling (assembled shape outcome) := by
  refine (yields_ofOutcome (ShapedArray.measure shape)).bind fun size measured => ?_
  cases ShapedArray.measure_eq_ok measured
  exact (Yields.collect items).bind fun items _ => yields_ofOutcome (.ok _)

namespace Value

theorem flat_or_array (value : Value) :
    value.isArray = false ∨ ∃ items, value = .array items := by
  cases value with
  | array items => exact .inr ⟨items, rfl⟩
  | number => exact .inl rfl
  | character => exact .inl rfl
  | function => exact .inl rfl

theorem toArray_of_flat {value : Value} (flat : value.isArray = false) :
    value.toArray = .scalar value := by
  cases value with
  | array => cases flat
  | number => rfl
  | character => rfl
  | function => rfl

end Value

section Levels

variable {rule : Value → Value → Outcome Value} {later : Value × Value → Action H Value}

theorem Value.zipLeavesThrough_of_leaf {leaf : Value} (flat : leaf.isArray = false)
    (right : Value) :
    leaf.zipLeavesThrough rule later right =
      right.againstLeavesThrough (rule leaf) fun found => later (leaf, found) := by
  cases leaf with
  | array => cases flat
  | number => rfl
  | character => rfl
  | function => rfl

theorem Value.zipLeavesThrough_of_leaves {left right : Value} (flat : left.isArray = false)
    (flat' : right.isArray = false) :
    left.zipLeavesThrough rule later right = Action.ofOutcome (rule left right) := by
  rw [zipLeavesThrough_of_leaf flat]
  cases right with
  | array => cases flat'
  | number => rfl
  | character => rfl
  | function => rfl

/-- The pair comes to this outcome, in the round at hand as in the next one. -/
structure Settles (calling : Call H) (rule : Value → Value → Outcome Value)
    (later : Value × Value → Action H Value) (left right : Value) (outcome : Outcome Value) :
    Prop where
  here : (left.zipLeavesThrough rule later right).Yields calling outcome
  later : (later (left, right)).Yields calling outcome

section Elements

variable {left right : Element} {first second : Outcome Value}

/-- Two elements that meet are read one after the other, in whichever round that is. -/
theorem Element.yields_zipLeavesThrough {both : Value → Value → Outcome Value}
    (firsts : left.force.Yields calling first) (seconds : right.force.Yields calling second)
    (settles : ∀ one other, first = .ok one → second = .ok other →
      Settles calling rule later one other (both one other)) :
    (left.zipLeavesThrough rule later right).Yields calling
      (first.bind fun one => second.bind (both one)) := by
  by_cases there : ∃ content, left = .value content
  · obtain ⟨content, rfl⟩ := there
    intro memory
    obtain rfl : .ok content = first := congrArg Prod.fst (firsts memory)
    exact seconds.bind (fun other isOther => (settles content other rfl isOther).here) memory
  · rw [zipLeavesThrough_of_pending fun content isValue => there ⟨content, isValue⟩]
    exact firsts.bind fun one isOne => seconds.bind fun other isOther =>
      (settles one other isOne isOther).later

theorem Element.yields_againstLeavesThrough {leaf : Value} (flat : leaf.isArray = false)
    {both : Value → Outcome Value} (seconds : right.force.Yields calling second)
    (settles : ∀ other, second = .ok other → Settles calling rule later leaf other (both other)) :
    (right.againstLeavesThrough (rule leaf) fun found => later (leaf, found)).Yields calling
      (second.bind both) := by
  by_cases there : ∃ content, right = .value content
  · obtain ⟨content, rfl⟩ := there
    intro memory
    obtain rfl : .ok content = second := congrArg Prod.fst (seconds memory)
    change content.againstLeavesThrough _ _ calling memory = _
    rw [← Value.zipLeavesThrough_of_leaf flat]
    exact (settles content rfl).here memory
  · rw [againstLeavesThrough_of_pending fun content isValue => there ⟨content, isValue⟩]
    exact seconds.bind fun other isOther => (settles other isOther).later

end Elements

variable {left right : Value} {shape : Shape}

/-- What is read where the operands of a level meet, and what the pairs come to. -/
structure Meeting (calling : Call H) (rule : Value → Value → Outcome Value)
    (later : Value × Value → Action H Value) (left right : ShapedArray) (shape : Shape)
    (first second : Nat → Outcome Value) (both : Nat → Value → Value → Outcome Value) : Prop where
  aligned : Shape.aligned? left.shape right.shape = some shape
  firsts : ∀ index < shape.size, (left.pick (index % left.count)).Yields calling (first index)
  seconds : ∀ index < shape.size, (right.pick (index % right.count)).Yields calling (second index)
  settles : ∀ index < shape.size, ∀ one other, first index = .ok one → second index = .ok other →
    Settles calling rule later one other (both index one other)

section Outcomes

variable {left right : ShapedArray} {shape : Shape} {first second : Nat → Outcome Value}
variable {both : Nat → Value → Value → Outcome Value}

theorem Meeting.alignShapes (meeting : Meeting calling rule later left right shape first second both) :
    ShapedArray.alignShapes left.shape right.shape = .ok shape := by
  rw [ShapedArray.alignShapes, meeting.aligned]

theorem Meeting.element (meeting : Meeting calling rule later left right shape first second both)
    {index : Nat} (inside : index < shape.size) :
    (left.element (index % left.count)).force.Yields calling (first index) ∧
      (right.element (index % right.count)).force.Yields calling (second index) := by
  obtain ⟨leftSome, rightSome⟩ :=
    ShapedArray.aligned_pos meeting.alignShapes (Nat.zero_lt_of_lt inside)
  rw [← ShapedArray.pick_of_lt (Nat.mod_lt _ leftSome),
    ← ShapedArray.pick_of_lt (Nat.mod_lt _ rightSome)]
  exact ⟨meeting.firsts index inside, meeting.seconds index inside⟩

/-- Each pair is read, the left one first, and then settled. -/
theorem Meeting.pair (meeting : Meeting calling rule later left right shape first second both)
    {index : Nat} (inside : index < shape.size) :
    ((left.element (index % left.count)).zipLeavesThrough rule later
      (right.element (index % right.count))).Yields calling
        ((first index).bind fun one => (second index).bind (both index one)) :=
  Element.yields_zipLeavesThrough (meeting.element inside).1 (meeting.element inside).2
    (meeting.settles index inside)

end Outcomes

/-- A leaf meets every element of the array on its right. -/
theorem Meeting.yields_leaf {leaf : Value} (flat : leaf.isArray = false) {right : ShapedArray}
    {shape : Shape} {first second : Nat → Outcome Value}
    {both : Nat → Value → Value → Outcome Value}
    (meeting : Meeting calling rule later (.scalar leaf) right shape first second both) :
    (leaf.zipLeavesThrough rule later (.array right)).Yields calling
      (assembled shape fun index =>
        (first index).bind fun one => (second index).bind (both index one)) := by
  obtain ⟨view, axes, fill, element⟩ := right
  obtain rfl : shape = axes := Option.some.inj
    (meeting.aligned.symm.trans (Shape.nil_aligned? axes))
  rw [Value.zipLeavesThrough_of_leaf flat]
  refine Action.Yields.computed fun index inside memory => ?_
  have isLeaf : .ok leaf = first index := congrArg Prod.fst ((meeting.element inside).1 memory)
  have seconds := (meeting.element inside).2
  have settles := meeting.settles index inside leaf
  rw [ShapedArray.count, ShapedArray.shape, Nat.mod_eq_of_lt inside] at seconds
  rw [← isLeaf] at settles ⊢
  exact Element.yields_againstLeavesThrough flat seconds (fun other => settles other rfl) memory

/-- Every element of the array on its left meets a leaf. -/
theorem Meeting.yields_array {items : ShapedArray} {leaf : Value} (flat : leaf.isArray = false)
    {shape : Shape} {first second : Nat → Outcome Value}
    {both : Nat → Value → Value → Outcome Value}
    (meeting : Meeting calling rule later items (.scalar leaf) shape first second both) :
    (items.zipLeavesThrough rule later leaf).Yields calling
      (assembled shape fun index =>
        (first index).bind fun one => (second index).bind (both index one)) := by
  obtain ⟨view, axes, fill, element⟩ := items
  obtain rfl : shape = axes := Option.some.inj
    (meeting.aligned.symm.trans (Shape.aligned?_nil axes))
  have walk : (ShapedArray.mk view shape fill element).zipLeavesThrough rule later leaf =
      PointFree.computed shape fun index =>
        (element index).zipLeavesThrough rule later (.value leaf) := by
    cases leaf with
    | array => cases flat
    | number => rfl
    | character => rfl
    | function => rfl
  rw [walk]
  refine Action.Yields.computed fun index inside => ?_
  have pair := meeting.pair inside
  rwa [ShapedArray.count, ShapedArray.shape, Nat.mod_eq_of_lt inside] at pair

/-- A level with an array in it comes to what is assembled of the pairs that meet. -/
theorem Meeting.yields {left right : Value} (nested : left.isArray = true ∨ right.isArray = true)
    {shape : Shape} {first second : Nat → Outcome Value}
    {both : Nat → Value → Value → Outcome Value}
    (meeting : Meeting calling rule later left.toArray right.toArray shape first second both) :
    (left.zipLeavesThrough rule later right).Yields calling
      (assembled shape fun index =>
        (first index).bind fun one => (second index).bind (both index one)) := by
  rcases left.flat_or_array with flat | ⟨items, rfl⟩
  · rcases right.flat_or_array with flat' | ⟨others, rfl⟩
    · simp [flat, flat'] at nested
    · rw [Value.toArray_of_flat flat] at meeting
      exact meeting.yields_leaf flat
  · rcases right.flat_or_array with flat | ⟨others, rfl⟩
    · rw [Value.toArray_of_flat flat] at meeting
      exact meeting.yields_array flat
    · obtain ⟨view, axes, fill, element⟩ := items
      have isAligned : ShapedArray.alignShapes axes others.shape = .ok shape := meeting.alignShapes
      intro memory
      change (liftM (ShapedArray.alignShapes axes others.shape) >>= _ : Action H Value)
        calling memory = _
      rw [isAligned]
      exact Action.Yields.computed (fun index inside => meeting.pair inside) memory

end Levels

end PointFree
