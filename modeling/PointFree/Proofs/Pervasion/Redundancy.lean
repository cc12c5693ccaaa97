import PointFree.Function.Call
import PointFree.Proofs.Pervasion

/-!
Contract: applying a pervasive function to every element.

A function is pervasive when it carries one scalar rule through its argument and another through
pairs of arguments. It goes through the elements by itself, so applying it to each of them adds
nothing: the elements are read in the same order, and what is made of them is the same. The one
difference is where an element is pending: the walk then starts another round, while a function
applied to each element starts from the first round again. So the walk may be cut where the other
goes on.
-/

namespace PointFree

variable {H α β : Type}

/-! ### Rounds to spare -/

namespace Action

/-- The evaluation has asked for more rounds than there are. -/
def IsCut (ended : Outcome α × Memory H) : Prop :=
  ∃ failure, ended.1 = .error failure ∧ failure.fault = .callDepthExceeded callBudget

/-- The second action does what the first one does, unless the first is cut. -/
def Outlasts (action action' : Action H α) : Prop :=
  ∀ calling memory, IsCut (action calling memory) ∨ action calling memory = action' calling memory

theorem Outlasts.refl (action : Action H α) : Outlasts action action :=
  fun _ _ => .inr rfl

theorem Outlasts.of_eq {action action' : Action H α} (same : action = action') :
    Outlasts action action' :=
  same ▸ refl action

theorem Outlasts.bind {action action' : Action H α} {next next' : α → Action H β}
    (first : Outlasts action action') (rest : ∀ result, Outlasts (next result) (next' result)) :
    Outlasts (action >>= next) (action' >>= next') := by
  intro calling memory
  rcases ended : action calling memory with ⟨failure | result, after⟩
  · rw [bind_of_error ended]
    rcases first calling memory with ⟨reason, failed, spent⟩ | same
    · rw [ended] at failed
      cases failed
      exact .inl ⟨failure, rfl, spent⟩
    · rw [bind_of_error (same ▸ ended)]
      exact .inr rfl
  · rw [bind_of_ok ended]
    rcases first calling memory with ⟨reason, failed, _⟩ | same
    · rw [ended] at failed
      cases failed
    · rw [bind_of_ok (same ▸ ended)]
      exact rest result calling after

theorem Outlasts.collect {item item' : Nat → Action H α} {count : Nat}
    (items : ∀ index < count, Outlasts (item index) (item' index)) :
    Outlasts (PointFree.collect item count) (PointFree.collect item' count) := by
  suffices general : ∀ (remaining index : Nat) (found : Array α), index + remaining = count →
      Outlasts (collectFrom item remaining index found) (collectFrom item' remaining index found)
    from general count 0 #[] (Nat.zero_add count)
  intro remaining
  induction remaining with
  | zero => exact fun _ found _ => refl (pure found)
  | succ remaining inductionHypothesis =>
      intro index found whole
      refine (items index (by omega)).bind fun value => ?_
      exact inductionHypothesis (index + 1) (found.push value) (by omega)

/-- A step that outlasts itself as soon as the next round does, does so with any number of rounds
to spare. -/
theorem Outlasts.rounds {step : (α → Action H β) → α → Action H β}
    (steps : ∀ {later later' : α → Action H β},
      (∀ argument, Outlasts (later argument) (later' argument)) →
      ∀ argument, Outlasts (step later argument) (step later' argument))
    {remaining remaining' : Nat} (within : remaining ≤ remaining') (argument : α) :
    Outlasts (Action.rounds step remaining argument) (Action.rounds step remaining' argument) := by
  induction remaining generalizing remaining' argument with
  | zero => exact fun _ _ => .inl ⟨_, rfl, rfl⟩
  | succ remaining inductionHypothesis =>
      obtain ⟨more, rfl⟩ := Nat.exists_eq_add_of_le' within
      exact steps (inductionHypothesis (Nat.le_add_left remaining more)) argument

end Action

open PointFree.Action

theorem Action.Outlasts.computed {shape : Shape} {item item' : Nat → Action H Value}
    (items : ∀ index < shape.size, Outlasts (item index) (item' index)) :
    Outlasts (PointFree.computed shape item) (PointFree.computed shape item') := by
  intro calling
  unfold PointFree.computed
  rcases measured : ShapedArray.measure shape with failure | size
  · exact fun memory => .inr rfl
  · cases ShapedArray.measure_eq_ok measured
    exact (Outlasts.collect items).bind (fun row => refl _) calling

section Walks

variable {later later' : Value → Action H Value} (rule : Value → Outcome Value)

mutual

theorem Value.outlasts_mapLeaves (spare : ∀ content, Outlasts (later content) (later' content)) :
    (value : Value) →
      Outlasts (value.mapLeavesThrough rule later) (value.mapLeavesThrough rule later')
  | .number _ | .character _ | .function _ => .refl _
  | .array items => ShapedArray.outlasts_mapLeaves spare items

theorem ShapedArray.outlasts_mapLeaves
    (spare : ∀ content, Outlasts (later content) (later' content)) : (items : ShapedArray) →
      Outlasts (items.mapLeavesThrough rule later) (items.mapLeavesThrough rule later')
  | .mk _ _ _ element =>
      (Outlasts.collect fun index _ => Element.outlasts_mapLeaves spare (element index)).bind
        fun _ => .refl _

theorem Element.outlasts_mapLeaves
    (spare : ∀ content, Outlasts (later content) (later' content)) : (element : Element) →
      Outlasts (element.mapLeavesThrough rule later) (element.mapLeavesThrough rule later')
  | .value content => Value.outlasts_mapLeaves spare content
  | .failure _ | .combined _ _ _ | .selected _ _ _ => (Outlasts.refl _).bind spare

end

mutual

theorem Value.outlasts_againstLeaves
    (spare : ∀ content, Outlasts (later content) (later' content)) : (value : Value) →
      Outlasts (value.againstLeavesThrough rule later) (value.againstLeavesThrough rule later')
  | .number _ | .character _ | .function _ => .refl _
  | .array items => ShapedArray.outlasts_againstLeaves spare items

theorem ShapedArray.outlasts_againstLeaves
    (spare : ∀ content, Outlasts (later content) (later' content)) : (items : ShapedArray) →
      Outlasts (items.againstLeavesThrough rule later) (items.againstLeavesThrough rule later')
  | .mk _ _ _ element =>
      Outlasts.computed fun index _ => Element.outlasts_againstLeaves spare (element index)

theorem Element.outlasts_againstLeaves
    (spare : ∀ content, Outlasts (later content) (later' content)) : (element : Element) →
      Outlasts (element.againstLeavesThrough rule later) (element.againstLeavesThrough rule later')
  | .value content => Value.outlasts_againstLeaves spare content
  | .failure _ | .combined _ _ _ | .selected _ _ _ => (Outlasts.refl _).bind spare

end

end Walks

section Pairs

variable {later later' : Value × Value → Action H Value} (rule : Value → Value → Outcome Value)

mutual

theorem Value.outlasts_zipLeaves (spare : ∀ pair, Outlasts (later pair) (later' pair)) :
    (left right : Value) →
      Outlasts (left.zipLeavesThrough rule later right) (left.zipLeavesThrough rule later' right)
  | .number _, right | .character _, right | .function _, right =>
      right.outlasts_againstLeaves _ fun _ => spare _
  | .array items, right => ShapedArray.outlasts_zipLeaves spare items right

theorem ShapedArray.outlasts_zipLeaves (spare : ∀ pair, Outlasts (later pair) (later' pair)) :
    (left : ShapedArray) → (right : Value) →
      Outlasts (left.zipLeavesThrough rule later right) (left.zipLeavesThrough rule later' right)
  | .mk _ _ _ element, .array others => (Outlasts.refl _).bind fun _ =>
      Outlasts.computed fun _ _ => Element.outlasts_zipLeaves spare (element _) (others.element _)
  | .mk _ _ _ element, .number _ | .mk _ _ _ element, .character _
  | .mk _ _ _ element, .function _ =>
      Outlasts.computed fun index _ => Element.outlasts_zipLeaves spare (element index) (.value _)

theorem Element.outlasts_zipLeaves (spare : ∀ pair, Outlasts (later pair) (later' pair)) :
    (left right : Element) →
      Outlasts (left.zipLeavesThrough rule later right) (left.zipLeavesThrough rule later' right)
  | .value content, right => (Outlasts.refl right.force).bind fun other =>
      Value.outlasts_zipLeaves spare content other
  | .failure _, right | .combined _ _ _, right | .selected _ _ _, right =>
      (Outlasts.refl _).bind fun _ => (Outlasts.refl right.force).bind fun _ => spare _

end

end Pairs

/-! ### One level of a walk -/

/-- The second action outlasts the first, and does the same if the condition holds. -/
def Action.Redoes (condition : Prop) (action action' : Action H α) : Prop :=
  Outlasts action action' ∧ (condition → action = action')

/-- No element of the array has to be computed: each is there or has failed. -/
def Value.IsAtHand (value : Value) : Prop :=
  ∀ index < value.toArray.count, (value.toArray.element index).settled?.isSome

theorem collect_congr {m : Type → Type} [Monad m] {item item' : Nat → m α} {count : Nat}
    (same : ∀ index < count, item index = item' index) :
    collect item count = collect item' count := by
  suffices general : ∀ (remaining index : Nat) (found : Array α), index + remaining = count →
      collectFrom item remaining index found = collectFrom item' remaining index found
    from general count 0 #[] (Nat.zero_add count)
  intro remaining
  induction remaining with
  | zero => exact fun _ _ _ => rfl
  | succ remaining inductionHypothesis =>
      intro index found whole
      simp only [collectFrom]
      rw [same index (by omega)]
      exact bind_congr fun value => inductionHypothesis (index + 1) _ (by omega)

/-- What follows a failed element is not reached. -/
theorem Element.force_failure_bind (reason : Failure) (next next' : Value → Action H β) :
    (Element.failure reason).force >>= next = (Element.failure reason).force >>= next' :=
  rfl

theorem computed_congr {shape : Shape} {item item' : Nat → Action H Value}
    (same : ∀ index < shape.size, item index = item' index) :
    computed shape item = computed shape item' := by
  unfold computed
  rcases measured : ShapedArray.measure shape with failure | size
  · rfl
  · cases ShapedArray.measure_eq_ok measured
    change (collect item shape.size >>= _ : Action H Value) = collect item' shape.size >>= _
    rw [collect_congr same]

section Single

variable (rule : Value → Outcome Value)

theorem Value.mapLeaves_eq_step (value : Value) : (value.mapLeaves rule : Action H Value) =
    value.mapLeavesThrough rule (rounds (Value.mapLeavesThrough rule) (callBudget - 1)) :=
  rounds_eq_step _ _ _ (by decide)

/-- An element is read and gone through, in one round or from the first round again. -/
theorem Element.redoes_mapLeaves (element : Element) :
    Redoes element.settled?.isSome
      (element.mapLeavesThrough rule (rounds (Value.mapLeavesThrough rule) (callBudget - 1)) :
        Action H Value)
      (element.force >>= fun content => content.mapLeaves rule) := by
  have spare (content : Value) : Outlasts
      (rounds (Value.mapLeavesThrough rule) (callBudget - 1) content : Action H Value)
      (content.mapLeaves rule) :=
    Outlasts.rounds (fun spare => Value.outlasts_mapLeaves rule spare) (Nat.sub_le ..) content
  cases element with
  | value content =>
      have same := (content.mapLeaves_eq_step rule (H := H)).symm
      exact ⟨.of_eq same, fun _ => same⟩
  | failure reason =>
      have same := force_failure_bind (H := H) reason (rounds (Value.mapLeavesThrough rule)
        (callBudget - 1)) fun content => content.mapLeaves rule
      exact ⟨.of_eq same, fun _ => same⟩
  | combined => exact ⟨(Outlasts.refl _).bind spare, nofun⟩
  | selected => exact ⟨(Outlasts.refl _).bind spare, nofun⟩

/-- A scalar rule is carried through an array by carrying it through each of its elements. -/
theorem Operation.redoes_eachElement {operation : Operation H}
    (carries : ∀ right, operation right none = right.mapLeaves rule) (right : Value) :
    Redoes right.IsAtHand (right.mapLeaves rule) (operation.each right none) := by
  rcases right.flat_or_array with flat | ⟨⟨view, shape, fill, element⟩, rfl⟩
  · have same : operation.each right none = right.mapLeaves rule := by
      cases right with
      | array => cases flat
      | number | character | function => exact carries _
    exact ⟨.of_eq same.symm, fun _ => same.symm⟩
  · have items (index : Nat) (inside : index < shape.size) :=
      (element index).redoes_mapLeaves (H := H) rule
    have walk : (Value.array (.mk view shape fill element)).mapLeaves rule = (do
        let results ← collect (fun index => (element index).mapLeavesThrough rule
          (rounds (Value.mapLeavesThrough rule) (callBudget - 1))) shape.size
        let result ← ShapedArray.new shape results
        return .array result : Action H Value) :=
      Value.mapLeaves_eq_step rule _
    have each : operation.each (.array (.mk view shape fill element)) none = (do
        let results ← collect (fun index => (element index).force >>= fun content =>
          content.mapLeaves rule) shape.size
        let result ← ShapedArray.new shape results
        return .array result) := by
      refine congrArg (· >>= _) (collect_congr fun index inside => ?_)
      rw [ShapedArray.pick_of_lt inside]
      exact bind_congr fun content => carries content
    rw [walk, each]
    refine ⟨(Outlasts.collect fun index inside => (items index inside).1).bind fun _ => .refl _,
      fun atHand => ?_⟩
    exact congrArg (· >>= _) (collect_congr fun index inside =>
      (items index inside).2 (atHand index inside))

end Single

section Paired

variable (rule : Value → Value → Outcome Value)

theorem Value.zipLeaves_eq_step (left right : Value) :
    (left.zipLeaves rule right : Action H Value) = left.zipLeavesThrough rule
      (rounds (fun later pair => pair.1.zipLeavesThrough rule later pair.2) (callBudget - 1))
      right :=
  rounds_eq_step _ _ _ (by decide)

/-- The rounds that are left after the first one. -/
abbrev Value.zipLater : Value × Value → Action H Value :=
  rounds (fun later pair => pair.1.zipLeavesThrough rule later pair.2) (callBudget - 1)

theorem Value.outlasts_zipLater (pair : Value × Value) :
    Outlasts (Value.zipLater rule pair : Action H Value) (pair.1.zipLeaves rule pair.2) :=
  Outlasts.rounds (fun spare pair => Value.outlasts_zipLeaves rule spare pair.1 pair.2)
    (Nat.sub_le ..) pair

/-- Two elements that meet are read and gone through. -/
theorem Element.redoes_zipLeaves (left right : Element) :
    Redoes left.settled?.isSome
      (left.zipLeavesThrough rule (Value.zipLater rule) right : Action H Value)
      (left.force >>= fun one => right.force >>= fun other => one.zipLeaves rule other) := by
  have spare : Outlasts
      (left.force >>= fun one => right.force >>= fun other => Value.zipLater rule (one, other) :
        Action H Value)
      (left.force >>= fun one => right.force >>= fun other => one.zipLeaves rule other) :=
    (Outlasts.refl _).bind fun one => (Outlasts.refl _).bind fun other =>
      Value.outlasts_zipLater rule (one, other)
  cases left with
  | value content =>
      have same : ((Element.value content).zipLeavesThrough rule (Value.zipLater rule) right :
          Action H Value) = right.force >>= fun other => content.zipLeaves rule other :=
        bind_congr fun other => (content.zipLeaves_eq_step rule other).symm
      exact ⟨.of_eq same, fun _ => same⟩
  | failure reason =>
      have same := force_failure_bind (H := H) reason
        (fun one => right.force >>= fun other => Value.zipLater rule (one, other))
        fun one => right.force >>= fun other => one.zipLeaves rule other
      exact ⟨.of_eq same, fun _ => same⟩
  | combined => exact ⟨spare, nofun⟩
  | selected => exact ⟨spare, nofun⟩

/-- A leaf meets an element, which is read and gone through. -/
theorem Element.redoes_againstLeaves {leaf : Value} (flat : leaf.isArray = false)
    (right : Element) :
    Redoes right.settled?.isSome
      (right.againstLeavesThrough (rule leaf) fun found => Value.zipLater rule (leaf, found) :
        Action H Value)
      (right.force >>= fun other => leaf.zipLeaves rule other) := by
  have spare : Outlasts
      (right.force >>= fun other => Value.zipLater rule (leaf, other) : Action H Value)
      (right.force >>= fun other => leaf.zipLeaves rule other) :=
    (Outlasts.refl _).bind fun other => Value.outlasts_zipLater rule (leaf, other)
  cases right with
  | value content =>
      have same : (content.againstLeavesThrough (rule leaf) fun found =>
          Value.zipLater rule (leaf, found) : Action H Value) = leaf.zipLeaves rule content := by
        rw [leaf.zipLeaves_eq_step, Value.zipLeavesThrough_of_leaf flat]
      exact ⟨.of_eq same, fun _ => same⟩
  | failure reason =>
      have same := force_failure_bind (H := H) reason
        (fun other => Value.zipLater rule (leaf, other))
        fun other => leaf.zipLeaves rule other
      exact ⟨.of_eq same, fun _ => same⟩
  | combined => exact ⟨spare, nofun⟩
  | selected => exact ⟨spare, nofun⟩

/-- Under an alignment, what is done with each pair is done again. -/
theorem Action.Redoes.aligned {condition : Prop} {left right : ShapedArray}
    {item item' : Nat → Action H Value}
    (items : ∀ index, 0 < left.count → 0 < right.count →
      Redoes condition (item index) (item' index)) :
    Redoes condition
      (do
        let shape ← ShapedArray.alignShapes left.shape right.shape
        computed shape item)
      (do
        let shape ← ShapedArray.alignShapes left.shape right.shape
        computed shape item') := by
  rcases aligned : ShapedArray.alignShapes left.shape right.shape with failure | shape
  · exact ⟨.of_eq rfl, fun _ => rfl⟩
  · have pairs (index : Nat) (inside : index < shape.size) :
        Redoes condition (item index) (item' index) :=
      have filled := ShapedArray.aligned_pos aligned (Nat.zero_lt_of_lt inside)
      items index filled.1 filled.2
    refine ⟨Outlasts.computed fun index inside => (pairs index inside).1, fun holds => ?_⟩
    exact computed_congr fun index inside => (pairs index inside).2 holds

/-- What a walk does with the pair at an index: a leaf on the left is kept while the other operand
is gone through. -/
def Value.zipItem (left right : Value) (index : Nat) : Action H Value :=
  if left.isArray then
    (left.toArray.element (index % left.toArray.count)).zipLeavesThrough rule (Value.zipLater rule)
      (right.toArray.element (index % right.toArray.count))
  else
    (right.toArray.element (index % right.toArray.count)).againstLeavesThrough (rule left)
      fun found => Value.zipLater rule (left, found)

theorem ShapedArray.alignShapes_nil (shape : Shape) : alignShapes shape [] = .ok shape := by
  rw [alignShapes, Shape.aligned?_nil]

theorem ShapedArray.nil_alignShapes (shape : Shape) : alignShapes [] shape = .ok shape := by
  rw [alignShapes, Shape.nil_aligned?]

/-- A level with an array in it is aligned, and each pair of elements that meet is gone through. -/
theorem Value.zipLeaves_of_nested {left right : Value}
    (nested : left.isArray = true ∨ right.isArray = true) :
    (left.zipLeaves rule right : Action H Value) = (do
      let shape ← ShapedArray.alignShapes left.toArray.shape right.toArray.shape
      computed shape (Value.zipItem rule left right)) := by
  rw [zipLeaves_eq_step]
  rcases left.flat_or_array with flat | ⟨⟨view, shape, fill, element⟩, rfl⟩
  · rcases right.flat_or_array with flat' | ⟨⟨view, shape, fill, element⟩, rfl⟩
    · simp [flat, flat'] at nested
    · have aligned : ShapedArray.alignShapes left.toArray.shape shape = .ok shape := by
        rw [toArray_of_flat flat]
        exact ShapedArray.nil_alignShapes shape
      change _ = (liftM (ShapedArray.alignShapes left.toArray.shape shape) >>= _ : Action H Value)
      rw [aligned, zipLeavesThrough_of_leaf flat]
      refine computed_congr fun index inside => ?_
      rw [zipItem, flat, if_neg Bool.false_ne_true]
      change _ = (element (index % shape.size)).againstLeavesThrough _ _
      rw [Nat.mod_eq_of_lt inside]
  · rcases right.flat_or_array with flat | ⟨others, rfl⟩
    · have aligned : ShapedArray.alignShapes shape right.toArray.shape = .ok shape := by
        rw [toArray_of_flat flat]
        exact ShapedArray.alignShapes_nil shape
      have walk : (Value.array (.mk view shape fill element)).zipLeavesThrough rule
          (Value.zipLater rule) right = (computed shape fun index =>
            (element index).zipLeavesThrough rule (Value.zipLater rule) (.value right) :
              Action H Value) := by
        cases right with
        | array => cases flat
        | number | character | function => rfl
      change _ = (liftM (ShapedArray.alignShapes shape right.toArray.shape) >>= _ : Action H Value)
      rw [walk, aligned]
      refine computed_congr fun index inside => ?_
      change _ = (element (index % shape.size)).zipLeavesThrough _ _
        (right.toArray.element (index % right.toArray.count))
      rw [Nat.mod_eq_of_lt inside, toArray_of_flat flat]
      rfl
    · rfl

/-- A pair of elements that meet is gone through as their values are, once they have been read. -/
theorem Value.redoes_zipItem {left right : Value} (leftSome : 0 < left.toArray.count)
    (rightSome : 0 < right.toArray.count) (index : Nat) :
    Redoes (left.IsAtHand ∧ right.IsAtHand) (Value.zipItem rule left right index) (do
      let first ← left.toArray.pick (index % left.toArray.count)
      let second ← right.toArray.pick (index % right.toArray.count)
      first.zipLeaves rule second : Action H Value) := by
  rw [ShapedArray.pick_of_lt (Nat.mod_lt _ leftSome),
    ShapedArray.pick_of_lt (Nat.mod_lt _ rightSome), Value.zipItem]
  have leftThere := fun atHand : left.IsAtHand ∧ right.IsAtHand =>
    atHand.1 _ (Nat.mod_lt index leftSome)
  have rightThere := fun atHand : left.IsAtHand ∧ right.IsAtHand =>
    atHand.2 _ (Nat.mod_lt index rightSome)
  rcases left.flat_or_array with flat | ⟨items, rfl⟩
  · rw [flat, if_neg Bool.false_ne_true]
    have redoes := Element.redoes_againstLeaves (H := H) rule flat
      (right.toArray.element (index % right.toArray.count))
    rw [Value.toArray_of_flat flat]
    exact ⟨redoes.1, fun atHand => redoes.2 (rightThere atHand)⟩
  · have redoes := Element.redoes_zipLeaves (H := H) rule
      (items.element (index % items.count))
      (right.toArray.element (index % right.toArray.count))
    exact ⟨redoes.1, fun atHand => redoes.2 (leftThere atHand)⟩

/-- A scalar rule is carried through two arrays by carrying it through each pair that meets. -/
theorem Operation.redoes_eachAligned {operation : Operation H}
    (carries : ∀ right left, operation right (some left) = left.zipLeaves rule right)
    (right left : Value) :
    Redoes (left.IsAtHand ∧ right.IsAtHand) (left.zipLeaves rule right)
      (operation.each right (some left)) := by
  by_cases nested : left.isArray = true ∨ right.isArray = true
  · have each : operation.each right (some left) = (do
        let shape ← ShapedArray.alignShapes left.toArray.shape right.toArray.shape
        computed shape fun index => do
          let first ← left.toArray.pick (index % left.toArray.count)
          let second ← right.toArray.pick (index % right.toArray.count)
          operation second (some first)) := by
      exact if_pos (by simpa using nested)
    rw [each, Value.zipLeaves_of_nested rule nested]
    simp only [carries]
    exact Redoes.aligned fun index leftSome rightSome =>
      Value.redoes_zipItem rule leftSome rightSome index
  · simp only [not_or, Bool.not_eq_true] at nested
    have same : operation.each right (some left) = left.zipLeaves rule right := by
      rw [← carries]
      exact if_neg (by simp [nested.1, nested.2])
    exact ⟨.of_eq same.symm, fun _ => same.symm⟩

end Paired

/-! ### Pervasive functions -/

/-- The function carries one scalar rule through its argument, and another one through pairs. -/
structure Function.IsPervasive (H : Type) [Blocks H] (function : Function)
    (single : Value → Outcome Value) (paired : Value → Value → Outcome Value) : Prop where
  single (right : Value) : (function.call right none : Action H Value) = right.mapLeaves single
  paired (right left : Value) :
    (function.call right (some left) : Action H Value) = left.zipLeaves paired right

/-- A primitive whose forms are both scalar rules that are carried through. -/
theorem Function.isPervasive_of_forms [Blocks H] (stamp : Nat) {primitive : Primitive}
    {single : Value → Outcome Value} {paired : Value → Value → Outcome Value}
    (monad : primitive.monad? = Primitive.eachLeaf single)
    (dyad : primitive.dyad? = Primitive.eachPair paired) :
    (Function.mk stamp (.primitive primitive)).IsPervasive H single paired where
  single right := by
    change primitive.dispatch primitive.monad? primitive.dyad? right none = _
    rw [monad]
    rfl
  paired right left := by
    change primitive.dispatch primitive.monad? primitive.dyad? right (some left) = _
    rw [dyad]
    rfl

/-- Applied to each element, or to each pair of elements that meet, a pervasive function does from
every memory what it does applied to the whole, with the same result or the same failure, unless
the walk through the whole is cut. If no element has to be computed, the two are one action. -/
theorem Function.IsPervasive.each_redundant [Blocks H] {function : Function}
    {single : Value → Outcome Value} {paired : Value → Value → Outcome Value}
    (pervasive : function.IsPervasive H single paired) (stamp : Nat) (right : Value)
    (left : Option Value) :
    (∀ calling memory, Action.IsCut ((function.call right left : Action H Value) calling memory) ∨
      (Function.mk stamp (.each function)).call right left calling memory =
        (function.call right left : Action H Value) calling memory) ∧
    (right.IsAtHand → (∀ other ∈ left, other.IsAtHand) →
      (Function.mk stamp (.each function)).call right left =
        (function.call right left : Action H Value)) := by
  have each : ((Function.mk stamp (.each function)).call right left : Action H Value) =
      Operation.each function.call right left := rfl
  rw [each]
  cases left with
  | none =>
      obtain ⟨outlasts, redoes⟩ := Operation.redoes_eachElement single pervasive.single right
      rw [pervasive.single]
      exact ⟨fun calling memory => (outlasts calling memory).imp_right Eq.symm,
        fun atHand _ => (redoes atHand).symm⟩
  | some left =>
      obtain ⟨outlasts, redoes⟩ := Operation.redoes_eachAligned paired pervasive.paired right left
      rw [pervasive.paired]
      exact ⟨fun calling memory => (outlasts calling memory).imp_right Eq.symm,
        fun atHand others => (redoes ⟨others left rfl, atHand⟩).symm⟩

namespace Function

namespace Products

def times : Function :=
  .mk 0 (.primitive .multiply)

def column : Value :=
  .list #[.number 2.0, .character 'a', .array (.scalar (.number 4.0))]

def rows : Value :=
  .list #[.list #[.number 1.0, .number 2.0], .number 3.0, .list #[.number 5.0]]

end Products

open Products

/-- A number meets a row, a letter meets a number, and a box meets a row. -/
theorem IsPervasive.each_redundant_times :
    times.IsPervasive (Heap (List Routine)) (Scalar.onNumber Scalar.sign)
      (Scalar.onNumbers fun left right => left * right) ∧
    column.IsAtHand ∧ (∀ other ∈ some rows, other.IsAtHand) ∧
    (Function.mk 1 (.each times)).call column (some rows) =
      (times.call column (some rows) : Action (Heap (List Routine)) Value) := by
  have pervasive : times.IsPervasive (Heap (List Routine)) (Scalar.onNumber Scalar.sign)
      (Scalar.onNumbers fun left right => left * right) :=
    isPervasive_of_forms 0 rfl rfl
  have columnAtHand : column.IsAtHand := by
    rw [Value.IsAtHand]
    decide
  have rowsAtHand : ∀ other ∈ some rows, other.IsAtHand := by
    rintro _ ⟨⟩
    rw [Value.IsAtHand]
    decide
  exact ⟨pervasive, columnAtHand, rowsAtHand,
    (pervasive.each_redundant 1 column (some rows)).2 columnAtHand rowsAtHand⟩

end Function

end PointFree
