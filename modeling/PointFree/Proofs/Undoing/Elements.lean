import PointFree.Proofs.Constancy
import PointFree.Proofs.Undoing
import PointFree.Proofs.Views.Selection

/-!
Contract: undoing element by element.

A function applied to each element calls its operand once for each index, with the element there and
the one beside it. The elements beside depend on the left argument and on the shape of the right one
alone. Undoing reads the results, which have the shape of the right argument, and so pairs each with
the very element that the call has paired. The elements are read once by the call, and those of the
left argument once more by the undoing, so both arguments have to read the same throughout; and what
has no elements is undone only by a function that declares an inverse.
-/

namespace PointFree

variable {H : Type} {calling : Call H} {held : Memory H → Prop} {alike : Value → Value → Prop}

/-! ### One call for each index -/

namespace Operation

variable {operation : Operation H} {right : ShapedArray} {left : Option Value} {size : Nat}

/-- The call at an index, with the element there and the one beside it. -/
def meet (operation : Operation H) (right : ShapedArray) (left : Option Value) (index : Nat) :
    Action H Value :=
  match left with
  | none => do
      let item ← right.pick index
      operation item none
  | some other => do
      let first ← other.toArray.pick (index % other.toArray.count)
      let second ← right.pick (index % right.count)
      operation second (some first)

/-- The results of the calls, stored under a shape. -/
def results (shape : Shape) (all : Array Value) : ShapedArray :=
  .ofView .owned shape none (ShapedArray.stored all)

theorem shape_results (bounded : right.IsBounded) (all : Array Value) :
    (results right.shape all).shape = right.shape :=
  ShapedArray.IsProper.shape_ofView bounded.empty ..

theorem new_results {all : Array Value} (measured : ShapedArray.measure right.shape = .ok size)
    (filled : all.size = right.count) :
    ShapedArray.new right.shape all = .ok (results right.shape all) := by
  rw [ShapedArray.new, ShapedArray.filled, measured]
  change (if size = all.size then _ else _) = _
  exact if_pos ((ShapedArray.measure_eq_ok measured).trans filled.symm)

/-- Beside a left argument that fits, the shape is the one of the right argument. -/
theorem each_beside {other : Value} (fits : other.toArray.shape <:+ right.shape) :
    (operation.each (.array right) (some other) : Action H Value) = (do
      let size ← ShapedArray.measure right.shape
      let all ← collect (operation.meet right (some other)) size
      return .array (results right.shape all)) := by
  have aligned : ShapedArray.alignShapes other.toArray.shape right.shape = .ok right.shape := by
    rw [ShapedArray.alignShapes, Shape.aligned?_eq_some_iff.2 (.inr ⟨fits, rfl⟩)]
  have whole : (other.isArray || (Value.array right).isArray) = true := Bool.or_true _
  rw [each, if_pos whole, eachAligned]
  change (do
    let shape ← ShapedArray.alignShapes other.toArray.shape right.shape
    let size ← ShapedArray.measure shape
    let all ← collect (operation.meet right (some other)) size
    return Value.array (.ofView .owned shape none (ShapedArray.stored all)) : Action H Value) = _
  rw [aligned]
  rfl

variable {found : Value} {memory after : Memory H}

/-- What is applied to each element has a shape that an array may be built with. -/
theorem measure_of_each (fits : ∀ other, left = some other → other.toArray.shape <:+ right.shape)
    (ended : operation.each (.array right) left calling memory = (.ok found, after)) :
    ∃ size, ShapedArray.measure right.shape = .ok size := by
  cases left with
  | none =>
      obtain ⟨all, between, _, ended⟩ := Action.bind_eq_ok.1 ended
      obtain ⟨result, _, built, _⟩ := Action.bind_eq_ok.1 ended
      have made : ShapedArray.new right.shape all = .ok result := congrArg Prod.fst built
      obtain ⟨size, measured, _⟩ := Outcome.bind_eq_ok.1 made
      exact ⟨size, measured⟩
  | some other =>
      rw [each_beside (fits other rfl)] at ended
      obtain ⟨size, _, measured, _⟩ := Action.bind_eq_ok.1 ended
      exact ⟨size, congrArg Prod.fst measured⟩

/-- The results of all calls are stored, in the order of the indices. -/
theorem each_eq (measured : ShapedArray.measure right.shape = .ok size)
    (fits : ∀ other, left = some other → other.toArray.shape <:+ right.shape) :
    (operation.each (.array right) left : Action H Value) calling = (do
      let all ← collect (operation.meet right left) right.count
      return Value.array (results right.shape all) : Action H Value) calling := by
  cases left with
  | none =>
      funext memory
      change ((collect (operation.meet right none) right.count >>= fun all => do
        let result ← ShapedArray.new right.shape all
        return Value.array result) : Action H Value) calling memory = _
      rcases ended : collect (operation.meet right none) right.count calling memory with
        ⟨failure | all, after⟩
      · rw [Action.bind_of_error ended, Action.bind_of_error ended]
      · have anywhere : (fun _ : Memory H => True) memory := trivial
        obtain ⟨_, filled, _⟩ :=
          Action.reaches_of_collect (fun _ _ _ _ _ _ _ => trivial) anywhere ended
        rw [Action.bind_of_ok ended, Action.bind_of_ok ended, new_results measured filled]
        rfl
  | some other =>
      have isSize := ShapedArray.measure_eq_ok measured
      subst isSize
      rw [each_beside (fits other rfl), measured]
      rfl

/-! ### The elements that meet -/

end Operation

/-- Reading an element ends with a value that counts as the same as itself. -/
structure ShapedArray.Offers (calling : Call H) (held : Memory H → Prop)
    (alike : Value → Value → Prop) (array : ShapedArray) (values : Nat → Value) : Prop where
  reads : array.HasValues calling held values
  same : ∀ index < array.count, alike (values index) (values index)

/-- The array stores something like each of the values, under the shape. -/
def Value.StoresLike (alike : Value → Value → Prop) (shape : Shape) (values : Nat → Value)
    (value : Value) : Prop :=
  ∃ array : ShapedArray, value = .array array ∧ array.shape = shape ∧
    ∀ index < shape.size, ∃ content,
      array.elementAt index = .value content ∧ alike (values index) content

namespace Operation

variable {right : ShapedArray} {left : Option Value} {values others : Nat → Value} {index : Nat}

/-- The left argument, if there is one, can be read and fits under the shape. -/
def IsBeside (calling : Call H) (held : Memory H → Prop) (alike : Value → Value → Prop)
    (shape : Shape) (left : Option Value) (others : Nat → Value) : Prop :=
  ∀ other, left = some other →
    other.toArray.Offers calling held alike others ∧ other.toArray.shape <:+ shape

/-- The element of the left argument that belongs to an index. -/
def besideAt (left : Option Value) (others : Nat → Value) (index : Nat) : Option Value :=
  left.map fun other => others (index % other.toArray.count)

theorem IsBeside.mod_lt (beside : IsBeside calling held alike right.shape left others)
    (inside : index < right.count) {other : Value} (isLeft : left = some other) :
    index % other.toArray.count < other.toArray.count := by
  obtain ⟨outer, parts⟩ := (beside other isLeft).2
  have filled := Nat.zero_lt_of_lt inside
  rw [ShapedArray.count, ← parts, Shape.size_append] at filled
  exact Nat.mod_lt _ (Nat.pos_of_mul_pos_left filled)

theorem IsBeside.same (beside : IsBeside calling held alike right.shape left others)
    (inside : index < right.count) :
    ∀ other, besideAt left others index = some other → alike other other := by
  intro other isBeside
  obtain ⟨array, isLeft, rfl⟩ := Option.map_eq_some_iff.1 isBeside
  exact (beside array isLeft).1.same _ (beside.mod_lt inside isLeft)

/-- The elements are read, and then the call is made. -/
theorem IsBeside.meet_eq (beside : IsBeside calling held alike right.shape left others)
    (reads : right.HasValues calling held values) (inside : index < right.count)
    (operation : Operation H) {memory : Memory H} (holds : held memory) :
    ∃ between, held between ∧ operation.meet right left index calling memory =
      operation (values index) (besideAt left others index) calling between := by
  cases left with
  | none =>
      obtain ⟨between, read, kept⟩ := reads index inside memory holds
      exact ⟨between, kept, Action.bind_of_ok read⟩
  | some other =>
      obtain ⟨middle, first, kept⟩ :=
        (beside other rfl).1.reads _ (beside.mod_lt inside rfl) memory holds
      obtain ⟨between, second, kept⟩ := reads index inside middle kept
      refine ⟨between, kept, (Action.bind_of_ok first).trans ?_⟩
      rw [Nat.mod_eq_of_lt inside]
      exact Action.bind_of_ok second

end Operation

/-! ### Taking back each call -/

namespace TakesBack

variable {act back : Operation H} {right : ShapedArray} {left : Option Value}
variable {values others : Nat → Value} {found : Value} {memory after : Memory H}

open Operation (IsBeside besideAt meet results)

/-- A call at an index that succeeds has given a result out of which the element is restored. -/
theorem meet_restores
    (takes : ∀ other : Option Value, (∀ beside, other = some beside → alike beside beside) →
      TakesBack calling held alike (fun right => act right other) (fun right => back right other))
    (offers : right.Offers calling held alike values)
    (beside : IsBeside calling held alike right.shape left others) {index : Nat}
    (inside : index < right.count) (holds : held memory)
    (ended : act.meet right left index calling memory = (.ok found, after)) :
    held after ∧ (back found (besideAt left others index)).Settles calling held alike
      (some (values index)) := by
  obtain ⟨between, kept, same⟩ := beside.meet_eq offers.reads inside act holds
  obtain ⟨kept, isFound, restore⟩ := takes _ (beside.same inside) _ (offers.same index inside)
    between found after kept (same.symm.trans ended)
  exact ⟨kept, restore found isFound⟩

/-- Results that are restored element by element are stored under the shape of the argument. -/
theorem storesLike_results {all : Array Value} (bounded : right.IsBounded)
    (restored : List.Forall₂ alike ((List.range right.count).map values) all.toList) :
    (Value.array (results right.shape all)).StoresLike alike right.shape values := by
  have length := restored.length_eq
  rw [List.length_map, List.length_range, Array.length_toList] at length
  refine ⟨_, rfl, Operation.shape_results bounded all, fun index inside => ?_⟩
  have there : index < all.size := length ▸ inside
  refine ⟨all[index], ?_, ?_⟩
  · rw [results, ShapedArray.elementAt_ofView _ _ _ _ index inside, ShapedArray.stored,
      Array.getElem?_eq_getElem there]
  · have ranged : index < ((List.range right.count).map values).length := by
      rwa [List.length_map, List.length_range]
    have agrees := (List.forall₂_iff_get.1 restored).2 index ranged there
    rwa [List.get_eq_getElem, List.getElem_map, List.getElem_range] at agrees

/-- Where an action takes back another with every left argument, it takes back, element by element,
what the other has done to an array, with the same left argument. -/
theorem each
    (takes : ∀ other : Option Value, (∀ beside, other = some beside → alike beside beside) →
      TakesBack calling held alike (fun right => act right other) (fun right => back right other))
    (made : right.IsMade calling) (offers : right.Offers calling held alike values)
    (beside : IsBeside calling held alike right.shape left others) (holds : held memory)
    (ended : act.each (.array right) left calling memory = (.ok found, after)) :
    held after ∧ (back.each found left).Settles calling held
      (fun values restored => restored.StoresLike alike right.shape values) (some values) := by
  have fits : ∀ other, left = some other → other.toArray.shape <:+ right.shape :=
    fun other isLeft => (beside other isLeft).2
  obtain ⟨size, measured⟩ := Operation.measure_of_each fits ended
  rw [Operation.each_eq measured fits] at ended
  obtain ⟨all, _, collected, ended⟩ := Action.bind_eq_ok.1 ended
  cases ended
  obtain ⟨kept, filled, runs⟩ := Action.reaches_of_collect
    (fun index inside memory value after holds ended =>
      (meet_restores takes offers beside inside holds ended).1) holds collected
  refine ⟨kept, ?_⟩
  have bounded := made.isBounded (ShapedArray.size_le_of_measure measured)
  have shape := Operation.shape_results bounded all
  have count : (results right.shape all).count = right.count := congrArg Shape.size shape
  have reads : (results right.shape all).HasValues calling held fun index => all.getD index .nil :=
    ShapedArray.hasValues_stored (Nat.le_of_eq filled.symm)
  have besideResults : IsBeside calling held alike (results right.shape all).shape left others := by
    rw [shape]
    exact beside
  have items : ∀ index < right.count, (back.meet (results right.shape all) left index).Settles
      calling held alike (some (values index)) := by
    intro index inside memory holds
    have there : index < all.size := filled ▸ inside
    obtain ⟨between, kept, same⟩ :=
      besideResults.meet_eq reads (count.symm ▸ inside) back holds
    obtain ⟨before, _, held, run⟩ := runs index there
    have content : all.getD index .nil = all[index] := by simp [there]
    rw [same, content]
    exact (meet_restores takes offers beside inside held run).2 between kept
  have settles : (do
      let restored ← collect (back.meet (results right.shape all) left) right.count
      return Value.array (results right.shape restored) : Action H Value).Settles calling held
        (fun values (restored : Value) => restored.StoresLike alike right.shape values)
        ((some ((List.range right.count).map values)).bind fun _ => some values) := by
    refine (Action.Settles.collect_range items).bind fun row restored isRow agrees => ?_
    cases isRow
    exact Action.settles_pure (storesLike_results bounded agrees)
  have measuredResults : ShapedArray.measure (results right.shape all).shape = .ok size := by
    rwa [shape]
  intro memory holds
  rw [Operation.each_eq measuredResults fun other isLeft => (besideResults other isLeft).2, count,
    shape]
  exact settles memory holds

end TakesBack

/-! ### The modifier -/

namespace Function

variable [Blocks H] {operand : Function} {stamp : Nat}

theorem apply_each (inverse : operand.hasInverse = true) (direction : Direction) (right : Value)
    (left : Option Value) :
    ((mk stamp (.each operand)).apply direction right left : Action H Value) =
      Operation.each (operand.apply direction) right left := by
  cases direction with
  | forward => rfl
  | backward => exact if_pos inverse

/-- A lawful function that declares an inverse is taken back element by element. -/
theorem IsLawful.each_restores (lawful : operand.IsLawful calling held alike)
    (inverse : operand.hasInverse = true) {direction : Direction} {right : ShapedArray}
    {left : Option Value} {values others : Nat → Value} (made : right.IsMade calling)
    (offers : right.Offers calling held alike values)
    (beside : Operation.IsBeside calling held alike right.shape left others)
    {memory after : Memory H} {found : Value} (holds : held memory)
    (ended : (mk stamp (.each operand)).apply direction (.array right) left calling memory =
      (.ok found, after)) :
    held after ∧ ((mk stamp (.each operand)).apply direction.turn found left).Settles calling held
      (fun values restored => restored.StoresLike alike right.shape values) (some values) := by
  rw [apply_each inverse] at ended ⊢
  exact TakesBack.each (lawful direction) made offers beside holds ended

end Function

end PointFree
