import PointFree.Proofs.Broadcasting
import PointFree.Proofs.Meaning.Evaluation
import PointFree.Proofs.Restoring.Trees
import PointFree.Proofs.Restoring.Whole

/-!
Contract: the value of the written form of data.

The tree of data has literals, lists and calls of two primitives: one makes an array without axes,
the other gives a list other axes. The elements of what they make are there at once, so the value
shows what is read of the written form.
-/

namespace PointFree

/-! ### Values that are there -/

/-- The element is the value, and nothing has to be computed. -/
def Element.Holds (element : Element) (content : Value) : Prop :=
  element = .value content

namespace Value

variable {H : Type} {calling : Call H}

theorem Shows.isRead {value : Value} {datum : Datum} (shows : value.Shows Element.Holds datum) :
    value.Shows (Element.Reads calling) datum := by
  induction shows with
  | number amount => exact .number amount
  | character letter => exact .character letter
  | array count holds _ inductionHypothesis =>
      refine .array count (fun index inside => ?_) inductionHypothesis
      rw [holds index inside]
      exact Action.yields_pure _

end Value

namespace ShapedArray

/-- The elements of a list, with other axes. -/
def table (shape : Shape) (values : List Value) : ShapedArray :=
  .mk .reshape shape (list values.toArray).fill fun index =>
    (list values.toArray).elementAt (index % values.length)

end ShapedArray

namespace Value

/-- An array shows the data that the values of its elements show. -/
theorem Shows.ofValues {array : ShapedArray} {values : List Value} {items : List Datum}
    (shown : List.Forall₂ (Shows Element.Holds) values items) (count : array.count = values.length)
    (element : ∀ (index : Nat) (inside : index < values.length),
      array.element index = .value values[index]) :
    (Value.array array).Shows Element.Holds (.array array.shape items) := by
  have length := shown.length_eq
  let content (index : Nat) : Value := values[index]?.getD .nil
  have same {index : Nat} (inside : index < values.length) : content index = values[index] := by
    simp [content, inside]
  have holds : ∀ index < items.length, Element.Holds (array.element index) (content index) := by
    intro index inside
    rw [← length] at inside
    rw [Element.Holds, element index inside, same inside]
  refine .array (count.trans length) holds fun index inside => ?_
  have there : index < values.length := length ▸ inside
  rw [same there]
  exact (List.forall₂_iff_get.1 shown).2 index there inside

/-- Values in a list show a list. -/
theorem Shows.list {values : List Value} {items : List Datum}
    (shown : List.Forall₂ (Shows Element.Holds) values items) :
    (Value.list values.toArray).Shows Element.Holds (.array [items.length] items) := by
  have count : (ShapedArray.list values.toArray).count = values.length := by
    rw [ShapedArray.count_list, List.size_toArray]
  have shows := ofValues shown count fun index inside => by
    have element : (ShapedArray.list values.toArray).elementAt index = .value values[index] :=
      ShapedArray.elementAt_list (by rwa [List.size_toArray])
    rwa [ShapedArray.elementAt, if_pos (by rwa [count])] at element
  rwa [ShapedArray.shape_list, List.size_toArray, shown.length_eq] at shows

/-- A text shows its characters in a list. -/
theorem shows_ofString (text : String) : (ofString text).Shows Element.Holds
    (.array [text.toList.length] (text.toList.map .character)) := by
  have shown : List.Forall₂ (Shows Element.Holds) (text.toList.map Value.character)
      (text.toList.map Datum.character) := by
    rw [List.forall₂_map_left_iff, List.forall₂_map_right_iff, List.forall₂_same]
    exact fun letter _ => .character letter
  rw [ofString, ← List.length_map Datum.character]
  exact .list shown

/-- Values in a table show a table. -/
theorem Shows.table {shape : Shape} {values : List Value} {items : List Datum}
    (shown : List.Forall₂ (Shows Element.Holds) values items) (size : shape.size = values.length) :
    (Value.array (.table shape values)).Shows Element.Holds (.array shape items) := by
  change (Value.array (.table shape values)).Shows Element.Holds
    (.array (ShapedArray.table shape values).shape items)
  refine ofValues shown size fun index inside => ?_
  have element : (ShapedArray.list values.toArray).elementAt index = .value values[index] :=
    ShapedArray.elementAt_list (by rwa [List.size_toArray])
  rw [ShapedArray.table, ShapedArray.element, Nat.mod_eq_of_lt inside, element]

end Value

/-! ### Lengths of axes -/

/-- An axis is no longer than the whole. -/
theorem Shape.axis_le_size {shape : Shape} (filled : 0 < shape.size) {axis : Nat}
    (member : axis ∈ shape) : 0 < axis ∧ axis ≤ shape.size := by
  induction shape with
  | nil => cases member
  | cons first shape inductionHypothesis =>
      rw [size_cons] at filled ⊢
      have here : 0 < first := Nat.pos_of_mul_pos_right filled
      have rest : 0 < Shape.size shape := Nat.pos_of_mul_pos_left filled
      rcases List.mem_cons.1 member with rfl | later
      · exact ⟨here, Nat.le_mul_of_pos_right _ rest⟩
      · obtain ⟨positive, small⟩ := inductionHypothesis rest later
        exact ⟨positive, small.trans (Nat.le_mul_of_pos_left _ here)⟩

namespace ShapedArray

theorem axisOfNumber_axisNumber {axis : Nat} (positive : 0 < axis) (small : axis ≤ sizeLimit) :
    axisOfNumber (Datum.axisNumber axis) = .ok axis := by
  have limit : sizeLimit = 16777216 := rfl
  have largest : indexMax = 18446744073709551615 := rfl
  rw [axisOfNumber, Datum.axisNumber, Decimal.toInt?_nearest (by omega)]
  dsimp only
  rw [if_neg (by omega), Int.toNat_natCast, Nat.min_eq_left (by omega)]

variable {shape : Shape}

theorem shapeOfNumbers_axisNumber (filled : 0 < shape.size) (small : shape.size ≤ sizeLimit) :
    shapeOfNumbers (shape.map Datum.axisNumber) = .ok (shape, shape.size) := by
  have axes : (shape.map Datum.axisNumber).mapM axisOfNumber = .ok shape := by
    have each (axis : Nat) (member : axis ∈ shape) :
        axisOfNumber (Datum.axisNumber axis) = .ok axis := by
      obtain ⟨positive, below⟩ := Shape.axis_le_size filled member
      exact axisOfNumber_axisNumber positive (below.trans small)
    clear filled small
    induction shape with
    | nil => rfl
    | cons axis shape inductionHypothesis =>
        obtain ⟨here, later⟩ := List.forall_mem_cons.1 each
        rw [List.map_cons, List.mapM_cons, here, inductionHypothesis later]
        rfl
  rw [shapeOfNumbers, axes]
  change (measure shape).bind _ = _
  rw [measure_of_size filled small]
  rfl

/-- A list as a table of so many elements. -/
theorem reshape_list {values : List Value} (several : 1 < shape.length)
    (size : shape.size = values.length) (filled : values ≠ []) (small : values.length ≤ sizeLimit) :
    (list values.toArray).reshape shape = .ok (table shape values) := by
  have length := List.length_pos_iff.2 filled
  have other : shape ≠ (list values.toArray).shape := by
    intro same
    rw [same, shape_list] at several
    exact absurd several (Nat.lt_irrefl 1)
  have count : (list values.toArray).count = values.length := by simp [count_list]
  have some : (list values.toArray).isEmpty = false := by simp [isEmpty, count, filled]
  have positive : 0 < shape.size := size ▸ length
  rw [reshape, measure_of_size positive (size ▸ small), count]
  change (if shape.size = 0 then _ else _) = _
  rw [if_neg positive.ne', some, if_neg Bool.false_ne_true, if_neg other, ofView,
    if_neg positive.ne', table]

end ShapedArray

/-! ### Calls of primitives -/

section Calls

variable {H : Type} {calling : Call H}

theorem yields_dimensions (calling : Call H) (numbers : List Float) :
    (Cellwise.dimensions (.list (numbers.map Value.number).toArray) :
      Action H (Array Float)).Yields calling (.ok numbers.toArray) := by
  have count : (ShapedArray.list (numbers.map Value.number).toArray).count = numbers.length := by
    rw [ShapedArray.count_list, List.size_toArray, List.length_map]
  change (Cellwise.taken _ _).Yields _ _
  rw [Cellwise.taken, count]
  refine Action.Yields.collect_ok fun index inside => ?_
  rw [ShapedArray.pick, ShapedArray.elementAt_list (by simpa using inside)]
  rw [List.getElem_toArray, List.getElem_map]
  exact fun memory => rfl

/-- A list of values with other axes. -/
theorem yields_reshape {shape : Shape} {values : List Value} (several : 1 < shape.length)
    (size : shape.size = values.length) (filled : values ≠ []) (small : values.length ≤ sizeLimit) :
    (Cellwise.reshape (.list (shape.map fun axis => .number (Datum.axisNumber axis)).toArray)
      (.list values.toArray) : Action H Value).Yields calling
        (.ok (.array (.table shape values))) := by
  have length := List.length_pos_iff.2 filled
  have numbers := yields_dimensions calling (shape.map Datum.axisNumber)
  rw [List.map_map] at numbers
  have measured := ShapedArray.shapeOfNumbers_axisNumber (size ▸ length) (size ▸ small)
  intro memory
  refine (Action.bind_of_ok (numbers memory)).trans ?_
  rw [measured]
  refine (Action.bind_of_ok rfl).trans ?_
  change (do
    let reshaped ← (ShapedArray.list values.toArray).reshape shape
    return Value.array reshaped : Action H Value) calling memory = _
  rw [ShapedArray.reshape_list several size filled small]
  rfl

end Calls

/-- A call of a primitive is what the primitive does. -/
theorem yields_call {H : Type} [Blocks H] {primitive : Primitive} {right : Value}
    {left : Option Value} {outcome : Outcome Value} {budget : Nat} (positive : 0 < budget)
    (applies : ∀ calling : Call H, (primitive.apply right left).Yields calling outcome)
    (stamp : Nat) :
    (Value.call (.function (.mk stamp (.primitive primitive))) right left : Action H Value).Yields
      (callAt budget) outcome := by
  obtain ⟨fewer, rfl⟩ := Nat.exists_eq_succ_of_ne_zero positive.ne'
  exact applies (callAt fewer)

/-! ### Trees -/

theorem Vocabulary.value?_less :
    (standardFrom 0).value? "<" = some (.function (.mk 14 (.primitive .less))) :=
  rfl

theorem Vocabulary.value?_reshape :
    (standardFrom 0).value? "⥊" = some (.function (.mk 22 (.primitive .reshape))) :=
  rfl

namespace Datum

variable {standpoint : Standpoint} {calling : Call Lexical}

theorem yields_evaluateAll {expressions : List Expression} {values : List Value}
    (evaluated : List.Forall₂ (fun expression value =>
      (expression.evaluate standpoint).Yields calling (.ok value)) expressions values) :
    (Expression.evaluateAll standpoint expressions).Yields calling (.ok values) := by
  induction evaluated with
  | nil => exact Action.yields_pure _
  | cons here _ inductionHypothesis =>
      intro memory
      refine (Action.bind_of_ok (here memory)).trans ?_
      exact Action.bind_of_ok (inductionHypothesis memory)

theorem yields_list {expressions : List Expression} {values : List Value}
    (evaluated : List.Forall₂ (fun expression value =>
      (expression.evaluate standpoint).Yields calling (.ok value)) expressions values) :
    ((Expression.list expressions).evaluate standpoint).Yields calling
      (.ok (.list values.toArray)) :=
  fun memory => Action.bind_of_ok (yields_evaluateAll evaluated memory)

theorem yields_primitive {word : String} {value : Value}
    (known : standpoint.vocabulary.value? word = some value) :
    ((Expression.primitive word).evaluate standpoint).Yields calling (.ok value) := by
  rw [Expression.evaluate, known]
  exact Action.yields_pure _

/-- The tree of the data has a value from every memory, and it shows what is read. -/
def IsComputed (standpoint : Standpoint) (calling : Call Lexical) (datum : Datum) : Prop :=
  ∃ value, (datum.expression.evaluate standpoint).Yields calling (.ok value) ∧
    value.Shows Element.Holds datum.restored

theorem IsComputed.items {items : List Datum}
    (computed : ∀ item ∈ items, item.IsComputed standpoint calling) :
    ∃ values : List Value,
      ((Expression.list (items.map expression)).evaluate standpoint).Yields calling
        (.ok (.list values.toArray)) ∧
      List.Forall₂ (Value.Shows Element.Holds) values (items.map restored) := by
  suffices each : ∃ values : List Value,
      List.Forall₂ (fun expression value =>
        (expression.evaluate standpoint).Yields calling (.ok value)) (items.map expression) values ∧
      List.Forall₂ (Value.Shows Element.Holds) values (items.map restored) by
    obtain ⟨values, evaluated, shown⟩ := each
    exact ⟨values, yields_list evaluated, shown⟩
  induction items with
  | nil => exact ⟨[], .nil, .nil⟩
  | cons item items inductionHypothesis =>
      obtain ⟨⟨value, evaluated, shows⟩, later⟩ := List.forall_mem_cons.1 computed
      obtain ⟨values, allEvaluated, shown⟩ := inductionHypothesis later
      exact ⟨value :: values, .cons evaluated allEvaluated, .cons shows shown⟩

theorem IsLegible.isComputed {brackets : Nat} {datum : Datum} (legible : datum.IsLegible brackets)
    (vocabulary : standpoint.vocabulary = .standardFrom 0) {budget : Nat} (positive : 0 < budget) :
    datum.IsComputed standpoint (callAt budget) := by
  induction legible with
  | number =>
      rw [IsComputed, expression, restored]
      exact ⟨_, Action.yields_pure _, .number _⟩
  | character letter =>
      rw [IsComputed, expression, restored]
      exact ⟨_, Action.yields_pure _, .character letter⟩
  | @text _ text some _ =>
      refine ⟨.ofString (String.ofList text), ?_, ?_⟩
      · rw [expression_text some, Expression.evaluate]
        exact Action.yields_pure _
      · have same : (text.map Datum.character).map restored = text.map Datum.character := by
          rw [List.map_map]
          rfl
        have shows := Value.shows_ofString (String.ofList text)
        rw [String.toList_ofList] at shows
        rwa [restored, restoredOfAll_eq, same]
  | @list _ items none _ inductionHypothesis =>
      obtain ⟨values, evaluated, shown⟩ := IsComputed.items inductionHypothesis
      refine ⟨.list values.toArray, ?_, ?_⟩
      · rwa [expression_list none]
      · rw [restored, restoredOfAll_eq, ← List.length_map restored]
        exact .list shown
  | @boxed _ content _ inductionHypothesis =>
      obtain ⟨value, evaluated, shows⟩ := inductionHypothesis
      refine ⟨.array (.scalar value), ?_, ?_⟩
      · have function : ((Expression.primitive "<").evaluate standpoint).Yields (callAt budget)
            (.ok (.function (.mk 14 (.primitive .less)))) :=
          yields_primitive (vocabulary ▸ Vocabulary.value?_less)
        rw [expression_boxed]
        intro memory
        refine (Action.bind_of_ok (evaluated memory)).trans ?_
        refine (Action.bind_of_ok (function memory)).trans ?_
        exact yields_call positive (fun _ => Action.yields_pure _) 14 memory
      · rw [restored, restoredOfAll_eq, List.map_singleton]
        exact .ofValues (.cons shows .nil) rfl fun index inside => by
          obtain rfl : index = 0 := Nat.lt_one_iff.1 inside
          rfl
  | @table _ shape items several size filled small _ inductionHypothesis =>
      obtain ⟨values, evaluated, shown⟩ := IsComputed.items inductionHypothesis
      have length : items.length = values.length := by rw [shown.length_eq, List.length_map]
      have some : values ≠ [] := by
        rw [← List.length_pos_iff, ← length]
        exact List.length_pos_iff.2 filled
      have function : ((Expression.primitive "⥊").evaluate standpoint).Yields (callAt budget)
          (.ok (.function (.mk 22 (.primitive .reshape)))) :=
        yields_primitive (vocabulary ▸ Vocabulary.value?_reshape)
      have axes : ((Expression.list (shape.map fun axis => .number (axisNumber axis))).evaluate
          standpoint).Yields (callAt budget)
            (.ok (.list (shape.map fun axis => Value.number (axisNumber axis)).toArray)) := by
        refine yields_list ?_
        rw [List.forall₂_map_left_iff, List.forall₂_map_right_iff, List.forall₂_same]
        exact fun axis _ => Action.yields_pure _
      refine ⟨.array (.table shape values), ?_, ?_⟩
      · rw [expression_table several]
        intro memory
        refine (Action.bind_of_ok (evaluated memory)).trans ?_
        refine (Action.bind_of_ok (function memory)).trans ?_
        refine (Action.bind_of_ok (axes memory)).trans ?_
        exact yields_call positive
          (fun _ => yields_reshape several (size.trans length) some (length ▸ small)) 22 memory
      · rw [restored, restoredOfAll_eq]
        exact .table shown (size.trans length)

end Datum

end PointFree
