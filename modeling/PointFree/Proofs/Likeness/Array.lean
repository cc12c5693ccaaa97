import PointFree.Proofs.Likeness
import PointFree.Proofs.Views.Making

/-!
Contract: arrays that read alike.

Arrays that are alike have one shape, so every view of the one is alike to the same view of
the other: a view checks shapes and positions only, and goes to elements below the count.
A gather is taken up here where its indices are there as values, as the primitives make it.
-/

namespace PointFree.Likeness

variable {H : Type} {l : Likeness H} {array array' : ShapedArray} {value value' : Value}

/-! ### Observations of values -/

theorem Arrays.mk (view view' : View) (shape : Shape) {fill fill' : Option Value}
    {element element' : Nat → Element} (fills : Option.Rel l.Values fill fill')
    (elements : ∀ index < shape.size, l.Elements (element index) (element' index)) :
    l.Arrays (.mk view shape fill element) (.mk view' shape fill' element') := by
  cases fills with
  | none => exact .bare view view' shape elements
  | some fills => exact .padded view view' shape fills elements

theorem Arrays.shape_eq (arrays : l.Arrays array array') : array.shape = array'.shape := by
  cases arrays <;> rfl

theorem Arrays.fill (arrays : l.Arrays array array') :
    Option.Rel l.Values array.fill array'.fill := by
  cases arrays with
  | bare => exact .none
  | padded _ _ _ fills => exact .some fills

theorem Arrays.element (arrays : l.Arrays array array') {index : Nat}
    (inside : index < array.count) : l.Elements (array.element index) (array'.element index) := by
  cases arrays with
  | bare _ _ _ elements => exact elements index inside
  | padded _ _ _ _ elements => exact elements index inside

theorem Arrays.rank_eq (arrays : l.Arrays array array') : array.rank = array'.rank :=
  congrArg List.length arrays.shape_eq

theorem Arrays.count_eq (arrays : l.Arrays array array') : array.count = array'.count :=
  congrArg Shape.size arrays.shape_eq

theorem Arrays.length_eq (arrays : l.Arrays array array') : array.length = array'.length :=
  congrArg Shape.leading arrays.shape_eq

theorem Arrays.isEmpty_eq (arrays : l.Arrays array array') : array.isEmpty = array'.isEmpty := by
  rw [ShapedArray.isEmpty, ShapedArray.isEmpty, arrays.count_eq]

theorem Arrays.elementAt (arrays : l.Arrays array array') {index : Nat}
    (inside : index < array.count) :
    l.Elements (array.elementAt index) (array'.elementAt index) := by
  rw [ShapedArray.elementAt, ShapedArray.elementAt, if_pos inside,
    if_pos (arrays.count_eq ▸ inside)]
  exact arrays.element inside

theorem Values.shape_eq (values : l.Values value value') : value.shape = value'.shape := by
  cases values with
  | array arrays => exact arrays.shape_eq
  | number => rfl
  | character => rfl
  | function => rfl

theorem Values.rank_eq (values : l.Values value value') : value.rank = value'.rank :=
  congrArg List.length values.shape_eq

theorem Values.isArray_eq (values : l.Values value value') : value.isArray = value'.isArray := by
  cases values <;> rfl

/-! ### Arrays made of elements -/

theorem Arrays.nil : l.Arrays .nil .nil :=
  .bare _ _ [0] fun index inside => absurd inside (Nat.not_lt_zero index)

theorem Arrays.ofView (view view' : View) (shape : Shape) {fill fill' : Option Value}
    {element element' : Nat → Element} (fills : Option.Rel l.Values fill fill')
    (elements : ∀ index < shape.size, l.Elements (element index) (element' index)) :
    l.Arrays (.ofView view shape fill element) (.ofView view' shape fill' element') := by
  rw [ShapedArray.ofView, ShapedArray.ofView]
  split
  · exact .nil
  · exact .mk view view' shape fills elements

theorem Arrays.scalar (values : l.Values value value') :
    l.Arrays (.scalar value) (.scalar value') :=
  .bare _ _ [] fun _ _ => .value values

theorem Elements.stored {row row' : Array Value} (rows : Rows l.Values row row') {index : Nat}
    (inside : index < row.size) :
    l.Elements (ShapedArray.stored row index) (ShapedArray.stored row' index) := by
  rw [ShapedArray.stored, ShapedArray.stored]
  have found := rows.getElem? index
  rw [Array.getElem?_eq_getElem inside,
    Array.getElem?_eq_getElem (rows.size_eq ▸ inside)] at found ⊢
  cases found with
  | some values => exact .value values

theorem Values.list {row row' : Array Value} (rows : Rows l.Values row row') :
    l.Values (.list row) (.list row') := by
  rw [Value.list, Value.list, ShapedArray.list, ShapedArray.list, ← rows.size_eq]
  refine .array (.ofView _ _ _ .none fun index inside => Elements.stored rows ?_)
  simpa [Shape.size] using inside

theorem Values.toArray (values : l.Values value value') :
    l.Arrays value.toArray value'.toArray := by
  cases values with
  | array arrays => exact arrays
  | number number => exact .scalar (.number number)
  | character letter => exact .scalar (.character letter)
  | function contents => exact .scalar (.function contents)

theorem Rows.refl_of {row : Array Value} (items : ∀ item ∈ row, l.Values item item) :
    Rows l.Values row row :=
  List.forall₂_same.2 fun item member => items item (Array.mem_toList_iff.1 member)

theorem Rows.ofNats (numbers : List Nat) :
    Rows l.Values (numbers.map Value.ofNat).toArray (numbers.map Value.ofNat).toArray := by
  refine Rows.refl_of fun item member => ?_
  obtain ⟨number, _, rfl⟩ := List.mem_map.1 (by simpa using member)
  exact .number _

/-! ### What values are taken for -/

theorem Values.toNumber (values : l.Values value value') :
    Outcomes Eq value.toNumber value'.toNumber := by
  cases values with
  | number number => exact .ok rfl
  | character letter => exact .refuse _
  | array arrays => exact .refuse _
  | function contents => exact .refuse _

theorem Values.toIndex (values : l.Values value value') :
    Outcomes Eq value.toIndex value'.toIndex := by
  refine Outcomes.bind values.toNumber fun same => ?_
  cases same
  exact .same _

theorem Values.toInteger (values : l.Values value value') :
    Outcomes Eq value.toInteger value'.toInteger := by
  refine Outcomes.bind values.toNumber fun same => ?_
  cases same
  exact .same _

/-! ### Views -/

theorem Arrays.build (view : View) (shape : Shape) {fill fill' : Option Value}
    {element element' : Nat → Element} (fills : Option.Rel l.Values fill fill')
    (elements : ∀ index < shape.size, l.Elements (element index) (element' index)) :
    Outcomes l.Arrays (ShapedArray.build view shape fill element)
      (ShapedArray.build view shape fill' element') :=
  (Outcomes.same _).map fun _ => .ofView view view shape fills elements

theorem Arrays.filled (shape : Shape) {row row' : Array Value} {fill fill' : Option Value}
    (rows : Rows l.Values row row') (fills : Option.Rel l.Values fill fill') :
    Outcomes l.Arrays (ShapedArray.filled shape row fill)
      (ShapedArray.filled shape row' fill') := by
  refine Outcomes.bind ((Outcomes.same _).and ShapedArray.measure_eq_ok) ?_
  rintro size _ ⟨rfl, measured⟩
  rw [← rows.size_eq]
  split
  · next fits =>
      refine .ok (.ofView _ _ _ fills fun index inside => Elements.stored rows ?_)
      rwa [← fits, measured]
  · exact .refuse _

theorem Arrays.new (shape : Shape) {row row' : Array Value} (rows : Rows l.Values row row') :
    Outcomes l.Arrays (ShapedArray.new shape row) (ShapedArray.new shape row') :=
  Arrays.filled shape rows .none

theorem Arrays.slice (arrays : l.Arrays array array') (start extent : Nat) :
    Outcomes l.Arrays (array.slice start extent) (array'.slice start extent) := by
  rw [ShapedArray.slice, ShapedArray.slice, ← arrays.rank_eq, ← arrays.length_eq,
    ← arrays.shape_eq]
  split
  · exact .refuse _
  split
  · exact .refuse _
  split
  · exact .ok arrays
  · next ranked past _ =>
      refine Arrays.build _ _ arrays.fill fun index inside => arrays.elementAt ?_
      exact ShapedArray.slice_lt ranked (Nat.le_of_not_lt past) inside

theorem Arrays.selectRank (arrays : l.Arrays array array') (position : List Nat) :
    Outcomes l.Arrays (array.selectRank position) (array'.selectRank position) := by
  rw [ShapedArray.selectRank, ShapedArray.selectRank, ← arrays.rank_eq, ← arrays.shape_eq]
  split
  · exact .refuse _
  · next fits =>
      refine Outcomes.bind ((Outcomes.same _).and id) ?_
      rintro offset _ ⟨rfl, found⟩
      refine Arrays.build _ _ arrays.fill fun index inside => arrays.elementAt ?_
      exact ShapedArray.offsetFrom_lt found (Nat.le_of_not_lt fits) inside

theorem Arrays.reshape (arrays : l.Arrays array array') (shape : Shape) :
    Outcomes l.Arrays (array.reshape shape) (array'.reshape shape) := by
  refine Outcomes.bind (Outcomes.same _) ?_
  rintro size _ rfl
  rw [← arrays.isEmpty_eq, ← arrays.shape_eq, ← arrays.count_eq]
  split
  · exact .ok .nil
  split
  · exact .refuse _
  split
  · exact .ok arrays
  · next filled _ =>
      refine .ok (.ofView _ _ _ arrays.fill fun index _ => arrays.elementAt ?_)
      exact Nat.mod_lt _ (by simpa [ShapedArray.isEmpty, Nat.pos_iff_ne_zero] using filled)

/-- A gather whose indices are settled takes no call, and each of them names an element. -/
theorem Arrays.gather (arrays : l.Arrays array array') {indices : ShapedArray}
    (settled : ∀ index, ∃ outcome, (indices.elementAt index).settled? = some outcome) :
    l.Twins l.Arrays (array.gather indices) (array'.gather indices) := by
  choose named isNamed using settled
  have check (count index : Nat) : (do
      let named ← indices.pick index
      named.toPlace count : Action H Nat) =
        Action.ofOutcome ((named index).bind fun found => found.toPlace count) := by
    rw [ShapedArray.pick, Element.force_of_settled (isNamed index)]
    cases named index <;> rfl
  rw [ShapedArray.gather, ShapedArray.gather, ← arrays.count_eq]
  simp only [check, collect_ofOutcome]
  refine Twins.bind (Twins.lift ((Outcomes.same _).and (collect_eq_ok _ _ _).1)) ?_
  rintro places _ ⟨rfl, size, checked⟩
  refine Twins.lift (Arrays.build _ _ arrays.fill fun index inside => ?_)
  have below : index < places.size := size ▸ inside
  obtain ⟨found, isFound, isPlace⟩ := Outcome.bind_eq_ok.1 (checked index below)
  have isValue : indices.elementAt index = .value found := by
    have settled := isNamed index
    rw [isFound] at settled
    cases element : indices.elementAt index <;> rw [element] at settled <;> cases settled
    rfl
  rw [isValue, ShapedArray.elementNamed, ShapedArray.elementNamed, ← arrays.count_eq, isPlace]
  exact arrays.element (Value.toPlace_lt isPlace)

/-! ### Reading -/

variable [l.Lawful]

theorem Elements.steady {element element' : Element} (elements : l.Elements element element') :
    l.Steadily l.Values element.force element'.force := by
  cases elements with
  | value values => exact Steadily.ofOutcome (.ok values)
  | pending reads => exact Lawful.force reads

theorem Arrays.steady (arrays : l.Arrays array array') (index : Nat) :
    l.Steadily l.Values (array.pick index) (array'.pick index) := by
  rcases Nat.lt_or_ge index array.count with inside | outside
  · exact (arrays.elementAt inside).steady
  · rw [ShapedArray.pick_of_count_le array index outside,
      ShapedArray.pick_of_count_le array' index (arrays.count_eq ▸ outside), arrays.count_eq]
    exact Steadily.ofOutcome (.refuse _)

theorem Arrays.pick (arrays : l.Arrays array array') (index : Nat) :
    l.Twins l.Values (array.pick index) (array'.pick index) :=
  (arrays.steady index).twins

theorem Arrays.elements (arrays : l.Arrays array array') :
    l.Twins (Rows l.Values) array.elements array'.elements := by
  rw [ShapedArray.elements, ShapedArray.elements, ← arrays.count_eq]
  exact (Twins.collect fun index _ => arrays.pick index).imp Collected.rows

theorem Values.ofCell (arrays : l.Arrays array array') :
    l.Twins l.Values (Value.ofCell array) (Value.ofCell array') := by
  rw [Value.ofCell, Value.ofCell, arrays.rank_eq]
  split
  · exact arrays.pick 0
  · exact Twins.pure (.array arrays)

/-! ### Cells -/

theorem Arrays.cellAt (arrays : l.Arrays array array') (position : List Nat) :
    l.Twins l.Values (array.cellAt position) (array'.cellAt position) :=
  Twins.bind (Twins.lift (arrays.selectRank position)) fun cells => Values.ofCell cells

theorem Arrays.majorCells (arrays : l.Arrays array array') :
    l.Twins (Rows l.Values) array.majorCells array'.majorCells := by
  rw [ShapedArray.majorCells, ShapedArray.majorCells, arrays.rank_eq, arrays.isEmpty_eq,
    arrays.length_eq]
  split
  · exact Twins.bind (arrays.pick 0) fun values => Twins.pure (.cons values .nil)
  split
  · exact Twins.pure .nil
  · exact (Twins.collect fun index _ => arrays.cellAt [index]).imp Collected.rows

theorem Twins.appendItem (inner : Shape) {data data' : Array Value} {item item' : Value}
    (rows : Rows l.Values data data') (items : l.Values item item') :
    l.Twins (Rows l.Values) (ShapedArray.appendItem inner data item)
      (ShapedArray.appendItem inner data' item') := by
  have alone {leaf : Value} (leaves : l.Values leaf leaf) :
      l.Twins (Rows l.Values)
        (if inner = [] then Pure.pure (data.push leaf)
          else Action.refuse (.unmergeableScalar inner))
        (if inner = [] then Pure.pure (data'.push leaf)
          else Action.refuse (.unmergeableScalar inner)) := by
    split
    · exact Twins.pure (rows.push leaves)
    · exact Twins.refuse _
  cases items with
  | number number => exact alone (.number number)
  | character letter => exact alone (.character letter)
  | function contents => exact alone (.function contents)
  | array arrays =>
      rw [ShapedArray.appendItem, ShapedArray.appendItem, arrays.shape_eq]
      split
      · exact Twins.bind arrays.elements fun more => Twins.pure (rows.append more)
      · exact Twins.refuse _

theorem Arrays.merge {items items' : Array Value} {fill fill' : Option Value}
    (rows : Rows l.Values items items') (fills : Option.Rel l.Values fill fill')
    (outer : Shape) :
    l.Twins l.Arrays (ShapedArray.merge items fill outer)
      (ShapedArray.merge items' fill' outer) := by
  rw [ShapedArray.merge, ShapedArray.merge]
  by_cases misfit : outer.size ≠ items.size
  · rw [if_pos misfit, if_pos (rows.size_eq ▸ misfit), rows.size_eq]
    exact Twins.refuse _
  rw [if_neg misfit, if_neg (rows.size_eq ▸ misfit)]
  generalize one : items[0]? = found
  generalize two : items'[0]? = found'
  cases one ▸ two ▸ rows.getElem? 0 with
  | none => exact Twins.pure .nil
  | @some first first' firsts =>
      dsimp only
      rw [firsts.shape_eq]
      refine Twins.bind (Twins.lift (.same _)) fun _ => ?_
      refine Twins.bind (A := Rows l.Values) ?_ fun data => ?_
      · exact Twins.foldRow (A := l.Values) (Twins.appendItem _) rows .nil
      · exact Twins.lift (Arrays.filled _ data fills)

theorem Arrays.mergeList {items items' : Array Value} {fill fill' : Option Value}
    (rows : Rows l.Values items items') (fills : Option.Rel l.Values fill fill') :
    l.Twins l.Arrays (ShapedArray.mergeList items fill)
      (ShapedArray.mergeList items' fill') := by
  rw [ShapedArray.mergeList, ShapedArray.mergeList, rows.size_eq]
  exact Arrays.merge rows fills _

theorem Arrays.fillOrDefault (arrays : l.Arrays array array') :
    l.Twins l.Values array.fillOrDefault array'.fillOrDefault := by
  rw [ShapedArray.fillOrDefault, ShapedArray.fillOrDefault]
  generalize one : array.fill = fill
  generalize two : array'.fill = fill'
  cases one ▸ two ▸ arrays.fill with
  | some fills => exact Twins.pure fills
  | none =>
      refine Twins.bind (arrays.steady 0).attempt fun outcomes => ?_
      cases outcomes with
      | error failure => exact Twins.pure (.number _)
      | ok values =>
          cases values with
          | character letter => exact Twins.pure (.character _)
          | number number => exact Twins.pure (.number _)
          | array arrays => exact Twins.pure (.number _)
          | function contents => exact Twins.pure (.number _)

end PointFree.Likeness
