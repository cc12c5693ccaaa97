import PointFree.Proofs.Correspondence.Loop
import PointFree.ShapedArray.Cells

/-!
Contract: arrays that correspond.

Corresponding arrays have one shape and corresponding elements, so every view of
the one corresponds to the same view of the other, and reading them goes the same
way.

What makes an array from others checks shapes and positions, which are the same
on both sides, and then reads elements, which correspond.
-/

namespace PointFree.Correspondence

variable {H K : Type} {c : Correspondence H K} {W : c.World}

/-! ### Observations of values -/

theorem Arrays.shape_eq {array array' : ShapedArray} (arrays : c.Arrays W array array') :
    array.shape = array'.shape := by
  cases arrays <;> rfl

theorem Arrays.fill {array array' : ShapedArray} (arrays : c.Arrays W array array') :
    Options c.Values W array.fill array'.fill := by
  cases arrays with
  | bare => exact .none
  | padded _ _ fills => exact .some fills

theorem Arrays.element {array array' : ShapedArray} (arrays : c.Arrays W array array')
    (index : Nat) : c.Elements W (array.element index) (array'.element index) := by
  cases arrays with
  | bare _ _ elements => exact elements index
  | padded _ _ _ elements => exact elements index

theorem Arrays.mk (view : View) (shape : Shape) {fill fill' : Option Value}
    {element element' : Nat → Element} (fills : Options c.Values W fill fill')
    (elements : ∀ index, c.Elements W (element index) (element' index)) :
    c.Arrays W (.mk view shape fill element) (.mk view shape fill' element') := by
  cases fills with
  | none => exact .bare view shape elements
  | some fills => exact .padded view shape fills elements

theorem Arrays.rank_eq {array array' : ShapedArray} (arrays : c.Arrays W array array') :
    array.rank = array'.rank :=
  congrArg List.length arrays.shape_eq

theorem Arrays.count_eq {array array' : ShapedArray} (arrays : c.Arrays W array array') :
    array.count = array'.count :=
  congrArg Shape.size arrays.shape_eq

theorem Arrays.length_eq {array array' : ShapedArray} (arrays : c.Arrays W array array') :
    array.length = array'.length :=
  congrArg Shape.leading arrays.shape_eq

theorem Arrays.isEmpty_eq {array array' : ShapedArray} (arrays : c.Arrays W array array') :
    array.isEmpty = array'.isEmpty := by
  rw [ShapedArray.isEmpty, ShapedArray.isEmpty, arrays.count_eq]

theorem Values.isArray_eq {value value' : Value} (values : c.Values W value value') :
    value.isArray = value'.isArray := by
  cases values <;> rfl

theorem Values.shape_eq {value value' : Value} (values : c.Values W value value') :
    value.shape = value'.shape := by
  cases values with
  | array arrays => exact arrays.shape_eq
  | number => rfl
  | character => rfl
  | function => rfl

theorem Values.rank_eq {value value' : Value} (values : c.Values W value value') :
    value.rank = value'.rank :=
  congrArg List.length values.shape_eq

/-! ### Arrays made of elements -/

theorem Elements.refuse {fault : Fault} (inside : fault.isAddressing = false) :
    c.Elements W (.failure (.ofFault fault)) (.failure (.ofFault fault)) :=
  .failure (.ofFault (c.faults_refl fault inside))

theorem Arrays.elementAt {array array' : ShapedArray} (arrays : c.Arrays W array array')
    (index : Nat) : c.Elements W (array.elementAt index) (array'.elementAt index) := by
  rw [ShapedArray.elementAt, ShapedArray.elementAt, arrays.count_eq]
  split
  · exact arrays.element index
  · exact .refuse rfl

theorem Arrays.nil : c.Arrays W .nil .nil :=
  .bare _ _ fun _ => .refuse rfl

theorem Arrays.ofView (view : View) (shape : Shape) {fill fill' : Option Value}
    {element element' : Nat → Element} (fills : Options c.Values W fill fill')
    (elements : ∀ index, c.Elements W (element index) (element' index)) :
    c.Arrays W (.ofView view shape fill element) (.ofView view shape fill' element') := by
  rw [ShapedArray.ofView, ShapedArray.ofView]
  split
  · exact .nil
  · exact .mk view shape fills elements

theorem Arrays.scalar {content content' : Value} (values : c.Values W content content') :
    c.Arrays W (.scalar content) (.scalar content') :=
  .bare _ _ fun _ => .value values

theorem Elements.stored {row row' : Array Value} (rows : Rows c.Values W row row')
    (index : Nat) :
    c.Elements W (ShapedArray.stored row index) (ShapedArray.stored row' index) := by
  rw [ShapedArray.stored, ShapedArray.stored, rows.size_eq]
  generalize one : row[index]? = found
  generalize two : row'[index]? = found'
  cases one ▸ two ▸ rows.getElem? index with
  | none => exact .refuse rfl
  | some values => exact .value values

theorem Values.list {row row' : Array Value} (rows : Rows c.Values W row row') :
    c.Values W (.list row) (.list row') := by
  rw [Value.list, Value.list, ShapedArray.list, ShapedArray.list, rows.size_eq]
  exact .array (.ofView _ _ .none (Elements.stored rows))

theorem Values.toArray {value value' : Value} (values : c.Values W value value') :
    c.Arrays W value.toArray value'.toArray := by
  cases values with
  | array arrays => exact arrays
  | number number => exact .scalar (.number number)
  | character letter => exact .scalar (.character letter)
  | function functions => exact .scalar (.function functions)

theorem Lists.refl_of {α : Type} {A : c.World → α → α → Prop} (list : List α)
    (items : ∀ item ∈ list, A W item item) : Lists A W list list :=
  List.forall₂_same.2 items

theorem Values.ofNats (numbers : List Nat) :
    Rows c.Values W (numbers.map Value.ofNat).toArray (numbers.map Value.ofNat).toArray := by
  refine Lists.refl_of _ fun item member => ?_
  obtain ⟨number, _, rfl⟩ := List.mem_map.1 (by simpa using member)
  exact .number _

theorem Values.ofString (text : String) : c.Values W (.ofString text) (.ofString text) := by
  refine .list (Lists.refl_of _ fun item member => ?_)
  obtain ⟨letter, _, rfl⟩ := List.mem_map.1 (by simpa using member)
  exact .character letter

/-! ### What values are taken for -/

theorem Values.toNumber {value value' : Value} (values : c.Values W value value') :
    c.Outcomes (c.Same W) value.toNumber value'.toNumber := by
  cases values with
  | number number => exact .ok rfl
  | character letter => exact .refuse rfl
  | array arrays => exact .refuse rfl
  | function functions => exact .refuse rfl

theorem Values.toIndex {value value' : Value} (values : c.Values W value value') :
    c.Outcomes (c.Same W) value.toIndex value'.toIndex := by
  refine Outcomes.bind values.toNumber fun {number _} same => ?_
  cases same
  cases Decimal.toInt? number with
  | none => exact .refuse rfl
  | some whole =>
      dsimp only
      split
      · exact .refuse rfl
      · exact .ok rfl

theorem Values.toInteger {value value' : Value} (values : c.Values W value value') :
    c.Outcomes (c.Same W) value.toInteger value'.toInteger := by
  refine Outcomes.bind values.toNumber fun {number _} same => ?_
  cases same
  cases Decimal.toInt? number with
  | none => exact .refuse rfl
  | some whole => exact .ok rfl

theorem Values.toPlace {value value' : Value} (values : c.Values W value value') (count : Nat) :
    c.Outcomes (c.Same W) (value.toPlace count) (value'.toPlace count) := by
  refine Outcomes.bind values.toIndex fun {place _} same => ?_
  cases same
  split
  · exact .ok rfl
  · exact .refuse rfl

/-! ### Reading -/

theorem Elements.force {element element' : Element} (elements : c.Elements W element element') :
    c.Actions W c.Values element.force element'.force := by
  cases elements with
  | value values => exact Actions.pure values
  | failure failures => exact Actions.fail failures
  | combined pending functions lefts rights =>
      refine Actions.bind lefts.force fun later _ _ firsts => ?_
      refine Actions.bind (rights.force.mono later) fun after _ _ seconds => ?_
      exact Actions.call (c.callable_of_pending pending) (functions.mono (le_trans later after))
        seconds (.some (firsts.mono after))
  | selected count _ indices parents =>
      refine Actions.bind indices.force fun later _ _ named => ?_
      refine Actions.bind (Actions.lift (named.toPlace count)) fun after place _ same => ?_
      cases same
      exact (parents place).force.mono (le_trans later after)

/-- Reading an element is only abandoned in a call, and then arrays hold none that take one. -/
theorem Elements.steady {element element' : Element}
    (elements : c.Elements W element element') :
    c.Steadily W c.Values element.force element'.force := by
  intro V later calling calling' calls memory memory' memories
  have ends := elements.force later calls memories
  cases elements with
  | value values => exact ⟨V, le_rfl, memories, .ok (values.mono later)⟩
  | failure failures => exact ⟨V, le_rfl, memories, .error failures⟩
  | combined pending =>
      exact ends.resolve_left fun ⟨_, _, abandons⟩ => c.abandons_settled abandons pending
  | selected _ pending =>
      exact ends.resolve_left fun ⟨_, _, abandons⟩ => c.abandons_settled abandons pending

theorem Arrays.pick {array array' : ShapedArray} (arrays : c.Arrays W array array')
    (index : Nat) : c.Actions W c.Values (array.pick index) (array'.pick index) :=
  (arrays.elementAt index).force

theorem Arrays.elements {array array' : ShapedArray} (arrays : c.Arrays W array array') :
    c.Actions W (Rows c.Values) array.elements array'.elements := by
  rw [ShapedArray.elements, ShapedArray.elements, arrays.count_eq]
  exact Actions.collect arrays.pick _

theorem Values.ofCell {array array' : ShapedArray} (arrays : c.Arrays W array array') :
    c.Actions W c.Values (Value.ofCell array) (Value.ofCell array') := by
  rw [Value.ofCell, Value.ofCell, arrays.rank_eq]
  split
  · exact arrays.pick 0
  · exact Actions.pure (.array arrays)

/-! ### Views -/

theorem Outcomes.measure (shape : Shape) :
    c.Outcomes (c.Same W) (ShapedArray.measure shape) (ShapedArray.measure shape) := by
  rw [ShapedArray.measure]
  split
  · exact .ok rfl
  · exact .refuse rfl

theorem Outcomes.alignShapes (left right : Shape) :
    c.Outcomes (c.Same W) (ShapedArray.alignShapes left right)
      (ShapedArray.alignShapes left right) := by
  rw [ShapedArray.alignShapes]
  split
  · exact .ok rfl
  · exact .refuse rfl

theorem Arrays.build (view : View) (shape : Shape) {fill fill' : Option Value}
    {element element' : Nat → Element} (fills : Options c.Values W fill fill')
    (elements : ∀ index, c.Elements W (element index) (element' index)) :
    c.Outcomes (c.Arrays W) (ShapedArray.build view shape fill element)
      (ShapedArray.build view shape fill' element') :=
  (Outcomes.measure (W := W) shape).map fun _ => .ofView view shape fills elements

theorem Arrays.filled (shape : Shape) {row row' : Array Value} {fill fill' : Option Value}
    (rows : Rows c.Values W row row') (fills : Options c.Values W fill fill') :
    c.Outcomes (c.Arrays W) (ShapedArray.filled shape row fill)
      (ShapedArray.filled shape row' fill') := by
  refine Outcomes.bind (Outcomes.measure (W := W) shape) fun {size _} same => ?_
  cases same
  rw [rows.size_eq]
  split
  · exact .ok (.ofView _ _ fills (Elements.stored rows))
  · exact .refuse rfl

theorem Arrays.new (shape : Shape) {row row' : Array Value} (rows : Rows c.Values W row row') :
    c.Outcomes (c.Arrays W) (ShapedArray.new shape row) (ShapedArray.new shape row') :=
  Arrays.filled shape rows .none

theorem Arrays.slice {array array' : ShapedArray} (arrays : c.Arrays W array array')
    (start extent : Nat) :
    c.Outcomes (c.Arrays W) (array.slice start extent) (array'.slice start extent) := by
  rw [ShapedArray.slice, ShapedArray.slice, arrays.rank_eq, arrays.length_eq, arrays.shape_eq]
  split
  · exact .refuse rfl
  split
  · exact .refuse rfl
  split
  · exact .ok arrays
  · exact Arrays.build _ _ arrays.fill fun index => arrays.elementAt _

theorem Outcomes.offsetFrom (axis : Nat) (shape : Shape) (position : List Nat) :
    c.Outcomes (c.Same W) (ShapedArray.offsetFrom axis shape position)
      (ShapedArray.offsetFrom axis shape position) := by
  induction shape generalizing axis position with
  | nil => exact .ok rfl
  | cons size rest inductionHypothesis =>
      cases position with
      | nil => exact .ok rfl
      | cons index position =>
          rw [ShapedArray.offsetFrom]
          split
          · exact .refuse rfl
          · exact (inductionHypothesis (axis + 1) position).map fun same => by cases same; rfl

theorem Arrays.selectRank {array array' : ShapedArray} (arrays : c.Arrays W array array')
    (position : List Nat) :
    c.Outcomes (c.Arrays W) (array.selectRank position) (array'.selectRank position) := by
  rw [ShapedArray.selectRank, ShapedArray.selectRank, arrays.rank_eq, arrays.shape_eq]
  split
  · exact .refuse rfl
  · refine Outcomes.bind (Outcomes.offsetFrom (W := W) 0 _ position) fun {offset _} same => ?_
    cases same
    exact Arrays.build _ _ arrays.fill fun index => arrays.elementAt (offset + index)

theorem Elements.elementNamed {array array' : ShapedArray} {index index' : Element}
    (arrays : c.Arrays W array array') (indices : c.Elements W index index') :
    c.Elements W (array.elementNamed index) (array'.elementNamed index') := by
  cases indices with
  | value values =>
      rw [ShapedArray.elementNamed, ShapedArray.elementNamed, arrays.count_eq]
      generalize one : Value.toPlace _ _ = place
      generalize two : Value.toPlace _ _ = place'
      cases one ▸ two ▸ values.toPlace array'.count with
      | ok same =>
          cases same
          exact arrays.element _
      | error failures => exact .failure failures
  | failure failures => exact .failure failures
  | combined pending functions lefts rights =>
      rw [ShapedArray.elementNamed, ShapedArray.elementNamed, arrays.count_eq]
      · exact .selected _ pending (.combined pending functions lefts rights) arrays.element
      all_goals simp
  | selected count pending indices parents =>
      rw [ShapedArray.elementNamed, ShapedArray.elementNamed, arrays.count_eq]
      · exact .selected _ pending (.selected count pending indices parents) arrays.element
      all_goals simp

theorem Arrays.gather {array array' indices indices' : ShapedArray}
    (arrays : c.Arrays W array array') (places : c.Arrays W indices indices') :
    c.Actions W c.Arrays (array.gather indices) (array'.gather indices') := by
  rw [ShapedArray.gather, ShapedArray.gather, places.count_eq]
  refine Actions.bind (A := Rows c.Same) (Actions.collect (fun index => ?_) _)
    fun later _ _ _ => ?_
  · refine Actions.bind (places.pick index) fun later _ _ named => ?_
    rw [arrays.count_eq]
    exact Actions.lift (named.toPlace _)
  · rw [places.shape_eq]
    refine Actions.lift (Arrays.build _ _ (arrays.fill.mono later) fun index => ?_)
    exact Elements.elementNamed (arrays.mono later) ((places.mono later).elementAt index)

theorem Arrays.reshape {array array' : ShapedArray} (arrays : c.Arrays W array array')
    (shape : Shape) :
    c.Outcomes (c.Arrays W) (array.reshape shape) (array'.reshape shape) := by
  refine Outcomes.bind (Outcomes.measure (W := W) shape) fun {size _} same => ?_
  cases same
  rw [arrays.isEmpty_eq, arrays.shape_eq, arrays.count_eq]
  split
  · exact .ok .nil
  split
  · exact .refuse rfl
  split
  · exact .ok arrays
  · exact .ok (.ofView _ _ arrays.fill fun index => arrays.elementAt _)

theorem Outcomes.shapeOfNumbers (numbers : List Float) :
    c.Outcomes (c.Same W) (ShapedArray.shapeOfNumbers numbers)
      (ShapedArray.shapeOfNumbers numbers) := by
  have axis (number : Float) :
      c.Outcomes (c.Same W) (ShapedArray.axisOfNumber number)
        (ShapedArray.axisOfNumber number) := by
    rw [ShapedArray.axisOfNumber]
    split
    · exact .refuse rfl
    split
    · exact .refuse rfl
    · exact .ok rfl
  have axes : c.Outcomes (c.Same W) (numbers.mapM ShapedArray.axisOfNumber)
      (numbers.mapM ShapedArray.axisOfNumber) := by
    induction numbers with
    | nil => exact .ok rfl
    | cons number rest inductionHypothesis =>
        rw [List.mapM_cons]
        refine Outcomes.bind (axis number) fun same => ?_
        cases same
        refine Outcomes.bind inductionHypothesis fun same => ?_
        cases same
        exact .ok rfl
  refine Outcomes.bind axes fun same => ?_
  cases same
  refine Outcomes.bind (Outcomes.measure (W := W) _) fun same => ?_
  cases same
  exact .ok rfl

/-! ### Cells -/

theorem Arrays.cellAt {array array' : ShapedArray} (arrays : c.Arrays W array array')
    (position : List Nat) :
    c.Actions W c.Values (array.cellAt position) (array'.cellAt position) := by
  refine Actions.bind (Actions.lift (arrays.selectRank position)) fun later _ _ cells => ?_
  exact Values.ofCell cells

theorem Arrays.majorCells {array array' : ShapedArray} (arrays : c.Arrays W array array') :
    c.Actions W (Rows c.Values) array.majorCells array'.majorCells := by
  rw [ShapedArray.majorCells, ShapedArray.majorCells, arrays.rank_eq, arrays.isEmpty_eq,
    arrays.length_eq]
  split
  · refine Actions.bind (arrays.pick 0) fun later _ _ values => ?_
    exact Actions.pure (.cons values .nil)
  split
  · exact Actions.pure .nil
  · exact Actions.collect (fun index => arrays.cellAt [index]) _

theorem Actions.appendItem (inner : Shape) {data data' : Array Value} {item item' : Value}
    (rows : Rows c.Values W data data') (items : c.Values W item item') :
    c.Actions W (Rows c.Values) (ShapedArray.appendItem inner data item)
      (ShapedArray.appendItem inner data' item') := by
  have alone {leaf leaf' : Value} (leaves : c.Values W leaf leaf') :
      c.Actions W (Rows c.Values)
        (if inner = [] then Pure.pure (data.push leaf)
          else Action.refuse (.unmergeableScalar inner))
        (if inner = [] then Pure.pure (data'.push leaf')
          else Action.refuse (.unmergeableScalar inner)) := by
    split
    · exact Actions.pure (rows.push leaves)
    · exact Actions.refuse rfl
  cases items with
  | number number => exact alone (.number number)
  | character letter => exact alone (.character letter)
  | function functions => exact alone (.function functions)
  | array arrays =>
      rw [ShapedArray.appendItem, ShapedArray.appendItem, arrays.shape_eq]
      split
      · refine Actions.bind arrays.elements fun later _ _ more => ?_
        exact Actions.pure ((rows.mono later).append more)
      · exact Actions.refuse rfl

theorem Arrays.merge {items items' : Array Value} {fill fill' : Option Value}
    (rows : Rows c.Values W items items') (fills : Options c.Values W fill fill')
    (outer : Shape) :
    c.Actions W c.Arrays (ShapedArray.merge items fill outer)
      (ShapedArray.merge items' fill' outer) := by
  rw [ShapedArray.merge, ShapedArray.merge]
  by_cases misfit : outer.size ≠ items.size
  · rw [if_pos misfit, if_pos (rows.size_eq ▸ misfit), rows.size_eq]
    exact Actions.refuse rfl
  rw [if_neg misfit, if_neg (rows.size_eq ▸ misfit)]
  generalize one : items[0]? = found
  generalize two : items'[0]? = found'
  cases one ▸ two ▸ rows.getElem? 0 with
  | none => exact Actions.pure .nil
  | @some first first' firsts =>
      dsimp only
      rw [firsts.shape_eq]
      refine Actions.bind (Actions.lift (Outcomes.measure (W := W) _)) fun later _ _ _ => ?_
      refine Actions.bind (A := Rows c.Values) ?_ fun after _ _ data => ?_
      · exact Actions.foldRow (fun _ => Actions.appendItem _) (rows.mono later) .nil
      · exact Actions.lift (Arrays.filled _ data (fills.mono (le_trans later after)))

theorem Arrays.mergeList {items items' : Array Value} {fill fill' : Option Value}
    (rows : Rows c.Values W items items') (fills : Options c.Values W fill fill') :
    c.Actions W c.Arrays (ShapedArray.mergeList items fill)
      (ShapedArray.mergeList items' fill') := by
  rw [ShapedArray.mergeList, ShapedArray.mergeList, rows.size_eq]
  exact Arrays.merge rows fills _

theorem Arrays.fillOrDefault {array array' : ShapedArray} (arrays : c.Arrays W array array') :
    c.Actions W c.Values array.fillOrDefault array'.fillOrDefault := by
  rw [ShapedArray.fillOrDefault, ShapedArray.fillOrDefault]
  generalize one : array.fill = fill
  generalize two : array'.fill = fill'
  cases one ▸ two ▸ arrays.fill with
  | some fills => exact Actions.pure fills
  | none =>
      refine Actions.bind (arrays.elementAt 0).steady.attempt fun later _ _ outcomes => ?_
      cases outcomes with
      | error failures => exact Actions.pure (.number _)
      | ok values =>
          cases values with
          | character letter => exact Actions.pure (.character _)
          | number number => exact Actions.pure (.number _)
          | array arrays => exact Actions.pure (.number _)
          | function functions => exact Actions.pure (.number _)

end PointFree.Correspondence
