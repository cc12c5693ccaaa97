import PointFree.Primitive.Cellwise
import PointFree.Proofs.Correspondence.Nested

/-!
Contract: the structural primitives on corresponding values.

Each rule reads shapes, cells and elements, which correspond, and puts the
results together, so each goes the same way on both sides.
-/

namespace PointFree.Correspondence

variable {H K : Type} {c : Correspondence H K} {W : c.World}
variable {left left' right right' : Value} {items items' : ShapedArray}

/-! ### Arguments -/

theorem Outcomes.requireCells (glyph : Char) (rights : c.Values W right right') :
    c.Outcomes (c.Arrays W) (Cellwise.requireCells glyph right)
      (Cellwise.requireCells glyph right') := by
  cases rights with
  | number => exact .refuse rfl
  | character => exact .refuse rfl
  | function => exact .refuse rfl
  | array arrays =>
      rw [Cellwise.requireCells, Cellwise.requireCells, arrays.rank_eq]
      split
      · exact .refuse rfl
      · exact .ok arrays

theorem Outcomes.asList (rights : c.Values W right right') :
    c.Outcomes (c.Arrays W) (Cellwise.asList right) (Cellwise.asList right') := by
  rw [Cellwise.asList, Cellwise.asList, rights.toArray.rank_eq]
  split
  · exact rights.toArray.reshape [1]
  · exact .ok rights.toArray

theorem Outcomes.ensureFits (glyph : Char) (count : Nat) :
    c.Outcomes (c.Same W) (Cellwise.ensureFits glyph count) (Cellwise.ensureFits glyph count) := by
  rw [Cellwise.ensureFits]
  split
  · exact .refuse rfl
  · exact .ok rfl

theorem Outcomes.wrapIndex (index : Int) (length : Nat) :
    c.Outcomes (c.Same W) (Cellwise.wrapIndex index length)
      (Cellwise.wrapIndex index length) := by
  rw [Cellwise.wrapIndex]
  generalize (if index < 0 then index + length else index) = place
  split
  · exact .refuse rfl
  · exact .ok rfl

theorem Actions.wrappedElement (arrays : c.Arrays W items items') (length index : Nat) :
    c.Actions W c.Same (Cellwise.wrappedElement items length index)
      (Cellwise.wrappedElement items' length index) := by
  refine Actions.bind (arrays.pick index) fun later _ _ values => ?_
  refine Actions.bind (Actions.lift values.toInteger) fun after whole _ same => ?_
  cases same
  exact Actions.lift (Outcomes.wrapIndex whole length)

theorem Actions.taken {α : Type} (arrays : c.Arrays W items items') {take : Value → Outcome α}
    (takes : ∀ {V value value'}, c.Values V value value' →
      c.Outcomes (c.Same V) (take value) (take value')) :
    c.Actions W c.Same (Cellwise.taken items take) (Cellwise.taken items' take) := by
  rw [Cellwise.taken, Cellwise.taken, arrays.count_eq]
  refine (Actions.collect (A := c.Same) (fun index => ?_) _).imp Rows.of_same
  exact (arrays.pick index).bind fun _ _ _ values => Actions.lift (takes values)

theorem Actions.dimensions (lefts : c.Values W left left') :
    c.Actions W c.Same (Cellwise.dimensions left) (Cellwise.dimensions left') := by
  have alone {leaf leaf' : Value} (leaves : c.Values W leaf leaf') :
      c.Actions W c.Same
        (do
          let number ← leaf.toNumber
          return #[number])
        (do
          let number ← leaf'.toNumber
          return #[number]) := by
    refine Actions.bind (Actions.lift leaves.toNumber) fun _ _ _ same => ?_
    cases same
    exact Actions.pure rfl
  cases lefts with
  | array arrays => exact Actions.taken arrays Values.toNumber
  | number number => exact alone (.number number)
  | character letter => exact alone (.character letter)
  | function functions => exact alone (.function functions)

/-! ### Shapes -/

theorem Actions.rank (rights : c.Values W right right') :
    c.Actions W c.Values (Cellwise.rank right) (Cellwise.rank right') := by
  rw [Cellwise.rank, Cellwise.rank, rights.rank_eq]
  exact Actions.pure (.number _)

theorem Actions.length (rights : c.Values W right right') :
    c.Actions W c.Values (Cellwise.length right) (Cellwise.length right') := by
  rw [Cellwise.length, Cellwise.length, rights.toArray.length_eq]
  exact Actions.pure (.number _)

theorem Actions.shape (rights : c.Values W right right') :
    c.Actions W c.Values (Cellwise.shape right) (Cellwise.shape right') := by
  rw [Cellwise.shape, Cellwise.shape, rights.shape_eq]
  exact Actions.pure (.list (Values.ofNats _))

theorem Actions.depth (rights : c.Values W right right') :
    c.Actions W c.Values (Cellwise.depth right) (Cellwise.depth right') := by
  refine Actions.bind rights.depth fun _ _ _ same => ?_
  cases same
  exact Actions.pure (.number _)

theorem Actions.equals (lefts : c.Values W left left') (rights : c.Values W right right') :
    c.Actions W c.Values (Cellwise.equals left right) (Cellwise.equals left' right') := by
  refine Actions.bind (lefts.same rights) fun _ _ _ same => ?_
  cases same
  exact Actions.pure (.number _)

theorem Actions.differs (lefts : c.Values W left left') (rights : c.Values W right right') :
    c.Actions W c.Values (Cellwise.differs left right) (Cellwise.differs left' right') := by
  refine Actions.bind (lefts.same rights) fun _ _ _ same => ?_
  cases same
  exact Actions.pure (.number _)

theorem Actions.enclose (rights : c.Values W right right') :
    c.Actions W c.Values (Cellwise.enclose right) (Cellwise.enclose right') :=
  Actions.pure (.array (.scalar rights))

theorem Actions.mergeElements (rights : c.Values W right right') :
    c.Actions W c.Values (Cellwise.mergeElements right) (Cellwise.mergeElements right') := by
  cases rights with
  | number number => exact Actions.pure (.number number)
  | character letter => exact Actions.pure (.character letter)
  | function functions => exact Actions.pure (.function functions)
  | array arrays =>
      rw [Cellwise.mergeElements, Cellwise.mergeElements, arrays.isEmpty_eq, arrays.shape_eq]
      split
      · exact Actions.pure (.array arrays)
      · refine Actions.bind arrays.elements fun later _ _ rows => ?_
        refine Actions.bind (Arrays.merge rows (arrays.fill.mono later) _) ?_
        exact fun _ _ _ merged => Values.ofCell merged

theorem Actions.deshape (rights : c.Values W right right') :
    c.Actions W c.Values (Cellwise.deshape right) (Cellwise.deshape right') := by
  rw [Cellwise.deshape, Cellwise.deshape, rights.toArray.count_eq]
  refine Actions.bind (Actions.lift (rights.toArray.reshape _)) fun _ _ _ arrays => ?_
  exact Actions.pure (.array arrays)

theorem Actions.reshape (lefts : c.Values W left left') (rights : c.Values W right right') :
    c.Actions W c.Values (Cellwise.reshape left right) (Cellwise.reshape left' right') := by
  refine Actions.bind (Actions.dimensions lefts) fun later numbers _ same => ?_
  cases same
  refine Actions.bind (Actions.lift (Outcomes.shapeOfNumbers numbers.toList)) ?_
  intro V after measured _ same
  cases same
  have arrays := (rights.mono (le_trans later after)).toArray
  refine Actions.bind (Actions.lift (arrays.reshape measured.1)) fun _ _ _ reshaped => ?_
  exact Actions.pure (.array reshaped)

theorem Actions.range (rights : c.Values W right right') :
    c.Actions W c.Values (Cellwise.range right) (Cellwise.range right') := by
  refine Actions.bind (Actions.lift rights.toIndex) fun _ count _ same => ?_
  cases same
  refine Actions.bind (Actions.lift (Outcomes.ensureFits '↕' count)) fun _ _ _ _ => ?_
  exact Actions.pure (.array (.ofView _ _ .none fun index => .value (.number _)))

/-! ### Cells in another order -/

theorem Outcomes.cellsAt (arrays : c.Arrays W items items') (places : Array Nat) :
    c.Outcomes (Rows c.Values W) (Cellwise.cellsAt items places)
      (Cellwise.cellsAt items' places) := by
  rw [Cellwise.cellsAt, Cellwise.cellsAt, Array.mapM_eq_mapM_toList, Array.mapM_eq_mapM_toList]
  have cells : c.Outcomes (Lists c.Values W)
      (places.toList.mapM fun place => (items.sliceCell place).map Value.array)
      (places.toList.mapM fun place => (items'.sliceCell place).map Value.array) := by
    induction places.toList with
    | nil => exact .ok .nil
    | cons place rest inductionHypothesis =>
        rw [List.mapM_cons, List.mapM_cons]
        refine Outcomes.bind ((arrays.selectRank [place]).map Values.array) fun first => ?_
        exact Outcomes.bind inductionHypothesis fun others => .ok (.cons first others)
  exact cells.map fun lists => lists

theorem Actions.reorder (arrays : c.Arrays W items items') (places : Array Nat) (outer : Shape) :
    c.Actions W c.Values (Cellwise.reorder items places outer)
      (Cellwise.reorder items' places outer) := by
  rw [Cellwise.reorder, Cellwise.reorder, arrays.rank_eq]
  split
  · have numbers : Rows c.Values W (places.map Value.ofNat) (places.map Value.ofNat) := by
      rw [Rows, Array.toList_map]
      exact Values.ofNats places.toList
    refine Actions.bind (Actions.lift (Arrays.new outer numbers)) fun later _ _ indices => ?_
    refine Actions.bind ((arrays.mono later).gather indices) fun _ _ _ gathered => ?_
    exact Actions.pure (.array gathered)
  · refine Actions.bind (Actions.lift (Outcomes.cellsAt arrays places)) fun later _ _ rows => ?_
    refine Actions.bind (Arrays.merge rows (arrays.fill.mono later) outer) fun _ _ _ merged => ?_
    exact Actions.pure (.array merged)

theorem Actions.reverse (rights : c.Values W right right') :
    c.Actions W c.Values (Cellwise.reverse right) (Cellwise.reverse right') := by
  refine Actions.bind (Actions.lift (Outcomes.requireCells '⌽' rights)) ?_
  intro V later items items' arrays
  rw [arrays.length_eq]
  exact Actions.reorder arrays _ _

theorem Actions.rotateBy (distance : Int) (rights : c.Values W right right') :
    c.Actions W c.Values (Cellwise.rotateBy distance right)
      (Cellwise.rotateBy distance right') := by
  refine Actions.bind (Actions.lift (Outcomes.requireCells '⌽' rights)) ?_
  intro V later items items' arrays
  dsimp only
  rw [arrays.length_eq]
  split
  · exact Actions.pure (.array arrays)
  · exact Actions.reorder arrays _ _

theorem Actions.rotate (lefts : c.Values W left left') (rights : c.Values W right right') :
    c.Actions W c.Values (Cellwise.rotate left right) (Cellwise.rotate left' right') := by
  refine Actions.bind (Actions.lift lefts.toInteger) fun later distance _ same => ?_
  cases same
  exact Actions.rotateBy distance (rights.mono later)

theorem Actions.rotateBack (lefts : c.Values W left left') (rights : c.Values W right right') :
    c.Actions W c.Values (Cellwise.rotateBack left right) (Cellwise.rotateBack left' right') := by
  refine Actions.bind (Actions.lift lefts.toInteger) fun later distance _ same => ?_
  cases same
  exact Actions.rotateBy (-distance) (rights.mono later)

/-! ### Choosing -/

theorem Actions.first (rights : c.Values W right right') :
    c.Actions W c.Values (Cellwise.first right) (Cellwise.first right') := by
  cases rights with
  | number number => exact Actions.pure (.number number)
  | character letter => exact Actions.pure (.character letter)
  | function functions => exact Actions.pure (.function functions)
  | array arrays =>
      rw [Cellwise.first, Cellwise.first, arrays.isEmpty_eq]
      split
      · exact Actions.refuse rfl
      · exact arrays.pick 0

theorem Actions.pick (lefts : c.Values W left left') (rights : c.Values W right right') :
    c.Actions W c.Values (Cellwise.pick left right) (Cellwise.pick left' right') := by
  have arrays := rights.toArray
  have alone {leaf leaf' : Value} (leaves : c.Values W leaf leaf') :
      c.Actions W c.Values
        (if right.toArray.rank ≠ 1 then Action.refuse (.pickByOne right.toArray.rank)
          else do
            let whole ← leaf.toInteger
            let place ← Cellwise.wrapIndex whole right.toArray.count
            right.toArray.pick place)
        (if right'.toArray.rank ≠ 1 then Action.refuse (.pickByOne right'.toArray.rank)
          else do
            let whole ← leaf'.toInteger
            let place ← Cellwise.wrapIndex whole right'.toArray.count
            right'.toArray.pick place) := by
    rw [arrays.rank_eq, arrays.count_eq]
    split
    · exact Actions.refuse rfl
    · refine Actions.bind (Actions.lift leaves.toInteger) fun later whole _ same => ?_
      cases same
      refine Actions.bind (Actions.lift (Outcomes.wrapIndex whole _)) fun after place _ same => ?_
      cases same
      exact (arrays.mono (le_trans later after)).pick place
  cases lefts with
  | number number => exact alone (.number number)
  | character letter => exact alone (.character letter)
  | function functions => exact alone (.function functions)
  | array indices =>
      rw [Cellwise.pick, Cellwise.pick, indices.rank_eq, indices.count_eq, arrays.rank_eq,
        arrays.shape_eq]
      split
      · exact Actions.refuse rfl
      · refine Actions.bind (A := c.Same) ?_ fun later position _ same => ?_
        · exact (Actions.collect (fun axis => Actions.wrappedElement indices _ axis) _).imp
            Rows.of_same
        cases same
        refine Actions.bind (Actions.lift ((arrays.mono later).selectRank _)) ?_
        exact fun _ _ _ cells => cells.pick 0

theorem Actions.firstCell (rights : c.Values W right right') :
    c.Actions W c.Values (Cellwise.firstCell right) (Cellwise.firstCell right') := by
  refine Actions.bind (Actions.lift (Outcomes.requireCells '⊏' rights)) ?_
  intro V later items items' arrays
  rw [arrays.isEmpty_eq]
  split
  · exact Actions.refuse rfl
  · exact arrays.cellAt [0]

theorem Actions.select (lefts : c.Values W left left') (rights : c.Values W right right') :
    c.Actions W c.Values (Cellwise.select left right) (Cellwise.select left' right') := by
  refine Actions.bind (Actions.lift (Outcomes.requireCells '⊏' rights)) ?_
  intro V later items items' arrays
  have alone {leaf leaf' : Value} (leaves : c.Values V leaf leaf') :
      c.Actions V c.Values
        (do
          let whole ← leaf.toInteger
          let place ← Cellwise.wrapIndex whole items.length
          items.cellAt [place])
        (do
          let whole ← leaf'.toInteger
          let place ← Cellwise.wrapIndex whole items'.length
          items'.cellAt [place]) := by
    rw [arrays.length_eq]
    refine Actions.bind (Actions.lift leaves.toInteger) fun later whole _ same => ?_
    cases same
    refine Actions.bind (Actions.lift (Outcomes.wrapIndex whole _)) fun after place _ same => ?_
    cases same
    exact (arrays.mono (le_trans later after)).cellAt [place]
  cases lefts.mono later with
  | number number => exact alone (.number number)
  | character letter => exact alone (.character letter)
  | function functions => exact alone (.function functions)
  | array indices =>
      dsimp only
      rw [arrays.length_eq, indices.count_eq, indices.shape_eq]
      refine Actions.bind (A := c.Same) ?_ fun after places _ same => ?_
      · exact (Actions.collect (fun axis => Actions.wrappedElement indices _ axis) _).imp
          Rows.of_same
      cases same
      exact Actions.reorder (arrays.mono after) places _

/-! ### Taking and dropping -/

theorem Arrays.fillCell (arrays : c.Arrays W items items') :
    c.Actions W c.Values (Cellwise.fillCell items) (Cellwise.fillCell items') := by
  refine Actions.bind arrays.fillOrDefault fun later _ _ contents => ?_
  dsimp only
  rw [arrays.shape_eq]
  split
  · exact Actions.pure contents
  · refine Actions.bind (Actions.lift ((Arrays.scalar contents).reshape _)) ?_
    exact fun _ _ _ cells => Actions.pure (.array cells)

theorem Actions.takeCells (amount : Int) (rights : c.Values W right right') :
    c.Actions W c.Values (Cellwise.takeCells amount right)
      (Cellwise.takeCells amount right') := by
  refine Actions.bind (Actions.lift (Outcomes.asList rights)) fun _ items items' arrays => ?_
  dsimp only
  rw [arrays.length_eq, arrays.shape_eq]
  split
  · refine Actions.bind (Actions.lift (arrays.slice _ _)) fun _ _ _ cells => ?_
    exact Actions.pure (.array cells)
  · refine Actions.bind (Actions.lift (Outcomes.ensureFits '↑' _)) fun before _ _ _ => ?_
    refine Actions.bind (arrays.mono before).fillCell fun later _ _ blanks => ?_
    refine Actions.bind (arrays.mono (le_trans before later)).majorCells fun after _ _ rows => ?_
    have padding := Rows.replicate (amount.natAbs - items'.length) (blanks.mono after)
    have fills := arrays.fill.mono (le_trans before (le_trans later after))
    refine Actions.bind (Arrays.mergeList ?_ fills) fun _ _ _ merged => ?_
    · split
      · exact rows.append padding
      · exact padding.append rows
    · exact Actions.pure (.array merged)

theorem Actions.take (lefts : c.Values W left left') (rights : c.Values W right right') :
    c.Actions W c.Values (Cellwise.take left right) (Cellwise.take left' right') := by
  refine Actions.bind (Actions.lift lefts.toInteger) fun later amount _ same => ?_
  cases same
  exact Actions.takeCells amount (rights.mono later)

theorem Actions.dropCells (amount : Int) (rights : c.Values W right right') :
    c.Actions W c.Values (Cellwise.dropCells amount right)
      (Cellwise.dropCells amount right') := by
  refine Actions.bind (Actions.lift (Outcomes.asList rights)) fun _ items items' arrays => ?_
  dsimp only
  rw [arrays.length_eq]
  split
  · exact Actions.pure (.array .nil)
  · refine Actions.bind (Actions.lift (arrays.slice _ _)) fun _ _ _ cells => ?_
    exact Actions.pure (.array cells)

theorem Actions.drop (lefts : c.Values W left left') (rights : c.Values W right right') :
    c.Actions W c.Values (Cellwise.drop left right) (Cellwise.drop left' right') := by
  refine Actions.bind (Actions.lift lefts.toInteger) fun later amount _ same => ?_
  cases same
  exact Actions.dropCells amount (rights.mono later)

theorem Actions.prefixes (rights : c.Values W right right') :
    c.Actions W c.Values (Cellwise.prefixes right) (Cellwise.prefixes right') := by
  refine Actions.bind (Actions.lift (Outcomes.asList rights)) fun _ items items' arrays => ?_
  rw [arrays.length_eq]
  refine Actions.bind (Actions.collect (A := c.Values) (fun amount => ?_) _) fun _ _ _ rows => ?_
  · exact Actions.takeCells amount (.array arrays)
  · exact Actions.pure (.list rows)

theorem Actions.suffixes (rights : c.Values W right right') :
    c.Actions W c.Values (Cellwise.suffixes right) (Cellwise.suffixes right') := by
  refine Actions.bind (Actions.lift (Outcomes.asList rights)) fun _ items items' arrays => ?_
  rw [arrays.length_eq]
  refine Actions.bind (Actions.collect (A := c.Values) (fun amount => ?_) _) fun _ _ _ rows => ?_
  · exact Actions.dropCells amount (.array arrays)
  · exact Actions.pure (.list rows)

/-! ### Joining -/

theorem Arrays.cellsBeside {other other' : ShapedArray} (arrays : c.Arrays W items items')
    (others : c.Arrays W other other') :
    c.Actions W (Rows c.Values) (Cellwise.cellsBeside items other)
      (Cellwise.cellsBeside items' other') := by
  rw [Cellwise.cellsBeside, Cellwise.cellsBeside, arrays.rank_eq, others.rank_eq]
  split
  · exact Actions.pure (.cons (.array arrays) .nil)
  · exact arrays.majorCells

theorem Actions.joinTo (lefts : c.Values W left left') (rights : c.Values W right right') :
    c.Actions W c.Values (Cellwise.joinTo left right) (Cellwise.joinTo left' right') := by
  refine Actions.bind (Actions.lift (Outcomes.asList lefts)) fun later _ _ firsts => ?_
  refine Actions.bind (Actions.lift (Outcomes.asList (rights.mono later))) ?_
  intro V after second second' seconds
  have firsts := firsts.mono after
  rw [firsts.isEmpty_eq, seconds.isEmpty_eq]
  split
  · exact Actions.pure (.array seconds)
  split
  · exact Actions.pure (.array firsts)
  · refine Actions.bind (firsts.cellsBeside seconds) fun before _ _ leading => ?_
    refine Actions.bind ((seconds.mono before).cellsBeside (firsts.mono before)) ?_
    intro U behind trailing trailing' trailings
    have fills := firsts.fill.mono (le_trans before behind)
    refine Actions.bind (Arrays.mergeList ((leading.mono behind).append trailings) fills) ?_
    exact fun _ _ _ merged => Actions.pure (.array merged)

theorem Actions.join (rights : c.Values W right right') :
    c.Actions W c.Values (Cellwise.join right) (Cellwise.join right') := by
  refine Actions.bind (Actions.lift (Outcomes.requireCells '∾' rights)) fun _ _ _ arrays => ?_
  refine Actions.bind arrays.elements fun _ parts parts' rows => ?_
  rw [Rows] at rows
  generalize parts.toList = list at rows
  generalize parts'.toList = list' at rows
  cases rows with
  | nil => exact Actions.pure (.array .nil)
  | cons part rest => exact Actions.foldlM (fun _ => Actions.joinTo) rest part

theorem Actions.solo (rights : c.Values W right right') :
    c.Actions W c.Values (Cellwise.solo right) (Cellwise.solo right') := by
  refine Actions.bind (Arrays.merge (.cons rights .nil) .none [1]) fun _ _ _ merged => ?_
  exact Actions.pure (.array merged)

theorem Actions.couple (lefts : c.Values W left left') (rights : c.Values W right right') :
    c.Actions W c.Values (Cellwise.couple left right) (Cellwise.couple left' right') := by
  refine Actions.bind (Arrays.mergeList (.cons lefts (.cons rights .nil)) .none) ?_
  exact fun _ _ _ merged => Actions.pure (.array merged)

theorem Actions.enlist (rights : c.Values W right right') :
    c.Actions W c.Values (Cellwise.enlist right) (Cellwise.enlist right') :=
  Actions.pure (.list (.cons rights .nil))

theorem Actions.pair (lefts : c.Values W left left') (rights : c.Values W right right') :
    c.Actions W c.Values (Cellwise.pair left right) (Cellwise.pair left' right') :=
  Actions.pure (.list (.cons lefts (.cons rights .nil)))

/-! ### Copies -/

theorem Rows.appendCopies (count : Nat) {content content' : Value} {found found' : Array Value}
    (contents : c.Values W content content') (rows : Rows c.Values W found found') :
    Rows c.Values W (Cellwise.appendCopies count content found)
      (Cellwise.appendCopies count content' found') := by
  induction count generalizing found found' with
  | zero => exact rows
  | succ count inductionHypothesis => exact inductionHypothesis (rows.push contents)

theorem Actions.indices (rights : c.Values W right right') :
    c.Actions W c.Values (Cellwise.indices right) (Cellwise.indices right') := by
  refine Actions.bind (Actions.lift (Outcomes.requireCells '/' rights)) fun _ _ _ arrays => ?_
  refine Actions.bind (Actions.taken arrays Values.toIndex) fun {V} later counts _ same => ?_
  cases same
  have walk (counts : List Nat) (state state' : Nat × Array Value) :
      Pairs c.Same (Rows c.Values) V state state' →
      Pairs c.Same (Rows c.Values) V
        (counts.foldl (fun state count =>
          (state.1 + 1, Cellwise.appendCopies count (.ofNat state.1) state.2)) state)
        (counts.foldl (fun state count =>
          (state.1 + 1, Cellwise.appendCopies count (.ofNat state.1) state.2)) state') := by
    induction counts generalizing state state' with
    | nil => exact id
    | cons count counts inductionHypothesis =>
        obtain ⟨index, found⟩ := state
        obtain ⟨index', found'⟩ := state'
        rintro ⟨same, rows⟩
        cases same
        exact inductionHypothesis _ _ ⟨rfl, rows.appendCopies count (.number _)⟩
  dsimp only
  rw [← Array.foldl_toList]
  exact Actions.pure (.list (walk counts.toList (0, #[]) (0, #[]) ⟨rfl, .nil⟩).2)

theorem Actions.copyCounts (lefts : c.Values W left left') (cells : Nat) :
    c.Actions W c.Same (Cellwise.copyCounts left cells) (Cellwise.copyCounts left' cells) := by
  have alone {leaf leaf' : Value} (leaves : c.Values W leaf leaf') :
      c.Actions W c.Same
        (do
          let count ← leaf.toIndex
          return Array.replicate cells count)
        (do
          let count ← leaf'.toIndex
          return Array.replicate cells count) := by
    refine Actions.bind (Actions.lift leaves.toIndex) fun _ _ _ same => ?_
    cases same
    exact Actions.pure rfl
  cases lefts with
  | number number => exact alone (.number number)
  | character letter => exact alone (.character letter)
  | function functions => exact alone (.function functions)
  | array arrays =>
      rw [Cellwise.copyCounts, Cellwise.copyCounts, arrays.count_eq]
      split
      · exact Actions.refuse rfl
      · exact Actions.taken arrays Values.toIndex

theorem Rows.copies {cells cells' : Array Value} (rows : Rows c.Values W cells cells')
    (counts : Array Nat) :
    Rows c.Values W
      ((cells.zip counts).foldl (fun found pair => Cellwise.appendCopies pair.2 pair.1 found) #[])
      ((cells'.zip counts).foldl
        (fun found pair => Cellwise.appendCopies pair.2 pair.1 found) #[]) := by
  rw [← Array.foldl_toList, ← Array.foldl_toList, Array.toList_zip, Array.toList_zip]
  suffices general : ∀ {list list'}, Lists c.Values W list list' →
      ∀ (counts : List Nat) {found found' : Array Value}, Rows c.Values W found found' →
      Rows c.Values W
        ((list.zip counts).foldl
          (fun found pair => Cellwise.appendCopies pair.2 pair.1 found) found)
        ((list'.zip counts).foldl
          (fun found pair => Cellwise.appendCopies pair.2 pair.1 found) found') from
    general rows counts.toList .nil
  intro list list' lists
  induction lists with
  | nil => exact fun _ _ _ rows => rows
  | cons first _ inductionHypothesis =>
      intro counts found found' rows
      cases counts with
      | nil => exact rows
      | cons count counts => exact inductionHypothesis counts (rows.appendCopies count first)

theorem Actions.replicate (lefts : c.Values W left left') (rights : c.Values W right right') :
    c.Actions W c.Values (Cellwise.replicate left right) (Cellwise.replicate left' right') := by
  refine Actions.bind (Actions.lift (Outcomes.asList rights)) fun before _ _ arrays => ?_
  refine Actions.bind arrays.majorCells fun later _ _ rows => ?_
  rw [rows.size_eq]
  have lefts := lefts.mono (le_trans before later)
  refine Actions.bind (Actions.copyCounts lefts _) fun after counts _ same => ?_
  cases same
  have fills := arrays.fill.mono (le_trans later after)
  refine Actions.bind (Arrays.mergeList ((rows.mono after).copies counts) fills) ?_
  exact fun _ _ _ merged => Actions.pure (.array merged)

/-! ### Assertions -/

theorem Values.holds_eq (rights : c.Values W right right') :
    Cellwise.holds right = Cellwise.holds right' := by
  cases rights <;> rfl

theorem Actions.assert (rights : c.Values W right right') :
    c.Actions W c.Values (Cellwise.assert right) (Cellwise.assert right') := by
  rw [Cellwise.assert, Cellwise.assert, rights.holds_eq]
  split
  · exact Actions.pure rights
  · exact Actions.refuse rfl

theorem Actions.assertSaying (lefts : c.Values W left left') (rights : c.Values W right right') :
    c.Actions W c.Values (Cellwise.assertSaying left right)
      (Cellwise.assertSaying left' right') := by
  rw [Cellwise.assertSaying, Cellwise.assertSaying, rights.holds_eq]
  split
  · exact Actions.pure rights
  · refine Actions.bind lefts.string? fun later found _ same => ?_
    cases same
    cases found with
    | some message => exact Actions.refuse rfl
    | none =>
        refine Actions.bind (lefts.mono later).text fun _ _ _ texts => ?_
        exact Actions.refuseAlike (c.faults_asserted texts)

end PointFree.Correspondence
