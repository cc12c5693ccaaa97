import PointFree.Primitive.Cellwise
import PointFree.Proofs.Likeness.Nested

/-!
Contract: the structural primitives on values that read alike.

Each rule looks at shapes, cells and elements and at nothing else, so what it makes of
values that are alike is alike. A rule that reads its argument through indices of its own
makes them of numbers.
-/

namespace PointFree

namespace ShapedArray

theorem stored_settled (elements : Array Value) (index : Nat) :
    ∃ outcome, (stored elements index).settled? = some outcome := by
  rw [stored]
  split
  · exact ⟨_, rfl⟩
  · exact ⟨_, rfl⟩

theorem new_settled {shape : Shape} {elements : Array Value} {array : ShapedArray}
    (made : new shape elements = .ok array) (index : Nat) :
    ∃ outcome, (array.elementAt index).settled? = some outcome := by
  obtain ⟨size, _, made⟩ := Outcome.bind_eq_ok.1 made
  rw [elementAt]
  split
  · split at made
    · cases made
      rw [ofView]
      split
      · exact ⟨_, rfl⟩
      · exact stored_settled elements index
    · cases made
  · exact ⟨_, rfl⟩

end ShapedArray

namespace Likeness

variable {H : Type} {l : Likeness H}
variable {left left' right right' : Value} {items items' : ShapedArray}

/-! ### Arguments -/

theorem Outcomes.requireCells (glyph : Char) (rights : l.Values right right') :
    Outcomes l.Arrays (Cellwise.requireCells glyph right)
      (Cellwise.requireCells glyph right') := by
  cases rights with
  | number => exact .refuse _
  | character => exact .refuse _
  | function => exact .refuse _
  | array arrays =>
      rw [Cellwise.requireCells, Cellwise.requireCells, arrays.rank_eq]
      split
      · exact .refuse _
      · exact .ok arrays

theorem Outcomes.asList (rights : l.Values right right') :
    Outcomes l.Arrays (Cellwise.asList right) (Cellwise.asList right') := by
  rw [Cellwise.asList, Cellwise.asList, rights.toArray.rank_eq]
  split
  · exact rights.toArray.reshape [1]
  · exact .ok rights.toArray

theorem Twins.wrappedElement [l.Lawful] (arrays : l.Arrays items items') (length index : Nat) :
    l.Twins Eq (Cellwise.wrappedElement items length index)
      (Cellwise.wrappedElement items' length index) := by
  refine Twins.bind (arrays.pick index) fun values => ?_
  exact Twins.bindSame (Twins.lift values.toInteger) fun whole => Twins.lift (.same _)

/-- The wrapped elements of an array of indices. -/
theorem Twins.wrappedElements [l.Lawful] (arrays : l.Arrays items items') (length : Nat → Nat)
    (count : Nat) :
    l.Twins Eq
      (PointFree.collect (fun index => Cellwise.wrappedElement items (length index) index) count)
      (PointFree.collect (fun index => Cellwise.wrappedElement items' (length index) index)
        count) :=
  (Twins.collect fun index _ => Twins.wrappedElement arrays (length index) index).imp
    fun collected => collected.rows.eq

theorem Twins.taken [l.Lawful] {α : Type} (arrays : l.Arrays items items')
    {take : Value → Outcome α}
    (takes : ∀ {value value'}, l.Values value value' → Outcomes Eq (take value) (take value')) :
    l.Twins Eq (Cellwise.taken items take) (Cellwise.taken items' take) := by
  rw [Cellwise.taken, Cellwise.taken, ← arrays.count_eq]
  refine (Twins.collect (A := Eq) fun index _ => ?_).imp fun collected => collected.rows.eq
  exact Twins.bind (arrays.pick index) fun values => Twins.lift (takes values)

theorem Twins.dimensions [l.Lawful] (lefts : l.Values left left') :
    l.Twins Eq (Cellwise.dimensions left) (Cellwise.dimensions left') := by
  cases lefts with
  | array arrays => exact Twins.taken arrays Values.toNumber
  | number number => exact Twins.lift (.same _)
  | character letter => exact Twins.lift (.same _)
  | function contents => exact Twins.lift (.same _)

/-! ### Shapes -/

theorem Twins.rank (rights : l.Values right right') :
    l.Twins l.Values (Cellwise.rank right) (Cellwise.rank right') := by
  rw [Cellwise.rank, Cellwise.rank, rights.rank_eq]
  exact Twins.pure (.number _)

theorem Twins.length (rights : l.Values right right') :
    l.Twins l.Values (Cellwise.length right) (Cellwise.length right') := by
  rw [Cellwise.length, Cellwise.length, rights.toArray.length_eq]
  exact Twins.pure (.number _)

theorem Twins.shape (rights : l.Values right right') :
    l.Twins l.Values (Cellwise.shape right) (Cellwise.shape right') := by
  rw [Cellwise.shape, Cellwise.shape, rights.shape_eq]
  exact Twins.pure (.list (Rows.ofNats _))

theorem Twins.depth [l.Lawful] (rights : l.Values right right') :
    l.Twins l.Values (Cellwise.depth right) (Cellwise.depth right') :=
  Twins.bindSame rights.depth fun _ => Twins.pure (.number _)

theorem Twins.equals [l.Lawful] (lefts : l.Values left left') (rights : l.Values right right') :
    l.Twins l.Values (Cellwise.equals left right) (Cellwise.equals left' right') :=
  Twins.bindSame (lefts.same rights) fun _ => Twins.pure (.number _)

theorem Twins.differs [l.Lawful] (lefts : l.Values left left') (rights : l.Values right right') :
    l.Twins l.Values (Cellwise.differs left right) (Cellwise.differs left' right') :=
  Twins.bindSame (lefts.same rights) fun _ => Twins.pure (.number _)

theorem Twins.enclose (rights : l.Values right right') :
    l.Twins l.Values (Cellwise.enclose right) (Cellwise.enclose right') :=
  Twins.pure (.array (.scalar rights))

theorem Twins.mergeElements [l.Lawful] (rights : l.Values right right') :
    l.Twins l.Values (Cellwise.mergeElements right) (Cellwise.mergeElements right') := by
  cases rights with
  | number number => exact Twins.pure (.number number)
  | character letter => exact Twins.pure (.character letter)
  | function contents => exact Twins.pure (.function contents)
  | array arrays =>
      rw [Cellwise.mergeElements, Cellwise.mergeElements, arrays.isEmpty_eq, arrays.shape_eq]
      split
      · exact Twins.pure (.array arrays)
      · refine Twins.bind arrays.elements fun rows => ?_
        exact Twins.bind (Arrays.merge rows arrays.fill _) fun merged => Values.ofCell merged

/-- An array that comes of the arguments alone. -/
theorem Twins.boxed {outcome outcome' : Outcome ShapedArray}
    (outcomes : Outcomes l.Arrays outcome outcome') :
    l.Twins l.Values
      (do
        let array ← (liftM outcome : Action H ShapedArray)
        return .array array)
      (do
        let array ← (liftM outcome' : Action H ShapedArray)
        return .array array) :=
  Twins.bind (Twins.lift outcomes) fun arrays => Twins.pure (.array arrays)

theorem Twins.deshape [l.Lawful] (rights : l.Values right right') :
    l.Twins l.Values (Cellwise.deshape right) (Cellwise.deshape right') := by
  rw [Cellwise.deshape, Cellwise.deshape, rights.toArray.count_eq]
  exact Twins.boxed (rights.toArray.reshape _)

theorem Twins.reshape [l.Lawful] (lefts : l.Values left left') (rights : l.Values right right') :
    l.Twins l.Values (Cellwise.reshape left right) (Cellwise.reshape left' right') := by
  refine Twins.bindSame (Twins.dimensions lefts) fun numbers => ?_
  refine Twins.bindSame (Twins.lift (.same _)) fun measured => ?_
  exact Twins.boxed (rights.toArray.reshape _)

theorem Twins.range (rights : l.Values right right') :
    l.Twins l.Values (Cellwise.range right) (Cellwise.range right') := by
  refine Twins.bindSame (Twins.lift rights.toIndex) fun count => ?_
  refine Twins.bindSame (Twins.lift (.same _)) fun _ => ?_
  exact Twins.pure (.array (.ofView _ _ _ .none fun index _ => .value (.number _)))

/-! ### Cells in another order -/

theorem Outcomes.cellsAt (arrays : l.Arrays items items') (places : Array Nat) :
    Outcomes (Rows l.Values) (Cellwise.cellsAt items places) (Cellwise.cellsAt items' places) := by
  rw [Cellwise.cellsAt, Cellwise.cellsAt, Array.mapM_eq_mapM_toList, Array.mapM_eq_mapM_toList]
  have cells : Outcomes (List.Forall₂ l.Values)
      (places.toList.mapM fun place => (items.sliceCell place).map Value.array)
      (places.toList.mapM fun place => (items'.sliceCell place).map Value.array) := by
    induction places.toList with
    | nil => exact .ok .nil
    | cons place rest inductionHypothesis =>
        rw [List.mapM_cons, List.mapM_cons]
        refine Outcomes.bind ((arrays.selectRank [place]).map Values.array) fun first => ?_
        exact Outcomes.bind inductionHypothesis fun others => .ok (.cons first others)
  exact cells.map fun lists => lists

theorem Twins.reorder [l.Lawful] (arrays : l.Arrays items items') (places : Array Nat)
    (outer : Shape) :
    l.Twins l.Values (Cellwise.reorder items places outer)
      (Cellwise.reorder items' places outer) := by
  rw [Cellwise.reorder, Cellwise.reorder, arrays.rank_eq]
  split
  · refine Twins.bind (Twins.lift ((Outcomes.same _).and ShapedArray.new_settled)) ?_
    rintro indices _ ⟨rfl, settled⟩
    exact Twins.bind (arrays.gather settled) fun gathered => Twins.pure (.array gathered)
  · refine Twins.bind (Twins.lift (Outcomes.cellsAt arrays places)) fun rows => ?_
    exact Twins.bind (Arrays.merge rows arrays.fill outer) fun merged =>
      Twins.pure (.array merged)

theorem Twins.reverse [l.Lawful] (rights : l.Values right right') :
    l.Twins l.Values (Cellwise.reverse right) (Cellwise.reverse right') := by
  refine Twins.bind (Twins.lift (Outcomes.requireCells '⌽' rights)) fun arrays => ?_
  rw [arrays.length_eq]
  exact Twins.reorder arrays _ _

theorem Twins.rotateBy [l.Lawful] (distance : Int) (rights : l.Values right right') :
    l.Twins l.Values (Cellwise.rotateBy distance right) (Cellwise.rotateBy distance right') := by
  refine Twins.bind (Twins.lift (Outcomes.requireCells '⌽' rights)) fun arrays => ?_
  dsimp only
  rw [arrays.length_eq]
  split
  · exact Twins.pure (.array arrays)
  · exact Twins.reorder arrays _ _

theorem Twins.rotate [l.Lawful] (lefts : l.Values left left') (rights : l.Values right right') :
    l.Twins l.Values (Cellwise.rotate left right) (Cellwise.rotate left' right') :=
  Twins.bindSame (Twins.lift lefts.toInteger) fun distance => Twins.rotateBy distance rights

theorem Twins.rotateBack [l.Lawful] (lefts : l.Values left left') (rights : l.Values right right') :
    l.Twins l.Values (Cellwise.rotateBack left right) (Cellwise.rotateBack left' right') :=
  Twins.bindSame (Twins.lift lefts.toInteger) fun distance => Twins.rotateBy (-distance) rights

/-! ### Choosing -/

theorem Twins.first [l.Lawful] (rights : l.Values right right') :
    l.Twins l.Values (Cellwise.first right) (Cellwise.first right') := by
  cases rights with
  | number number => exact Twins.pure (.number number)
  | character letter => exact Twins.pure (.character letter)
  | function contents => exact Twins.pure (.function contents)
  | array arrays =>
      rw [Cellwise.first, Cellwise.first, arrays.isEmpty_eq]
      split
      · exact Twins.refuse _
      · exact arrays.pick 0

theorem Twins.pick [l.Lawful] (lefts : l.Values left left') (rights : l.Values right right') :
    l.Twins l.Values (Cellwise.pick left right) (Cellwise.pick left' right') := by
  have arrays := rights.toArray
  have alone (leaf : Value) :
      l.Twins l.Values
        (if right.toArray.rank ≠ 1 then Action.refuse (.pickByOne right.toArray.rank)
          else do
            let whole ← leaf.toInteger
            let place ← Cellwise.wrapIndex whole right.toArray.count
            right.toArray.pick place)
        (if right'.toArray.rank ≠ 1 then Action.refuse (.pickByOne right'.toArray.rank)
          else do
            let whole ← leaf.toInteger
            let place ← Cellwise.wrapIndex whole right'.toArray.count
            right'.toArray.pick place) := by
    rw [arrays.rank_eq, arrays.count_eq]
    split
    · exact Twins.refuse _
    · refine Twins.bindSame (Twins.lift (.same _)) fun whole => ?_
      exact Twins.bindSame (Twins.lift (.same _)) fun place => arrays.pick place
  cases lefts with
  | number number => exact alone (.number number)
  | character letter => exact alone (.character letter)
  | function contents => exact alone (.function _)
  | array indices =>
      rw [Cellwise.pick, Cellwise.pick, indices.rank_eq, indices.count_eq, arrays.rank_eq,
        arrays.shape_eq]
      split
      · exact Twins.refuse _
      · refine Twins.bindSame (Twins.wrappedElements indices _ _) fun position => ?_
        exact Twins.bind (Twins.lift (arrays.selectRank _)) fun cells => cells.pick 0

theorem Twins.firstCell [l.Lawful] (rights : l.Values right right') :
    l.Twins l.Values (Cellwise.firstCell right) (Cellwise.firstCell right') := by
  refine Twins.bind (Twins.lift (Outcomes.requireCells '⊏' rights)) fun arrays => ?_
  rw [arrays.isEmpty_eq]
  split
  · exact Twins.refuse _
  · exact arrays.cellAt [0]

theorem Twins.select [l.Lawful] (lefts : l.Values left left') (rights : l.Values right right') :
    l.Twins l.Values (Cellwise.select left right) (Cellwise.select left' right') := by
  refine Twins.bind (Twins.lift (Outcomes.requireCells '⊏' rights)) ?_
  intro items items' arrays
  have alone (leaf : Value) :
      l.Twins l.Values
        (do
          let whole ← leaf.toInteger
          let place ← Cellwise.wrapIndex whole items.length
          items.cellAt [place])
        (do
          let whole ← leaf.toInteger
          let place ← Cellwise.wrapIndex whole items'.length
          items'.cellAt [place]) := by
    rw [arrays.length_eq]
    refine Twins.bindSame (Twins.lift (.same _)) fun whole => ?_
    exact Twins.bindSame (Twins.lift (.same _)) fun place => arrays.cellAt [place]
  cases lefts with
  | number number => exact alone (.number number)
  | character letter => exact alone (.character letter)
  | function contents => exact alone (.function _)
  | array indices =>
      dsimp only
      rw [arrays.length_eq, indices.count_eq, indices.shape_eq]
      refine Twins.bindSame (Twins.wrappedElements indices (fun _ => items'.length) _) ?_
      exact fun places => Twins.reorder arrays places _

/-! ### Taking and dropping -/

theorem Arrays.fillCell [l.Lawful] (arrays : l.Arrays items items') :
    l.Twins l.Values (Cellwise.fillCell items) (Cellwise.fillCell items') := by
  refine Twins.bind arrays.fillOrDefault fun contents => ?_
  dsimp only
  rw [arrays.shape_eq]
  split
  · exact Twins.pure contents
  · exact Twins.boxed ((Arrays.scalar contents).reshape _)

theorem Twins.takeCells [l.Lawful] (amount : Int) (rights : l.Values right right') :
    l.Twins l.Values (Cellwise.takeCells amount right) (Cellwise.takeCells amount right') := by
  refine Twins.bind (Twins.lift (Outcomes.asList rights)) fun {items items'} arrays => ?_
  dsimp only
  rw [arrays.length_eq, arrays.shape_eq]
  split
  · exact Twins.boxed (arrays.slice _ _)
  · refine Twins.bindSame (Twins.lift (.same _)) fun _ => ?_
    refine Twins.bind arrays.fillCell fun blanks => ?_
    refine Twins.bind arrays.majorCells fun rows => ?_
    have padding := Rows.replicate (amount.natAbs - items'.length) blanks
    refine Twins.bind (Arrays.mergeList ?_ arrays.fill) fun merged => Twins.pure (.array merged)
    split
    · exact rows.append padding
    · exact padding.append rows

theorem Twins.take [l.Lawful] (lefts : l.Values left left') (rights : l.Values right right') :
    l.Twins l.Values (Cellwise.take left right) (Cellwise.take left' right') :=
  Twins.bindSame (Twins.lift lefts.toInteger) fun amount => Twins.takeCells amount rights

theorem Twins.dropCells (amount : Int) (rights : l.Values right right') :
    l.Twins l.Values (Cellwise.dropCells amount right) (Cellwise.dropCells amount right') := by
  refine Twins.bind (Twins.lift (Outcomes.asList rights)) fun {items items'} arrays => ?_
  dsimp only
  rw [arrays.length_eq]
  split
  · exact Twins.pure (.array .nil)
  · exact Twins.bind (Twins.lift (arrays.slice _ _)) fun cells => Twins.pure (.array cells)

theorem Twins.drop (lefts : l.Values left left') (rights : l.Values right right') :
    l.Twins l.Values (Cellwise.drop left right) (Cellwise.drop left' right') :=
  Twins.bindSame (Twins.lift lefts.toInteger) fun amount => Twins.dropCells amount rights

theorem Twins.prefixes [l.Lawful] (rights : l.Values right right') :
    l.Twins l.Values (Cellwise.prefixes right) (Cellwise.prefixes right') := by
  refine Twins.bind (Twins.lift (Outcomes.asList rights)) fun arrays => ?_
  rw [arrays.length_eq]
  refine Twins.bind (Twins.collect fun amount _ => Twins.takeCells amount (.array arrays)) ?_
  exact fun collected => Twins.pure (.list collected.rows)

theorem Twins.suffixes (rights : l.Values right right') :
    l.Twins l.Values (Cellwise.suffixes right) (Cellwise.suffixes right') := by
  refine Twins.bind (Twins.lift (Outcomes.asList rights)) fun arrays => ?_
  rw [arrays.length_eq]
  refine Twins.bind (Twins.collect fun amount _ => Twins.dropCells amount (.array arrays)) ?_
  exact fun collected => Twins.pure (.list collected.rows)

/-! ### Joining -/

theorem Arrays.cellsBeside [l.Lawful] {other other' : ShapedArray} (arrays : l.Arrays items items')
    (others : l.Arrays other other') :
    l.Twins (Rows l.Values) (Cellwise.cellsBeside items other)
      (Cellwise.cellsBeside items' other') := by
  rw [Cellwise.cellsBeside, Cellwise.cellsBeside, arrays.rank_eq, others.rank_eq]
  split
  · exact Twins.pure (.cons (.array arrays) .nil)
  · exact arrays.majorCells

theorem Twins.joinTo [l.Lawful] (lefts : l.Values left left') (rights : l.Values right right') :
    l.Twins l.Values (Cellwise.joinTo left right) (Cellwise.joinTo left' right') := by
  refine Twins.bind (Twins.lift (Outcomes.asList lefts)) fun firsts => ?_
  refine Twins.bind (Twins.lift (Outcomes.asList rights)) fun seconds => ?_
  rw [firsts.isEmpty_eq, seconds.isEmpty_eq]
  split
  · exact Twins.pure (.array seconds)
  split
  · exact Twins.pure (.array firsts)
  · refine Twins.bind (firsts.cellsBeside seconds) fun leading => ?_
    refine Twins.bind (seconds.cellsBeside firsts) fun trailing => ?_
    exact Twins.bind (Arrays.mergeList (leading.append trailing) firsts.fill) fun merged =>
      Twins.pure (.array merged)

theorem Twins.join [l.Lawful] (rights : l.Values right right') :
    l.Twins l.Values (Cellwise.join right) (Cellwise.join right') := by
  refine Twins.bind (Twins.lift (Outcomes.requireCells '∾' rights)) fun arrays => ?_
  refine Twins.bind arrays.elements fun {parts parts'} rows => ?_
  rw [Rows] at rows
  generalize parts.toList = list at rows
  generalize parts'.toList = list' at rows
  cases rows with
  | nil => exact Twins.pure (.array .nil)
  | cons part rest => exact Twins.foldlM (A := l.Values) Twins.joinTo rest part

theorem Twins.solo [l.Lawful] (rights : l.Values right right') :
    l.Twins l.Values (Cellwise.solo right) (Cellwise.solo right') :=
  Twins.bind (Arrays.merge (.cons rights .nil) .none [1]) fun merged =>
    Twins.pure (.array merged)

theorem Twins.couple [l.Lawful] (lefts : l.Values left left') (rights : l.Values right right') :
    l.Twins l.Values (Cellwise.couple left right) (Cellwise.couple left' right') :=
  Twins.bind (Arrays.mergeList (.cons lefts (.cons rights .nil)) .none) fun merged =>
    Twins.pure (.array merged)

theorem Twins.enlist (rights : l.Values right right') :
    l.Twins l.Values (Cellwise.enlist right) (Cellwise.enlist right') :=
  Twins.pure (.list (.cons rights .nil))

theorem Twins.pair (lefts : l.Values left left') (rights : l.Values right right') :
    l.Twins l.Values (Cellwise.pair left right) (Cellwise.pair left' right') :=
  Twins.pure (.list (.cons lefts (.cons rights .nil)))

/-! ### Copies -/

theorem Rows.appendCopies (count : Nat) {content content' : Value} {found found' : Array Value}
    (contents : l.Values content content') (rows : Rows l.Values found found') :
    Rows l.Values (Cellwise.appendCopies count content found)
      (Cellwise.appendCopies count content' found') := by
  induction count generalizing found found' with
  | zero => exact rows
  | succ count inductionHypothesis => exact inductionHypothesis (rows.push contents)

theorem Twins.indices [l.Lawful] (rights : l.Values right right') :
    l.Twins l.Values (Cellwise.indices right) (Cellwise.indices right') := by
  refine Twins.bind (Twins.lift (Outcomes.requireCells '/' rights)) fun arrays => ?_
  refine Twins.bindSame (Twins.taken arrays Values.toIndex) fun counts => ?_
  have walk (counts : List Nat) (state : Nat × Array Value) :
      Rows l.Values state.2 state.2 →
      Rows l.Values
        (counts.foldl (fun state count =>
          (state.1 + 1, Cellwise.appendCopies count (.ofNat state.1) state.2)) state).2
        (counts.foldl (fun state count =>
          (state.1 + 1, Cellwise.appendCopies count (.ofNat state.1) state.2)) state).2 := by
    induction counts generalizing state with
    | nil => exact id
    | cons count counts inductionHypothesis =>
        exact fun rows => inductionHypothesis _ (rows.appendCopies count (.number _))
  dsimp only
  rw [← Array.foldl_toList]
  exact Twins.pure (.list (walk counts.toList (0, #[]) .nil))

theorem Twins.copyCounts [l.Lawful] (lefts : l.Values left left') (cells : Nat) :
    l.Twins Eq (Cellwise.copyCounts left cells) (Cellwise.copyCounts left' cells) := by
  cases lefts with
  | number number => exact Twins.bindSame (Twins.lift (.same _)) fun _ => Twins.pure rfl
  | character letter => exact Twins.bindSame (Twins.lift (.same _)) fun _ => Twins.pure rfl
  | function contents => exact Twins.bindSame (Twins.lift (.same _)) fun _ => Twins.pure rfl
  | array arrays =>
      rw [Cellwise.copyCounts, Cellwise.copyCounts, arrays.count_eq]
      split
      · exact Twins.refuse _
      · exact Twins.taken arrays Values.toIndex

theorem Rows.copies {cells cells' : Array Value} (rows : Rows l.Values cells cells')
    (counts : Array Nat) :
    Rows l.Values
      ((cells.zip counts).foldl (fun found pair => Cellwise.appendCopies pair.2 pair.1 found) #[])
      ((cells'.zip counts).foldl
        (fun found pair => Cellwise.appendCopies pair.2 pair.1 found) #[]) := by
  rw [← Array.foldl_toList, ← Array.foldl_toList, Array.toList_zip, Array.toList_zip]
  suffices general : ∀ {list list'}, List.Forall₂ l.Values list list' →
      ∀ (counts : List Nat) {found found' : Array Value}, Rows l.Values found found' →
      Rows l.Values
        ((list.zip counts).foldl
          (fun found pair => Cellwise.appendCopies pair.2 pair.1 found) found)
        ((list'.zip counts).foldl
          (fun found pair => Cellwise.appendCopies pair.2 pair.1 found) found') from
    general rows counts.toList .nil
  intro list list' lists
  induction lists with
  | nil => exact fun _ _ _ rows => rows
  | cons first _ inductionHypothesis =>
      intro counts found found' rows
      cases counts with
      | nil => exact rows
      | cons count counts => exact inductionHypothesis counts (rows.appendCopies count first)

theorem Twins.replicate [l.Lawful] (lefts : l.Values left left') (rights : l.Values right right') :
    l.Twins l.Values (Cellwise.replicate left right) (Cellwise.replicate left' right') := by
  refine Twins.bind (Twins.lift (Outcomes.asList rights)) fun arrays => ?_
  refine Twins.bind arrays.majorCells fun rows => ?_
  rw [rows.size_eq]
  refine Twins.bindSame (Twins.copyCounts lefts _) fun counts => ?_
  exact Twins.bind (Arrays.mergeList (rows.copies counts) arrays.fill) fun merged =>
    Twins.pure (.array merged)

/-! ### Assertions -/

theorem Values.holds_eq (rights : l.Values right right') :
    Cellwise.holds right = Cellwise.holds right' := by
  cases rights <;> rfl

theorem Twins.assert (rights : l.Values right right') :
    l.Twins l.Values (Cellwise.assert right) (Cellwise.assert right') := by
  rw [Cellwise.assert, Cellwise.assert, rights.holds_eq]
  split
  · exact Twins.pure rights
  · exact Twins.refuse _

theorem Twins.assertSaying [l.Lawful] (lefts : l.Values left left')
    (rights : l.Values right right') :
    l.Twins l.Values (Cellwise.assertSaying left right) (Cellwise.assertSaying left' right') := by
  rw [Cellwise.assertSaying, Cellwise.assertSaying, rights.holds_eq]
  split
  · exact Twins.pure rights
  · refine Twins.bindSame lefts.string? fun found => ?_
    cases found with
    | some message => exact Twins.refuse _
    | none => exact Twins.bindSame lefts.text fun message => Twins.refuse _

end Likeness

end PointFree
