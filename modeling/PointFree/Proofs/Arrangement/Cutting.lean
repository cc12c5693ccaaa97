import PointFree.Primitive.Forms
import PointFree.Proofs.Arrangement.Cells
import PointFree.Proofs.Arrangement.Replication
import PointFree.Proofs.Ranking.Composition

/-!
Contract: cutting an array in two, and lists that are longer than the limit for arrays.

Taking cells and dropping as many gives two runs of cells that meet at a place. A run of no cells is
the empty array, and joining leaves it out; otherwise the cells of both runs are laid together, and
come to the array that was cut.

An operation that builds an array of its own shape measures the shape first, so that only lists are
ever above the limit. Lists are stored as they come. The indices of counts are as many as the counts
add up to, and an array has one more beginning, and one more end, than it has cells: none of these is
held against the limit, while the copies of cells are, which are spread by the same counts.
-/

namespace PointFree.ShapedArray

variable {H : Type} {calling : Call H} {held : Memory H → Prop}
variable {array front back run : ShapedArray} {values : Nat → Value} {start extent place : Nat}

/-! ### Runs of cells -/

/-- The cells from `start` on, `extent` of them, or the empty array if there are none. -/
structure IsRun (calling : Call H) (array : ShapedArray) (start extent : Nat)
    (run : ShapedArray) : Prop where
  made : run.IsMade calling
  count : run.count = extent * array.shape.cellSize
  shape : run.count ≠ 0 → run.shape = extent :: array.shape.tail
  fill : run.count ≠ 0 → run.fill = array.fill
  elementAt : ∀ index < run.count,
    run.elementAt index = array.elementAt (start * array.shape.cellSize + index)

theorem IsMade.isRun (made : array.IsMade calling) (sliced : array.slice start extent = .ok run) :
    IsRun calling array start extent run := by
  have isMade : run.IsMade calling := .slice made sliced
  rcases made.slice_reads sliced with ⟨rfl, rfl⟩ | ⟨shape, fill, element⟩
  · exact ⟨isMade, (Nat.zero_mul _).symm, fun some => absurd rfl some, fun some => absurd rfl some,
      nofun⟩
  · refine ⟨isMade, ?_, fun _ => shape, fun _ => fill, element⟩
    rw [ShapedArray.count, shape, Shape.size_cons]
    rfl

theorem isRun_nil (array : ShapedArray) (start : Nat) :
    IsRun calling array start 0 ShapedArray.nil :=
  ⟨.nil, (Nat.zero_mul _).symm, fun some => absurd rfl some, fun some => absurd rfl some, nofun⟩

/-- Axes behind one without cells do not count. -/
theorem measure_zero_cons (shape : Shape) : measure (0 :: shape) = .ok 0 := by
  have fits : Shape.FitsWord ([] ++ 0 :: shape) :=
    Shape.fitsWord_append_empty.2 ((Shape.fitsWord_iff (by decide)).2 (by decide))
  exact measure_eq_ok_iff.2 ⟨fits, (Shape.size_eq_zero_iff.2 List.mem_cons_self).symm, by decide⟩

/-- A run within an array is made if the array is within the limit, or all or none of it is in the
run. -/
theorem IsMade.exists_run (made : array.IsMade calling) (ranked : array.rank ≠ 0)
    (fits : start + extent ≤ array.length)
    (small : 0 < extent → extent < array.length → array.count ≤ sizeLimit) :
    ∃ run, array.slice start extent = .ok run ∧ IsRun calling array start extent run := by
  suffices sliced : ∃ run, array.slice start extent = .ok run by
    obtain ⟨run, sliced⟩ := sliced
    exact ⟨run, sliced, made.isRun sliced⟩
  by_cases full : extent = array.length
  · exact ⟨_, slice_eq_ok_iff.2 ⟨ranked, fits, by rw [if_pos full]⟩⟩
  have measured : ∃ size, measure (extent :: array.shape.tail) = .ok size := by
    by_cases none : extent = 0
    · rw [none]
      exact ⟨0, measure_zero_cons _⟩
    · have few : extent * array.shape.cellSize ≤ sizeLimit := by
        refine Nat.le_trans (Nat.mul_le_mul_right _ (Nat.le_of_add_left_le fits)) ?_
        rw [← count_eq_length_mul ranked]
        exact small (by omega) (by omega)
      refine ⟨_, measure_of_size ?_ ?_⟩
      · rw [Shape.size_cons]
        exact Nat.pos_of_ne_zero (Nat.mul_ne_zero none (made.cellSize_ne_zero ranked))
      · rwa [Shape.size_cons]
  exact ⟨_, slice_eq_ok_iff.2 ⟨ranked, fits, by rw [if_neg full]; exact ⟨measured, rfl⟩⟩⟩

/-! ### Two runs that meet -/

/-- A run of all cells is a copy. -/
theorem IsRun.isCopyOf (isRun : IsRun calling array 0 array.length run)
    (made : array.IsMade calling) (ranked : array.rank ≠ 0) :
    run.IsCopyOf calling held array := by
  have count : run.count = array.count := by rw [isRun.count, count_eq_length_mul ranked]
  by_cases none : array.count = 0
  · rw [made.sound.empty none, isRun.made.sound.empty (count.trans none)]
    exact .refl _
  · refine ⟨?_, isRun.fill (count ▸ none), fun index inside => ?_⟩
    · rw [isRun.shape (count ▸ none), shape_eq_cons ranked]
    · rw [pick, isRun.elementAt index (count ▸ inside), Nat.zero_mul, Nat.zero_add]
      exact .refl _

/-- The cells of a run show the values from its start on. -/
theorem IsRun.majorCells (isRun : IsRun calling array start extent run)
    (ranked : array.rank ≠ 0) (fits : start + extent ≤ array.length) (some : run.count ≠ 0)
    (reads : array.HasValues calling held values)
    (plain : array.rank = 1 → ∀ index < array.count, (values index).isArray = false) :
    ∃ cells, run.majorCells.EndsWith calling held cells ∧ cells.size = extent ∧
      AreCells calling held array.shape.tail
        (fun index => values (start * array.shape.cellSize + index)) cells := by
  have shape := isRun.shape some
  have rank : run.rank = array.rank := by
    rw [ShapedArray.rank, shape, ShapedArray.rank, ← shape_eq_cons ranked]
    rfl
  have inside (index : Nat) (below : index < run.count) :
      start * array.shape.cellSize + index < array.count := by
    rw [ShapedArray.count, shape] at below
    exact slice_lt ranked fits below
  have runReads : run.HasValues calling held fun index =>
      values (start * array.shape.cellSize + index) := by
    intro index below
    rw [pick, isRun.elementAt index below]
    exact reads _ (inside index below)
  obtain ⟨cells, ends, size, areCells⟩ := isRun.made.majorCells_endsWith (rank ▸ ranked) runReads
    fun list index below => plain (rank ▸ list) _ (inside index below)
  refine ⟨cells, ends, size.trans ?_, ?_⟩
  · rw [length, shape]
    rfl
  · rwa [shape, List.tail_cons] at areCells

theorem IsRun.rank_ne_zero (isRun : IsRun calling array start extent run) : run.rank ≠ 0 := by
  by_cases none : run.count = 0
  · rw [isRun.made.sound.empty none]
    decide
  · rw [rank, isRun.shape none]
    exact Nat.succ_ne_zero _

/-- Runs with elements have as many axes, so that neither is a cell beside the other. -/
theorem IsRun.cellsBeside_eq {start' extent' : Nat} {run' : ShapedArray}
    (isRun : IsRun calling array start extent run) (some : run.count ≠ 0)
    (isRun' : IsRun calling array start' extent' run') (some' : run'.count ≠ 0) :
    (Cellwise.cellsBeside run run' : Action H (Array Value)) = run.majorCells := by
  refine if_neg ?_
  rw [rank, rank, isRun.shape some, isRun'.shape some']
  exact Nat.succ_ne_self _

/-- Joining arrays with cells lays these together, unless one has no elements. -/
theorem join_eq (frontRanked : front.rank ≠ 0) (backRanked : back.rank ≠ 0) :
    (Primitive.join.apply (.array back) (some (.array front)) : Action H Value) =
      if front.isEmpty then pure (.array back) else
      if back.isEmpty then pure (.array front) else do
        let leading ← Cellwise.cellsBeside front back
        let trailing ← Cellwise.cellsBeside back front
        let merged ← mergeList (leading ++ trailing) front.fill
        return .array merged := by
  have asList {array : ShapedArray} (ranked : array.rank ≠ 0) :
      Cellwise.asList (.array array) = .ok array := if_neg ranked
  change (do
    let first ← Cellwise.asList (.array front)
    let second ← Cellwise.asList (.array back)
    if first.isEmpty then return .array second
    if second.isEmpty then return .array first
    let leading ← Cellwise.cellsBeside first second
    let trailing ← Cellwise.cellsBeside second first
    let merged ← mergeList (leading ++ trailing) first.fill
    return .array merged : Action H Value) = _
  rw [asList frontRanked, asList backRanked]
  rfl

/-- What it takes to lay the cells of an array anew: that it is within the limit, and that its
elements stay the same and are no arrays where they are the cells. -/
structure CanLay (calling : Call H) (held : Memory H → Prop) (array : ShapedArray) : Prop where
  small : array.count ≤ sizeLimit
  reads : ∃ values, array.HasValues calling held values ∧
    (array.rank = 1 → ∀ index < array.count, (values index).isArray = false)

/-- The cells of two runs that meet are the cells of the array. -/
theorem CanLay.merge_gives (can : array.CanLay calling held) (ranked : array.rank ≠ 0)
    (isFront : IsRun calling array 0 place front)
    (isBack : IsRun calling array place (array.length - place) back)
    (fits : place ≤ array.length) (frontSome : front.count ≠ 0) (backSome : back.count ≠ 0) :
    (do
      let leading ← front.majorCells
      let trailing ← back.majorCells
      let merged ← mergeList (leading ++ trailing) array.fill
      return .array merged : Action H Value).GivesCopy calling held array := by
  obtain ⟨values, reads, plain⟩ := can.reads
  obtain ⟨leading, ends, size, areCells⟩ :=
    isFront.majorCells ranked (by omega) frontSome reads plain
  obtain ⟨trailing, ends', size', areCells'⟩ :=
    isBack.majorCells ranked (by omega) backSome reads plain
  simp only [Nat.zero_mul, Nat.zero_add] at areCells
  have total : (leading ++ trailing).size = array.length := by
    rw [Array.size_append, size, size']
    omega
  have cells : AreCells calling held array.shape.tail values (leading ++ trailing) :=
    areCells.append (by rw [size]; exact areCells')
  refine ends.bind_gives (ends'.bind_gives ?_)
  refine cells.merge_gives (size_singleton _).symm ?_ ?_ can.small reads
  · rw [total]
    exact (shape_eq_cons ranked).symm
  · rw [count_eq_length_mul ranked]
    rw [isFront.count] at frontSome
    obtain ⟨some, cell⟩ := Nat.mul_ne_zero_iff.1 frontSome
    exact Nat.mul_ne_zero (by omega) cell

/-- Joining two runs that meet gives a copy of the array. Only if both have cells are these laid
anew. -/
theorem IsMade.join_gives (made : array.IsMade calling) (ranked : array.rank ≠ 0)
    (can : 0 < place → place < array.length → array.CanLay calling held)
    (isFront : IsRun calling array 0 place front)
    (isBack : IsRun calling array place (array.length - place) back)
    (fits : place ≤ array.length) :
    (Primitive.join.apply (.array back) (some (.array front))).GivesCopy calling held array := by
  have cell := made.cellSize_ne_zero ranked
  rw [join_eq isFront.rank_ne_zero isBack.rank_ne_zero]
  -- A piece without cells is left out, and the other one is given without reading it.
  by_cases noFront : front.count = 0
  · rw [if_pos (by simpa [isEmpty] using noFront)]
    rw [isFront.count] at noFront
    obtain rfl := (Nat.mul_eq_zero.1 noFront).resolve_right cell
    exact (Action.endsWith_pure _).givesCopy isBack.made (isBack.isCopyOf made ranked)
  rw [if_neg (by simpa [isEmpty] using noFront)]
  by_cases noBack : back.count = 0
  · rw [if_pos (by simpa [isEmpty] using noBack)]
    rw [isBack.count] at noBack
    have none := (Nat.mul_eq_zero.1 noBack).resolve_right cell
    obtain rfl : place = array.length := by omega
    exact (Action.endsWith_pure _).givesCopy isFront.made (isFront.isCopyOf made ranked)
  rw [if_neg (by simpa [isEmpty] using noBack), isFront.cellsBeside_eq noFront isBack noBack,
    isBack.cellsBeside_eq noBack isFront noFront, isFront.fill noFront]
  have inner : 0 < place ∧ 0 < array.length - place := by
    rw [isFront.count] at noFront
    rw [isBack.count] at noBack
    exact ⟨Nat.pos_of_ne_zero ((Nat.mul_ne_zero_iff.1 noFront).1),
      Nat.pos_of_ne_zero ((Nat.mul_ne_zero_iff.1 noBack).1)⟩
  exact (can inner.1 (by omega)).merge_gives ranked isFront isBack fits noFront noBack

/-! ### Taking and dropping -/

section Cuts

variable {amount : Value} {whole : Int}

/-- Taking cells gives the first or the last ones. -/
theorem IsMade.take_eq (made : array.IsMade calling) (ranked : array.rank ≠ 0)
    (small : 0 < whole.natAbs → whole.natAbs < array.length → array.count ≤ sizeLimit)
    (isInteger : amount.toInteger = .ok whole) (within : whole.natAbs ≤ array.length) : ∃ run,
      (Primitive.take.apply (.array array) (some amount) : Action H Value) = pure (.array run) ∧
        IsRun calling array (if 0 ≤ whole then 0 else array.length - whole.natAbs) whole.natAbs
          run := by
  have asList : Cellwise.asList (.array array) = .ok array := if_neg ranked
  have fits : (if 0 ≤ whole then 0 else array.length - whole.natAbs) + whole.natAbs ≤
      array.length := by
    split <;> omega
  obtain ⟨run, sliced, isRun⟩ := made.exists_run ranked fits small
  have applied : (Primitive.take.apply (.array array) (some amount) : Action H Value) =
      Cellwise.takeCells whole (.array array) := by
    change (do
      let amount ← amount.toInteger
      Cellwise.takeCells amount (.array array) : Action H Value) = _
    rw [isInteger]
    rfl
  refine ⟨run, ?_, isRun⟩
  rw [applied, Cellwise.takeCells, asList]
  refine (if_pos within).trans ?_
  rw [sliced]
  rfl

theorem drop_apply (ranked : array.rank ≠ 0) (isInteger : amount.toInteger = .ok whole) :
    (Primitive.drop.apply (.array array) (some amount) : Action H Value) =
      if array.length ≤ whole.natAbs then pure .nil else do
        let cells ← array.slice (if 0 ≤ whole then whole.natAbs else 0)
          (array.length - whole.natAbs)
        return .array cells := by
  have asList : Cellwise.asList (.array array) = .ok array := if_neg ranked
  change (do
    let amount ← amount.toInteger
    Cellwise.dropCells amount (.array array) : Action H Value) = _
  rw [isInteger]
  change Cellwise.dropCells whole (.array array) = _
  rw [Cellwise.dropCells, asList]
  rfl

/-- Dropping cells gives what taking as many leaves. -/
theorem IsMade.drop_eq (made : array.IsMade calling) (ranked : array.rank ≠ 0)
    (small : 0 < whole.natAbs → whole.natAbs < array.length → array.count ≤ sizeLimit)
    (isInteger : amount.toInteger = .ok whole) : ∃ run,
      (Primitive.drop.apply (.array array) (some amount) : Action H Value) = pure (.array run) ∧
        IsRun calling array (if 0 ≤ whole then whole.natAbs else 0)
          (array.length - whole.natAbs) run := by
  rw [drop_apply ranked isInteger]
  split
  · next all =>
      refine ⟨ShapedArray.nil, rfl, ?_⟩
      rw [Nat.sub_eq_zero_of_le all]
      exact isRun_nil array _
  · have fits : (if 0 ≤ whole then whole.natAbs else 0) + (array.length - whole.natAbs) ≤
        array.length := by
      split <;> omega
    obtain ⟨run, sliced, isRun⟩ := made.exists_run ranked fits fun some part =>
      small (by omega) (by omega)
    refine ⟨run, ?_, isRun⟩
    rw [sliced]
    rfl

end Cuts

/-- Cutting an array and joining the pieces restores it: what is taken from the front before what is
dropped behind it, and what is dropped before what is taken from the end. If both pieces have cells,
the array is within the limit, and its elements stay the same while they are read; those of a list
are no arrays. -/
theorem IsMade.cut_joins (made : array.IsMade calling) (ranked : array.rank ≠ 0)
    {amount : Value} {whole : Int} (isInteger : amount.toInteger = .ok whole)
    (within : whole.natAbs ≤ array.length)
    (can : 0 < whole.natAbs → whole.natAbs < array.length → array.CanLay calling held) :
    (0 ≤ whole → (do
      let rest ← Primitive.drop.apply (.array array) (some amount)
      let front ← Primitive.take.apply (.array array) (some amount)
      Primitive.join.apply rest (some front)).GiveAlike calling held (pure (.array array))) ∧
    (whole < 0 → (do
      let back ← Primitive.take.apply (.array array) (some amount)
      let rest ← Primitive.drop.apply (.array array) (some amount)
      Primitive.join.apply back (some rest)).GiveAlike calling held (pure (.array array))) := by
  have small (some : 0 < whole.natAbs) (part : whole.natAbs < array.length) :
      array.count ≤ sizeLimit := (can some part).small
  obtain ⟨taken, isTaken, takenRun⟩ := made.take_eq ranked small isInteger within
  obtain ⟨dropped, isDropped, droppedRun⟩ := made.drop_eq ranked small isInteger
  have same : (pure (.array array) : Action H Value).GivesCopy calling held array :=
    (Action.endsWith_pure _).givesCopy made (.refl array)
  rw [isTaken, isDropped]
  simp only [pure_bind]
  constructor
  · intro natural
    rw [if_pos natural] at takenRun droppedRun
    exact (made.join_gives ranked can takenRun droppedRun within).giveAlike same
  · intro negative
    rw [if_neg (Int.not_le.2 negative)] at takenRun droppedRun
    have back : IsRun calling array (array.length - whole.natAbs)
        (array.length - (array.length - whole.natAbs)) taken := by
      rwa [Nat.sub_sub_self within]
    refine (made.join_gives ranked (fun some part => ?_) droppedRun back
      (Nat.sub_le ..)).giveAlike same
    exact can (by omega) (by omega)

theorem IsMade.cut_joins_grid : Composed.grid.IsMade Composed.calls ∧ Composed.grid.rank ≠ 0 ∧
    (Value.number (-1.0)).toInteger = .ok (-1) ∧ (-1 : Int).natAbs ≤ Composed.grid.length ∧
    Composed.grid.CanLay Composed.calls (fun _ => True) ∧
    (do
      let back ← Primitive.take.apply (.array Composed.grid) (some (.number (-1.0)))
      let rest ← Primitive.drop.apply (.array Composed.grid) (some (.number (-1.0)))
      Primitive.join.apply back (some rest)).GiveAlike Composed.calls (fun _ => True)
        (pure (.array Composed.grid)) := by
  have isInteger : (Value.number (-1.0)).toInteger = .ok (-1) :=
    Outcome.eq_ok_of_toOption (by decide +kernel)
  have can : Composed.grid.CanLay Composed.calls (fun _ => True) :=
    ⟨by decide, _, hasValues_stored (Nat.le_refl 4), fun list => absurd list (by decide)⟩
  have ranked : Composed.grid.rank ≠ 0 := by decide
  have within : (-1 : Int).natAbs ≤ Composed.grid.length := by decide
  exact ⟨Composed.grid_made, ranked, isInteger, within, can,
    (IsMade.cut_joins Composed.grid_made ranked isInteger within fun _ _ => can).2 (by decide)⟩

namespace Severed

/-- Whether an array of which some cells are taken and as many dropped is restored. -/
def isRestored (array : ShapedArray) (amount : Value) : Action (Heap (List Routine)) Bool := do
  let rest ← Primitive.drop.apply (.array array) (some amount)
  let front ← Primitive.take.apply (.array array) (some amount)
  let joined ← Primitive.join.apply rest (some front)
  joined.same (.array array)

def pair (first second : Float) : Value :=
  .list #[.number first, .number second]

def nested : ShapedArray :=
  .list #[pair 1.0 2.0, pair 3.0 4.0]

def long : ShapedArray :=
  .list (Array.replicate (sizeLimit + 2) (.number 0.0))

theorem length_long : long.length = sizeLimit + 2 := by
  rw [length, long, shape_list, Array.size_replicate]
  rfl

theorem drop_long {amount : Value} (isInteger : amount.toInteger = .ok 1) :
    (Primitive.drop.apply (.array long) (some amount)).FailsAs calling held .shape := by
  have shape : long.shape = [sizeLimit + 2] := by rw [long, shape_list, Array.size_replicate]
  have ranked : long.rank ≠ 0 := by
    rw [rank, shape]
    exact Nat.one_ne_zero
  have sliced : long.slice 1 (sizeLimit + 1) = refuse (.shapeTooLarge [sizeLimit + 1]) := by
    have large : sizeLimit < Shape.size [sizeLimit + 1] := by
      rw [size_singleton]
      exact Nat.lt_succ_self sizeLimit
    rw [slice, if_neg ranked, length_long, if_neg (by omega), if_neg (by omega), build, shape,
      List.tail_cons, measure_of_large large]
    rfl
  rw [drop_apply ranked isInteger, length_long, if_neg (by decide)]
  change (do
    let cells ← long.slice 1 (sizeLimit + 1)
    return .array cells : Action H Value).FailsAs calling held .shape
  rw [sliced]
  exact (Action.failsAs_refuse _).bind

end Severed

/-- Arrays that are elements of a list are laid as the rows of an array. A zip that counts how often
it is read has gone on when it is compared with what was joined. And a list above the limit can be
made, but not be cut. -/
theorem IsMade.not_cut_joins :
    (Severed.nested.IsMade Tally.calls ∧
      (Severed.isRestored Severed.nested (.number 1.0) Tally.calls Tally.store).1 = .ok false) ∧
    (Ranked.counted.IsMade Tally.calls ∧
      (Severed.isRestored Ranked.counted (.number 1.0) Tally.calls Tally.store).1 = .ok false) ∧
    Severed.long.IsMade Tally.calls ∧ 1 < Severed.long.length ∧
      ∀ equal, (Severed.isRestored Severed.long (.number 1.0) Tally.calls Tally.store).1 ≠
        .ok equal := by
  refine ⟨⟨.list _, Outcome.eq_ok_of_toOption (by decide +kernel)⟩,
    ⟨Ranked.counted_made, Outcome.eq_ok_of_toOption (by decide +kernel)⟩, .list _, ?_, ?_⟩
  · rw [Severed.length_long]
    exact Nat.succ_lt_succ (Nat.succ_pos sizeLimit)
  · intro equal restored
    have isInteger : (Value.number 1.0).toInteger = .ok 1 :=
      Outcome.eq_ok_of_toOption (by decide +kernel)
    have fails : (Primitive.drop.apply (.array Severed.long) (some (.number 1.0))).FailsAs
      Tally.calls (fun _ => True) .shape := Severed.drop_long isInteger
    obtain ⟨failure, after, ended, _⟩ := fails.bind Tally.store trivial
    rw [Severed.isRestored, ended] at restored
    cases restored

end PointFree.ShapedArray

namespace PointFree.ShapedArray

variable {H : Type} {calling : Call H} {held : Memory H → Prop}
variable {array amounts : ShapedArray} {counts : Nat → Nat} {values : Nat → Value}

/-- The indices of counts are as many as these add up to. -/
theorem HasCounts.indices_count (isCount : amounts.HasCounts calling held counts)
    (axes : amounts.rank ≠ 0) :
    ∃ listed, (Primitive.replicate.apply (.array amounts) none).EndsWith calling held
      (.array listed) ∧ listed.count = ((List.range amounts.count).map counts).sum := by
  refine ⟨_, isCount.indices_endsWith axes, ?_⟩
  rw [count_list, List.size_toArray, List.length_map, length_spread]

/-- One count has as many indices as it says. -/
theorem indices_count_single {number : Nat} (small : number ≤ exactLimit) :
    ∃ listed, (Primitive.replicate.apply (.list #[.ofNat number]) none).EndsWith calling held
      (.array listed) ∧ listed.count = number := by
  have index : (Value.ofNat number).toIndex = .ok number := by
    have within : number ≤ indexMax := small.trans (by decide)
    rw [(Value.isWhole_ofNat small).toIndex_eq, Nat.min_eq_left within]
  have isCount : (ShapedArray.list #[.ofNat number]).HasCounts calling held fun _ => number := by
    refine (hasValues_list _).hasCounts fun place inside => ?_
    obtain rfl : place = 0 := Nat.lt_one_iff.1 inside
    exact index
  have axes : (ShapedArray.list #[.ofNat number]).rank ≠ 0 := by
    rw [rank, shape_list]
    exact Nat.one_ne_zero
  exact isCount.indices_count axes

/-- Counts that add up to more than the limit are listed all the same. Cells are not copied by
them. -/
theorem CanReplicate.indices_exceed (can : array.CanReplicate calling held amounts counts values)
    (axes : amounts.rank ≠ 0)
    (large : sizeLimit < ((List.range amounts.count).map counts).sum) :
    (∃ listed, (Primitive.replicate.apply (.array amounts) none).EndsWith calling held
        (.array listed) ∧ sizeLimit < listed.count) ∧
      (Primitive.replicate.apply (.array array) (some (.array amounts))).FailsAs calling held
        .shape := by
  obtain ⟨listed, ends, count⟩ := can.isCount.indices_count axes
  refine ⟨⟨listed, ends, count ▸ large⟩, can.replicate_fails (large.trans_le ?_)⟩
  rw [length_spread]
  exact Nat.le_mul_of_pos_right _ (Nat.pos_of_ne_zero (can.made.cellSize_ne_zero can.ranked))

/-- Pieces that can all be cut are listed, however many they are. -/
theorem listed_count {piece : Nat → Action H Value} {count : Nat}
    (pieces : ∀ index < count, ∃ run : ShapedArray,
      (piece index).EndsWith calling held (.array run)) :
    ∃ listed : ShapedArray, (do
      let all ← collect piece count
      return .list all : Action H Value).EndsWith calling held (.array listed) ∧
        listed.count = count := by
  have : Nonempty ShapedArray := ⟨.nil⟩
  choose! run ends using pieces
  refine ⟨_, (Action.endsWith_collect ends).bind (Action.endsWith_pure _), ?_⟩
  rw [count_list, Array.size_map, Array.size_range]

/-- An array within the limit has one more beginning than it has cells. -/
theorem IsMade.prefixes_count (made : array.IsMade calling) (ranked : array.rank ≠ 0)
    (small : array.count ≤ sizeLimit) :
    ∃ listed, (Primitive.take.apply (.array array) none).EndsWith calling held (.array listed) ∧
      listed.count = array.length + 1 := by
  have asList : Cellwise.asList (.array array) = .ok array := if_neg ranked
  have all : (Primitive.take.apply (.array array) none : Action H Value) = (do
      let all ← collect (fun amount => Cellwise.takeCells amount (.array array)) (array.length + 1)
      return .list all) := by
    change (liftM (Cellwise.asList (.array array)) >>= _ : Action H Value) = _
    rw [asList]
    rfl
  rw [all]
  refine listed_count fun extent within => ?_
  have within : extent ≤ array.length := Nat.le_of_lt_succ within
  obtain ⟨run, sliced, -⟩ := made.exists_run ranked ((Nat.zero_add extent).trans_le within)
    fun _ _ => small
  have taken : (Cellwise.takeCells extent (.array array) : Action H Value) = pure (.array run) := by
    rw [Cellwise.takeCells, asList]
    refine (if_pos within).trans ?_
    rw [if_pos (Int.natCast_nonneg extent), Int.natAbs_natCast, sliced]
    rfl
  exact ⟨run, taken ▸ Action.endsWith_pure _⟩

/-- An array within the limit has one more end than it has cells. -/
theorem IsMade.suffixes_count (made : array.IsMade calling) (ranked : array.rank ≠ 0)
    (small : array.count ≤ sizeLimit) :
    ∃ listed, (Primitive.drop.apply (.array array) none).EndsWith calling held (.array listed) ∧
      listed.count = array.length + 1 := by
  have asList : Cellwise.asList (.array array) = .ok array := if_neg ranked
  have all : (Primitive.drop.apply (.array array) none : Action H Value) = (do
      let all ← collect (fun amount => Cellwise.dropCells amount (.array array)) (array.length + 1)
      return .list all) := by
    change (liftM (Cellwise.asList (.array array)) >>= _ : Action H Value) = _
    rw [asList]
    rfl
  rw [all]
  refine listed_count fun extent within => ?_
  have within : extent ≤ array.length := Nat.le_of_lt_succ within
  by_cases whole : array.length ≤ extent
  · have dropped : (Cellwise.dropCells extent (.array array) : Action H Value) =
        pure (.array .nil) := by
      rw [Cellwise.dropCells, asList]
      exact if_pos whole
    exact ⟨.nil, dropped ▸ Action.endsWith_pure _⟩
  · obtain ⟨run, sliced, -⟩ := made.exists_run ranked (Nat.add_sub_of_le within).le
      fun _ _ => small
    have dropped : (Cellwise.dropCells extent (.array array) : Action H Value) =
        pure (.array run) := by
      rw [Cellwise.dropCells, asList]
      refine (if_neg whole).trans ?_
      rw [if_pos (Int.natCast_nonneg extent), Int.natAbs_natCast, sliced]
      rfl
    exact ⟨run, dropped ▸ Action.endsWith_pure _⟩

end PointFree.ShapedArray
