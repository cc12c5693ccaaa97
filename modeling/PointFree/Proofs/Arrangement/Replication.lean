import Mathlib.Algebra.GroupWithZero.Nat
import Mathlib.Data.List.GetD
import PointFree.Proofs.Arrangement.Selection

/-!
Contract: replicating cells.

Counts spread out are the indices of the counts, each as often as its count says. The primitive lists
them for counts alone; and for counts and an array it lays the cells at these places together, so it
does what selecting by the list of indices does. Both come to the arrangement by the indices, or are
refused for its size.
-/

namespace PointFree

variable {H : Type} {calling : Call H} {held : Memory H → Prop}

namespace Cellwise

/-! ### Counts spread out -/

/-- Each index as often as the count there, the first index being `start`. -/
def spreadFrom : (start : Nat) → List Nat → List Nat
  | _, [] => []
  | start, count :: counts => List.replicate count start ++ spreadFrom (start + 1) counts

variable {counts : List Nat} {start index : Nat}

theorem mem_spreadFrom (member : index ∈ spreadFrom start counts) :
    start ≤ index ∧ index < start + counts.length := by
  induction counts generalizing start with
  | nil => cases member
  | cons count counts inductionHypothesis =>
      rw [spreadFrom, List.mem_append] at member
      rw [List.length_cons]
      rcases member with here | later
      · rw [List.eq_of_mem_replicate here]
        omega
      · have bounds := inductionHypothesis later
        omega

theorem length_spreadFrom : (spreadFrom start counts).length = counts.sum := by
  induction counts generalizing start with
  | nil => rfl
  | cons count counts inductionHypothesis =>
      rw [spreadFrom, List.length_append, List.length_replicate, inductionHypothesis,
        List.sum_cons]

theorem appendCopies_eq (count : Nat) (content : Value) (found : Array Value) :
    (appendCopies count content found).toList = found.toList ++ List.replicate count content := by
  induction count generalizing found with
  | zero => simp [appendCopies]
  | succ count inductionHypothesis =>
      rw [appendCopies, inductionHypothesis, Array.toList_push, List.append_assoc]
      rfl

/-- The loop over counts alone lists the indices. -/
theorem foldl_indices (found : Array Value) :
    (counts.foldl (fun (state : Nat × Array Value) count =>
      (state.1 + 1, appendCopies count (.ofNat state.1) state.2)) (start, found)).2.toList =
        found.toList ++ (spreadFrom start counts).map Value.ofNat := by
  induction counts generalizing start found with
  | nil => simp [spreadFrom]
  | cons count counts inductionHypothesis =>
      rw [List.foldl_cons, inductionHypothesis, appendCopies_eq, spreadFrom, List.map_append,
        List.map_replicate, List.append_assoc]

/-- The loop over counts and cells lists the cells at the indices. -/
theorem foldl_copies {cells : List Value} {cell : Nat → Value}
    (are : ∀ (place : Nat) (inside : place < cells.length), cells[place] = cell (start + place))
    (size : cells.length = counts.length) (found : Array Value) :
    ((cells.zip counts).foldl (fun found pair => appendCopies pair.2 pair.1 found) found).toList =
      found.toList ++ (spreadFrom start counts).map cell := by
  -- The induction is on the counts; the cells begin at any place, so that the rest fits.
  induction counts generalizing start found cells with
  | nil => simp [spreadFrom]
  | cons count counts inductionHypothesis =>
      cases cells with
      | nil => cases size
      | cons first cells =>
          have here : first = cell start := are 0 (Nat.succ_pos _)
          have later (place : Nat) (inside : place < cells.length) :
              cells[place] = cell (start + 1 + place) := by
            rw [Nat.add_right_comm]
            exact are (place + 1) (Nat.succ_lt_succ inside)
          rw [List.zip_cons_cons, List.foldl_cons,
            inductionHypothesis later (Nat.succ.inj size), appendCopies_eq, spreadFrom,
            List.map_append, List.map_replicate, List.append_assoc, here]

end Cellwise

namespace ShapedArray

variable {array amounts : ShapedArray} {counts : Nat → Nat} {values : Nat → Value}

/-- Every element is taken for the count at its index, whenever it is read. -/
def HasCounts (calling : Call H) (held : Memory H → Prop) (amounts : ShapedArray)
    (counts : Nat → Nat) : Prop :=
  ∀ index < amounts.count, ∃ value,
    (amounts.pick index).EndsWith calling held value ∧ value.toIndex = .ok (counts index)

/-- The indices of the counts, each as often as its count. -/
def spread (amounts : ShapedArray) (counts : Nat → Nat) : List Nat :=
  Cellwise.spreadFrom 0 ((List.range amounts.count).map counts)

/-- The cell at each place of a replication. -/
def spreadAt (amounts : ShapedArray) (counts : Nat → Nat) (place : Nat) : Nat :=
  (amounts.spread counts).getD place 0

theorem length_spread :
    (amounts.spread counts).length = ((List.range amounts.count).map counts).sum :=
  Cellwise.length_spreadFrom

theorem spreadAt_eq {place : Nat} (inside : place < (amounts.spread counts).length) :
    amounts.spreadAt counts place = (amounts.spread counts)[place] :=
  List.getD_eq_getElem _ _ inside

theorem spreadAt_lt {place : Nat} (inside : place < (amounts.spread counts).length) :
    amounts.spreadAt counts place < amounts.count := by
  rw [spreadAt_eq inside]
  have bounds := Cellwise.mem_spreadFrom (List.getElem_mem inside)
  simpa using bounds.2

theorem HasCounts.taken (isCount : amounts.HasCounts calling held counts) :
    (Cellwise.taken amounts Value.toIndex).EndsWith calling held
      ((Array.range amounts.count).map counts) := by
  refine Action.endsWith_collect fun index inside => ?_
  obtain ⟨value, reads, isIndex⟩ := isCount index inside
  refine reads.bind ?_
  rw [isIndex]
  exact Action.endsWith_pure _

/-- The primitive lists the indices of counts, each as often as its count. -/
theorem HasCounts.indices_endsWith (isCount : amounts.HasCounts calling held counts)
    (ranked : amounts.rank ≠ 0) :
    (Primitive.replicate.apply (.array amounts) none).EndsWith calling held
      (.list ((amounts.spread counts).map Value.ofNat).toArray) := by
  have cells : Cellwise.requireCells '/' (.array amounts) = .ok amounts := if_neg ranked
  change (do
    let items ← Cellwise.requireCells '/' (.array amounts)
    let counts ← Cellwise.taken items Value.toIndex
    let found := (counts.foldl
      (fun (state : Nat × Array Value) count =>
        (state.1 + 1, Cellwise.appendCopies count (.ofNat state.1) state.2)) (0, #[])).2
    return .list found : Action H Value).EndsWith calling held _
  rw [cells]
  have listed : (((Array.range amounts.count).map counts).foldl
      (fun (state : Nat × Array Value) count =>
        (state.1 + 1, Cellwise.appendCopies count (.ofNat state.1) state.2)) (0, #[])).2 =
          ((amounts.spread counts).map Value.ofNat).toArray := by
    rw [← Array.toList_inj, ← Array.foldl_toList, Cellwise.foldl_indices, Array.toList_map,
      Array.toList_range]
    rfl
  rw [← listed]
  exact isCount.taken.bind (Action.endsWith_pure _)

/-- The copies of the cells are the cells at the indices. -/
theorem exists_copies {cells : Array Value} (size : amounts.count = cells.size)
    (areCells : AreCells calling held array.shape.tail values cells) :
    ∃ copies, (cells.zip ((Array.range amounts.count).map counts)).foldl
        (fun found pair => Cellwise.appendCopies pair.2 pair.1 found) #[] = copies ∧
      copies.size = (amounts.spread counts).length ∧
      AreCells calling held array.shape.tail
        (rearranged array.shape.cellSize (amounts.spreadAt counts) values) copies := by
  have are (place : Nat) (inside : place < cells.toList.length) :
      cells.toList[place] = cells.getD (0 + place) .nil := by
    rw [Array.length_toList] at inside
    simp [inside]
  have folded : ((cells.toList.zip ((List.range amounts.count).map counts)).foldl
      (fun found pair => Cellwise.appendCopies pair.2 pair.1 found) #[]).toList =
        [] ++ (amounts.spread counts).map fun place => cells.getD place .nil :=
    Cellwise.foldl_copies are (by simpa using size.symm) #[]
  have listed : ((cells.zip ((Array.range amounts.count).map counts)).foldl
      (fun found pair => Cellwise.appendCopies pair.2 pair.1 found) #[]).toList =
        (amounts.spread counts).map fun place => cells.getD place .nil := by
    rw [← Array.foldl_toList, Array.toList_zip, Array.toList_map, Array.toList_range, folded,
      List.nil_append]
  refine ⟨_, rfl, ?_, fun place inside => ?_⟩
  · rw [← Array.length_toList, listed, List.length_map]
  · have within : place < (amounts.spread counts).length := by
      rwa [← Array.length_toList, listed, List.length_map] at inside
    have there := spreadAt_lt within
    rw [size] at there
    have isCell := areCells _ there
    have found := List.getElem_of_eq listed (by rwa [Array.length_toList])
    rw [Array.getElem_toList, List.getElem_map, ← spreadAt_eq within,
      ← Array.getElem_eq_getD] at found
    rw [found]
    exact isCell.rearranged

/-! ### The two ways -/

/-- What it takes to replicate cells: an array with cells that are no arrays themselves, whose
elements stay the same, and a count for each of the cells. -/
structure CanReplicate (calling : Call H) (held : Memory H → Prop) (array amounts : ShapedArray)
    (counts : Nat → Nat) (values : Nat → Value) : Prop where
  made : array.IsMade calling
  ranked : array.rank ≠ 0
  reads : array.HasValues calling held values
  plain : array.rank = 1 → ∀ index < array.count, (values index).isArray = false
  each : amounts.count = array.length
  isCount : amounts.HasCounts calling held counts

namespace CanReplicate

theorem spreadAt_lt (can : array.CanReplicate calling held amounts counts values) {place : Nat}
    (inside : place < (amounts.spread counts).length) :
    amounts.spreadAt counts place < array.length :=
  can.each ▸ ShapedArray.spreadAt_lt inside

theorem selected (can : array.CanReplicate calling held amounts counts values) :
    array.HasSelected calling held (amounts.spreadAt counts) (amounts.spread counts).length
      values :=
  fun _ inside _ within => can.reads _ (cell_lt can.ranked (can.spreadAt_lt inside) within)

/-- Replicating by counts merges the copies of the cells. -/
theorem replicate_merges (can : array.CanReplicate calling held amounts counts values) :
    ∃ copies, copies.size = (amounts.spread counts).length ∧
      AreCells calling held array.shape.tail
        (rearranged array.shape.cellSize (amounts.spreadAt counts) values) copies ∧
      ∀ memory, held memory → ∃ after, held after ∧
        Primitive.replicate.apply (.array array) (some (.array amounts)) calling memory =
          (do
            let merged ← merge copies array.fill [copies.size]
            return .array merged : Action H Value) calling after := by
  obtain ⟨cells, ends, size, areCells⟩ :=
    can.made.majorCells_endsWith can.ranked can.reads can.plain
  have same : amounts.count = cells.size := can.each.trans size.symm
  obtain ⟨copies, folded, length, areCopies⟩ := exists_copies same areCells
  refine ⟨copies, length, areCopies, fun memory holds => ?_⟩
  have asList : Cellwise.asList (.array array) = .ok array := if_neg can.ranked
  have copyCounts : (Cellwise.copyCounts (.array amounts) cells.size : Action H (Array Nat)) =
      Cellwise.taken amounts Value.toIndex := if_neg (not_not.2 same)
  obtain ⟨between, ended, kept⟩ := ends memory holds
  obtain ⟨after, taken, kept'⟩ := can.isCount.taken between kept
  refine ⟨after, kept', ?_⟩
  change (do
    let items ← Cellwise.asList (.array array)
    let cells ← items.majorCells
    let counts ← Cellwise.copyCounts (.array amounts) cells.size
    let copies := (cells.zip counts).foldl
      (fun found pair => Cellwise.appendCopies pair.2 pair.1 found) #[]
    let merged ← ShapedArray.mergeList copies items.fill
    return .array merged : Action H Value) calling memory = _
  rw [asList]
  refine (Action.bind_of_ok ended).trans ?_
  rw [copyCounts]
  refine (Action.bind_of_ok taken).trans ?_
  rw [folded]
  rfl

theorem replicate_fails (can : array.CanReplicate calling held amounts counts values)
    (large : sizeLimit < (amounts.spread counts).length * array.shape.cellSize) :
    (Primitive.replicate.apply (.array array) (some (.array amounts))).FailsAs calling held
      .shape := by
  obtain ⟨copies, length, areCopies, merges⟩ := can.replicate_merges
  have some : 0 < copies.size := by
    rw [length]
    exact Nat.pos_of_mul_pos_right (Nat.zero_lt_of_lt large)
  have fails : (merge copies array.fill [copies.size]).FailsAs calling held .shape := by
    refine merge_fails (size_singleton _).symm (Array.getElem?_eq_getElem some) ?_ _
    rw [(areCopies 0 some).shape, size_append_tail, size_singleton, length]
    exact large
  intro memory holds
  obtain ⟨after, kept, same⟩ := merges memory holds
  rw [same]
  exact fails.bind after kept

/-! #### Through the indices -/

/-- The indices that the primitive lists. -/
def indicesListed (amounts : ShapedArray) (counts : Nat → Nat) : ShapedArray :=
  .list ((amounts.spread counts).map Value.ofNat).toArray

theorem count_indicesListed :
    (indicesListed amounts counts).count = (amounts.spread counts).length := by
  rw [indicesListed, count_list, List.size_toArray, List.length_map]

theorem indices_hasIntegers (can : array.CanReplicate calling held amounts counts values)
    (short : array.length ≤ exactLimit + 1) :
    (indicesListed amounts counts).HasIntegers calling held
      fun place => (amounts.spreadAt counts place : Int) := by
  intro place inside
  rw [count_indicesListed] at inside
  have below := can.spreadAt_lt inside
  refine ⟨_, ?_, Value.isWhole_ofNat (by omega)⟩
  rw [pick, indicesListed, elementAt_list (by simpa using inside), List.getElem_toArray,
    List.getElem_map, ← spreadAt_eq inside]
  exact Action.endsWith_pure _

theorem namesCell (can : array.CanReplicate calling held amounts counts values) {place : Nat}
    (inside : place < (indicesListed amounts counts).count) :
    Cellwise.NamesCell array.length (amounts.spreadAt counts place) := by
  rw [count_indicesListed] at inside
  have below := can.spreadAt_lt inside
  exact ⟨by omega, by omega⟩

theorem select_gives (can : array.CanReplicate calling held amounts counts values)
    (short : array.length ≤ exactLimit + 1)
    (small : (amounts.spread counts).length * array.shape.cellSize ≤ sizeLimit) :
    (Primitive.select.apply (.array array)
      (some (.array (indicesListed amounts counts)))).GivesCopy calling held
        (array.arranged (amounts.spreadAt counts) [(amounts.spread counts).length]) := by
  have placed (place : Nat) :
      Cellwise.placeNamed array.length (amounts.spreadAt counts place) =
        amounts.spreadAt counts place :=
    congrArg Int.toNat (if_neg (by omega))
  have shape : (indicesListed amounts counts).shape = [(amounts.spread counts).length] := by
    rw [indicesListed, shape_list, List.size_toArray, List.length_map]
  have total : Shape.size [(amounts.spread counts).length] = (amounts.spread counts).length :=
    size_singleton _
  have arranges : array.CanArrange calling held
      (fun place => Cellwise.placeNamed array.length (amounts.spreadAt counts place))
      (indicesListed amounts counts).shape values := by
    simp only [placed, shape]
    exact {
      made := can.made
      ranked := can.ranked
      below := fun place inside => can.spreadAt_lt (total ▸ inside)
      empty := fun none => by rw [← total, none]
      exact := fun _ place inside => by
        have below := can.spreadAt_lt (total ▸ inside)
        omega
      reads := fun _ => by
        rw [total]
        exact can.selected }
  have word : (array.length : Int) ≤ integerMax :=
    Int.le_trans (Int.ofNat_le.2 short) (by decide)
  have gives := (can.indices_hasIntegers short).select_gives (fun _ inside => can.namesCell inside)
    arranges word (by rwa [count_indicesListed])
  simpa only [placed, shape] using gives

theorem select_fails (can : array.CanReplicate calling held amounts counts values)
    (short : array.length ≤ exactLimit + 1)
    (large : sizeLimit < (amounts.spread counts).length * array.shape.cellSize) :
    (Primitive.select.apply (.array array)
      (some (.array (indicesListed amounts counts)))).FailsAs calling held .shape := by
  have word : (array.length : Int) ≤ integerMax :=
    Int.le_trans (Int.ofNat_le.2 short) (by decide)
  exact (can.indices_hasIntegers short).select_fails (fun _ inside => can.namesCell inside) can.made
    can.ranked word (by rwa [count_indicesListed])

end CanReplicate

theorem HasValues.hasCounts (reads : amounts.HasValues calling held values)
    (are : ∀ index < amounts.count, (values index).toIndex = .ok (counts index)) :
    amounts.HasCounts calling held counts :=
  fun index inside => ⟨_, reads index inside, are index inside⟩

namespace Replicated

end Replicated

namespace Replicated

open Selected

/-- A sum of two letters. -/
def sum : ShapedArray :=
  .ofView .zip [1] none fun index =>
    .combined (.mk 0 (.primitive .add)) ((ShapedArray.list #[.character 'a']).elementAt (index % 1))
      ((ShapedArray.list #[.character 'b']).elementAt (index % 1))

theorem sum_made : sum.IsMade Composed.calls := by
  have zipped : (ShapedArray.list #[.character 'a']).zip (.list #[.character 'b'])
    (.mk 0 (.primitive .add)) = .ok sum := rfl
  exact .zip (.list _) (.list _) zipped

variable {count : Nat}

end Replicated

end ShapedArray

end PointFree
