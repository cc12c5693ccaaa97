import PointFree.Function.Call
import PointFree.Proofs.Merging.Inverse
import PointFree.Proofs.Ranking

/-!
Contract: a function applied along a frame.

The positions of a frame are the numbers below its size, written in the radix of its axes. At a
rank, a function is applied once at each of them, in this order, to the cell of the right argument
there and to that of the left one, or to the whole left argument if it has no axes. What comes of it
is read once and laid together, so that the cell of the whole at a position is read off what the
function gave there. Without elements, the whole is the empty array, which has no cells under a
frame.
-/

namespace PointFree

variable {H : Type} {calling : Call H} {memory after : Memory H}

/-! ### Merges that succeed -/

/-- What was read of an item that has so many elements. -/
structure Value.IsRow (calling : Call H) (inner : Shape) (item : Value) (row : List Value) :
    Prop where
  shape : item.shape = inner
  length : row.length = inner.size
  reads : ∀ (index : Nat) (value : Value), row[index]? = some value →
    (item.toArray.pick index).Gives calling value

namespace ShapedArray

variable {items : Array Value} {fill : Option Value} {outer inner : Shape} {result : ShapedArray}

theorem appendItem_eq_ok {data all : Array Value} {item : Value}
    (ended : appendItem inner data item calling memory = (.ok all, after)) :
    ∃ row, item.IsRow calling inner row ∧ all.toList = data.toList ++ row := by
  by_cases same : item.shape = inner
  · rw [appendItem_of_shape data same] at ended
    obtain ⟨more, between, read, ended⟩ := Action.bind_eq_ok.1 ended
    cases ended
    have anywhere : (fun _ : Memory H => True) memory := trivial
    obtain ⟨_, length, reads⟩ :=
      Action.reaches_of_collect (fun _ _ _ _ _ _ _ => trivial) anywhere read
    refine ⟨more.toList, ⟨same, ?_, fun index value there => ?_⟩, Array.toList_append⟩
    · rw [Array.length_toList, length, Value.count_toArray, same]
    · rw [Array.getElem?_toList] at there
      obtain ⟨inside, rfl⟩ := Array.getElem?_eq_some_iff.1 there
      obtain ⟨memory, after, _, picked⟩ := reads index inside
      exact ⟨memory, after, picked⟩
  · obtain ⟨fault, refused⟩ := appendItem_of_other (H := H) data same
    rw [refused] at ended
    cases ended

theorem foldlM_appendItem_eq_ok {list : List Value} {data all : Array Value}
    (ended : list.foldlM (appendItem inner) data calling memory = (.ok all, after)) :
    ∃ rows, List.Forall₂ (Value.IsRow calling inner) list rows ∧
      all.toList = data.toList ++ rows.flatten := by
  induction list generalizing data memory with
  | nil =>
      cases ended
      exact ⟨[], .nil, (List.append_nil _).symm⟩
  | cons item list inductionHypothesis =>
      rw [List.foldlM_cons] at ended
      obtain ⟨found, between, appended, ended⟩ := Action.bind_eq_ok.1 ended
      obtain ⟨row, isRow, isFound⟩ := appendItem_eq_ok appended
      obtain ⟨rows, areRows, isAll⟩ := inductionHypothesis ended
      exact ⟨row :: rows, .cons isRow areRows, by
        rw [isAll, isFound, List.flatten_cons, List.append_assoc]⟩

/-- A merge of some items has stored the rows that it has read of them. -/
theorem merge_eq_ok (some : items ≠ #[])
    (ended : merge items fill outer calling memory = (.ok result, after)) :
    ∃ inner rows, List.Forall₂ (Value.IsRow calling inner) items.toList rows ∧
      (outer ++ inner).size ≤ sizeLimit ∧
      result = ofView .owned (outer ++ inner) fill (stored rows.flatten.toArray) := by
  have size := size_of_merge ended
  rw [merge, if_neg (not_not.2 size)] at ended
  cases first : items[0]? with
  | none => exact absurd (Array.size_eq_zero_iff.1 (by simpa using first)) some
  | some item =>
      rw [first] at ended
      obtain ⟨total, _, measured, ended⟩ := Action.bind_eq_ok.1 ended
      obtain ⟨data, _, laid, ended⟩ := Action.bind_eq_ok.1 ended
      rw [← Array.foldlM_toList] at laid
      obtain ⟨rows, areRows, isData⟩ := foldlM_appendItem_eq_ok laid
      obtain rfl : data = rows.flatten.toArray := Array.toList_inj.1 (by simpa using isData)
      refine ⟨item.shape, rows, areRows, size_le_of_measure (congrArg Prod.fst measured), ?_⟩
      have isFilled : filled (outer ++ item.shape) rows.flatten.toArray fill = .ok result :=
        congrArg Prod.fst ended
      obtain ⟨_, _, isFilled⟩ := Outcome.bind_eq_ok.1 isFilled
      split at isFilled
      · exact (Except.ok.inj isFilled).symm
      · cases isFilled

theorem lengths_of_rows {list : List Value} {rows : List (List Value)}
    (areRows : List.Forall₂ (Value.IsRow calling inner) list rows) :
    ∀ row ∈ rows, row.length = inner.size := by
  induction areRows with
  | nil => exact nofun
  | cons isRow _ inductionHypothesis =>
      exact List.forall_mem_cons.2 ⟨isRow.length, inductionHypothesis⟩

theorem exists_row {list : List Value} {rows : List (List Value)}
    (areRows : List.Forall₂ (Value.IsRow calling inner) list rows) {place : Nat} {item : Value}
    (there : list[place]? = some item) :
    ∃ row, rows[place]? = some row ∧ item.IsRow calling inner row := by
  have pair := Correspondence.getElem?_of_forall₂ areRows place
  rw [there] at pair
  cases isRow : rows[place]? with
  | none =>
      rw [isRow] at pair
      cases pair
  | some row =>
      rw [isRow] at pair
      cases pair with
      | some reads => exact ⟨row, rfl, reads⟩

/-- Among the rows, end to end, stands what was read of each item. -/
theorem getElem?_flatten_rows {list : List Value} {rows : List (List Value)}
    (areRows : List.Forall₂ (Value.IsRow calling inner) list rows) {place index : Nat}
    {item : Value} (there : list[place]? = some item) (inside : index < inner.size) :
    ∃ value, rows.flatten[place * inner.size + index]? = some value ∧
      (item.toArray.pick index).Gives calling value := by
  obtain ⟨row, isRow, reads⟩ := exists_row areRows there
  have below : index < row.length := reads.length ▸ inside
  refine ⟨row[index], ?_, reads.reads index _ (List.getElem?_eq_getElem below)⟩
  have lengths : ∀ row ∈ rows, (id row).length = inner.size := lengths_of_rows areRows
  rw [← List.flatMap_id, Shape.getElem?_flatMap lengths place inside, isRow]
  exact List.getElem?_eq_getElem below

/-- The cells of a merge are read off its items. -/
theorem exists_cell_of_merge (ended : merge items fill outer calling memory = (.ok result, after))
    (filled : result.count ≠ 0) {place : Nat} {position : List Nat} {item : Value}
    (isPosition : (Shape.indices outer)[place]? = some position)
    (there : items[place]? = some item) : ∃ cell, result.selectRank position = .ok cell ∧
      cell.IsReadOff calling (fun _ => True) item.toArray := by
  have made : result.IsMade calling := .merge ⟨memory, after, ended⟩
  have some : items ≠ #[] := Array.ne_empty_of_mem (Array.mem_of_getElem? there)
  obtain ⟨inner, rows, areRows, small, rfl⟩ := merge_eq_ok some ended
  rw [count_ofView] at filled
  have isShape : (ofView .owned (outer ++ inner) fill (stored rows.flatten.toArray)).shape =
      outer ++ inner := by rw [ofView_of_filled filled]; rfl
  rw [← Array.getElem?_toList] at there
  obtain ⟨_, _, isRow⟩ := exists_row areRows there
  obtain ⟨holds, rfl⟩ := Shape.getElem?_indices.1 isPosition
  have length : position.length = outer.length := List.Forall₂.length_eq holds
  obtain ⟨cell, selected⟩ := made.exists_cell (by rwa [isShape, length, List.take_left])
    fun _ => count_ofView .. ▸ small
  obtain ⟨cellShape, _, elements⟩ := made.selectRank_reads selected
  rw [isShape, length, List.drop_left] at cellShape
  refine ⟨cell, selected, .of_reaches ?_ fun index inside => ?_⟩
  · rw [cellShape, Value.shape_toArray, isRow.shape]
  · rw [Value.count_toArray, isRow.shape] at inside
    obtain ⟨value, stands, memory, after, picked⟩ := getElem?_flatten_rows areRows there inside
    refine ⟨value, ?_, memory, after, trivial, picked⟩
    have whole : outer.place position * inner.size + index < (outer ++ inner).size := by
      rw [Shape.size_append]
      calc outer.place position * inner.size + index
          < outer.place position * inner.size + inner.size := Nat.add_lt_add_left inside _
        _ = (outer.place position + 1) * inner.size := (Nat.succ_mul ..).symm
        _ ≤ outer.size * inner.size := Nat.mul_le_mul_right _ holds.place_lt
    rw [elements index (by rwa [count, cellShape]), isShape, Shape.place_of_prefix length,
      elementAt_ofView _ _ _ _ _ whole, stored, List.getElem?_toArray, stands]

end ShapedArray

/-! ### A function at the positions of a frame -/

/-- A loop over a list that succeeds goes from memory to memory, one item after the other. -/
theorem Action.memories_of_mapM {α β : Type} {change : α → Action H β} {list : List α}
    {results : List β} (ended : list.mapM change calling memory = (.ok results, after)) :
    ∃ memories : Nat → Memory H, memories 0 = memory ∧ memories list.length = after ∧
      results.length = list.length ∧
      ∀ (index : Nat) (item : α), list[index]? = some item → ∃ value,
        results[index]? = some value ∧
        change item calling (memories index) = (.ok value, memories (index + 1)) := by
  induction list generalizing memory results with
  | nil =>
      cases ended
      refine ⟨fun _ => _, rfl, rfl, rfl, ?_⟩
      rintro index item ⟨⟩
  | cons item list inductionHypothesis =>
      rw [List.mapM_cons] at ended
      obtain ⟨value, between, first, ended⟩ := Action.bind_eq_ok.1 ended
      obtain ⟨values, last, later, ended⟩ := Action.bind_eq_ok.1 ended
      cases ended
      obtain ⟨memories, rfl, rfl, length, each⟩ := inductionHypothesis later
      refine ⟨fun index => Nat.casesOn index memory memories, rfl, rfl, by simp [length], ?_⟩
      rintro (_ | index) other there
      · cases there
        exact ⟨value, rfl, first⟩
      · exact each index other there

namespace Operation

variable {operation : Operation H} {asked : Int} {right : Value} {left : Option Value}

/-- The axes around the cells that are asked for. -/
def frame (asked : Int) (right : Value) : Shape :=
  right.toArray.shape.take (right.toArray.rank - cellRank right.toArray.rank asked)

/-- The cell of the left argument at a position, or the whole of it if it has no axes. -/
def leftAt (left : Option Value) (position : List Nat) : Action H (Option Value) :=
  match left with
  | some (.array items) =>
      if items.rank = 0 then return left
      else do
        let cell ← items.cellAt position
        return some cell
  | _ => return left

/-- The operation, applied to the cells at a position. -/
def atPosition (operation : Operation H) (right : Value) (left : Option Value)
    (position : List Nat) : Action H Value := do
  let cell ← right.toArray.cellAt position
  let beside ← leftAt left position
  operation cell beside

theorem cellAt_of_companion {frame : Shape} {others : Companion}
    (accepted : companion frame left = .ok others) (position : List Nat) :
    (others.cellAt position : Action H (Option Value)) = leftAt left position := by
  rcases left with _ | value
  · cases accepted
    rfl
  · cases value with
    | array items =>
        change (if items.rank = 0 then _ else _) = _ at accepted
        by_cases axes : items.rank = 0
        · rw [if_pos axes] at accepted
          cases accepted
          exact (if_pos axes).symm
        · rw [if_neg axes] at accepted
          split at accepted
          · cases accepted
            exact (if_neg axes).symm
          · cases accepted
    | number | character | function =>
        cases accepted
        rfl

theorem length_frame (asked : Int) (right : Value) :
    (frame asked right).length = right.toArray.rank - cellRank right.toArray.rank asked := by
  rw [frame, List.length_take]
  exact Nat.min_eq_left (Nat.sub_le ..)

theorem atRank_of_frame_nil (none : frame asked right = []) :
    operation.atRank asked right left = operation right left := by
  have length := length_frame asked right
  rw [none] at length
  exact if_pos length.symm

theorem atRank_of_accepted (some : frame asked right ≠ []) {others : Companion}
    (accepted : companion (frame asked right) left = .ok others) :
    operation.atRank asked right left = (do
      let results ← (List.range (frame asked right).size).mapM fun number =>
        operation.atPosition right left ((frame asked right).digits number)
      let merged ← ShapedArray.merge results.toArray none (frame asked right)
      return .array merged) := by
  have axes : right.toArray.rank - cellRank right.toArray.rank asked ≠ 0 := by
    rw [← length_frame]
    exact mt List.length_eq_zero_iff.1 some
  have along : operation.atRank asked right left =
      along (operation.atPosition right left) (frame asked right) := by
    rw [atRank, if_neg axes]
    change (liftM (companion (frame asked right) left) >>= _ : Action H Value) = _
    rw [accepted]
    have positions : operation.atPosition right left = fun position => (do
        let cell ← right.toArray.cellAt position
        let beside ← others.cellAt position
        operation cell beside) := by
      funext position
      rw [cellAt_of_companion accepted]
      rfl
    rw [positions]
    rfl
  rw [along, Operation.along, Shape.indices_eq_map_digits, List.mapM_map]
  rfl

/-- The operation has been applied at one position of the frame after the other, from memory to
memory, and the results have been laid together. The cells of the whole are read off the results,
unless it has no elements. -/
structure Enumerates (calling : Call H) (operation : Operation H) (right : Value)
    (left : Option Value) (frame : Shape) (memories : Nat → Memory H) (results : List Value)
    (merged : ShapedArray) (after : Memory H) : Prop where
  length : results.length = frame.size
  applies : ∀ number < frame.size, ∃ value, results[number]? = some value ∧
    operation.atPosition right left (frame.digits number) calling (memories number) =
      (.ok value, memories (number + 1))
  merges : ShapedArray.merge results.toArray none frame calling (memories frame.size) =
    (.ok merged, after)
  empty : merged.count = 0 → merged = .nil
  cells : merged.count ≠ 0 → ∀ (number : Nat) (value : Value), results[number]? = some value →
    ∃ cell, merged.selectRank (frame.digits number) = .ok cell ∧
      cell.IsReadOff calling (fun _ => True) value.toArray

theorem exists_enumerates (some : frame asked right ≠ []) {others : Companion}
    (accepted : companion (frame asked right) left = .ok others) {result : Value}
    (ended : operation.atRank asked right left calling memory = (.ok result, after)) :
    ∃ memories results merged, memories 0 = memory ∧ result = .array merged ∧
      Enumerates calling operation right left (frame asked right) memories results merged
        after := by
  rw [atRank_of_accepted some accepted] at ended
  obtain ⟨results, between, applied, ended⟩ := Action.bind_eq_ok.1 ended
  obtain ⟨merged, last, merges, ended⟩ := Action.bind_eq_ok.1 ended
  cases ended
  obtain ⟨memories, starts, rfl, length, applies⟩ := Action.memories_of_mapM applied
  rw [List.length_range] at length merges
  refine ⟨memories, results, merged, starts, rfl, length, fun number below => ?_, merges,
    fun none => ?_, fun filled number value there => ?_⟩
  · exact applies number number (List.getElem?_range below)
  · have made : merged.IsMade calling := .merge ⟨_, _, merges⟩
    exact made.sound.empty none
  · have below : number < (frame asked right).size := by
      rw [← length]
      exact (List.getElem?_eq_some_iff.1 there).1
    refine ShapedArray.exists_cell_of_merge merges filled ?_ (by rwa [List.getElem?_toArray])
    rw [Shape.indices_eq_map_digits, List.getElem?_map, List.getElem?_range below]
    rfl

/-- The positions of a shape are as many as its size, all of them within its axes, no two of them
the same, and the one of a number has the digits of the number. At a rank with a frame, an operation
is applied once at each position of the frame, in this order, to the cell of the right argument and
to that of the left one, or to all of a left argument without axes. Unless there are no elements,
the cell of the result at a position is read off what the operation gave there. -/
theorem atRank_row_major :
    (∀ shape : Shape, (Shape.indices shape).length = shape.size ∧
      (∀ position ∈ Shape.indices shape,
        position.length = shape.length ∧ shape.Holds position) ∧
      (Shape.indices shape).Nodup ∧
      ∀ number < shape.size, (Shape.indices shape)[number]? = some (shape.digits number) ∧
        shape.place (shape.digits number) = number) ∧
    ∀ (operation : Operation H) (asked : Int) (right : Value) (left : Option Value),
      (frame asked right = [] → operation.atRank asked right left = operation right left) ∧
      (frame asked right ≠ [] → ∀ others, companion (frame asked right) left = .ok others →
        operation.atRank asked right left = (do
          let results ← (List.range (frame asked right).size).mapM fun number =>
            operation.atPosition right left ((frame asked right).digits number)
          let merged ← ShapedArray.merge results.toArray none (frame asked right)
          return .array merged) ∧
        ∀ calling memory result after,
          operation.atRank asked right left calling memory = (.ok result, after) →
          ∃ memories results merged, memories 0 = memory ∧ result = .array merged ∧
            Enumerates calling operation right left (frame asked right) memories results merged
              after) := by
  refine ⟨fun shape => ⟨Shape.length_indices shape, fun position member => ?_,
    Shape.nodup_indices shape, fun number below => ?_⟩, fun operation asked right left =>
    ⟨atRank_of_frame_nil, fun some others accepted => ⟨atRank_of_accepted some accepted,
      fun calling memory result after => exists_enumerates some accepted⟩⟩⟩
  · have holds := Shape.mem_indices.1 member
    exact ⟨List.Forall₂.length_eq holds, holds⟩
  · exact ⟨Shape.getElem?_indices.2 ⟨Shape.holds_digits below, Shape.place_digits below⟩,
      Shape.place_digits below⟩

namespace Letters

def equals : Function :=
  .mk 0 (.primitive .equals)

/-- Two rows of two letters. -/
def rows : Value :=
  .array (.ofView .owned [2, 2] none
    (ShapedArray.stored #[.character 'a', .character 'b', .character 'b', .character 'a']))

def pair : ShapedArray :=
  .list #[.character 'a', .character 'b']

/-- A letter for each of the rows. -/
def column : Value :=
  .array pair

/-- The empty array, whatever it is applied to. -/
def nothing : Function :=
  .mk 0 (.constant .nil "⟨⟩")

end Letters

open Letters

/-- Each row is compared with a letter. -/
theorem atRank_row_major_letters :
    frame 1 rows = [2] ∧ companion [2] (some column) = .ok (.cells pair) ∧
    ∀ (calling : Call (Heap (List Routine))) memory, ∃ memories results merged,
      Enumerates calling equals.call rows (some column) [2] memories results merged memory := by
  obtain ⟨_, enumerated⟩ := atRank_row_major (H := Heap (List Routine))
  obtain ⟨_, applied⟩ := enumerated equals.call 1 rows (some column)
  have accepted : companion [2] (some column) = .ok (.cells pair) := rfl
  refine ⟨rfl, accepted, fun calling memory => ?_⟩
  obtain ⟨memories, results, merged, _, _, enumerates⟩ :=
    (applied (List.cons_ne_nil 2 []) _ accepted).2 calling memory _ _ rfl
  exact ⟨memories, results, merged, enumerates⟩

/-- A function that gives the empty array for each of two letters gives the empty array for both,
which does not have the empty array as a cell. -/
theorem not_atRank_row_major : frame 0 column = [2] ∧ companion [2] none = .ok (.whole none) ∧
    ∀ (calling : Call (Heap (List Routine))) memory, ∃ merged,
      Operation.atRank nothing.call 0 column none calling memory = (.ok (.array merged), memory) ∧
      Operation.atPosition nothing.call column none (Shape.digits [2] 1) calling memory =
        (.ok .nil, memory) ∧
      ∀ cell, merged.selectRank (Shape.digits [2] 1) ≠ .ok cell :=
  ⟨rfl, rfl, fun _ _ => ⟨.nil, rfl, rfl, nofun⟩⟩

end Operation

end PointFree
