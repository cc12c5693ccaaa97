import PointFree.Proofs.Ranking.Frames

/-!
Contract: operations on cells of a rank.

At a rank, an operation ends as is foretold of it for the cells, laid together under the frame
around them. At a rank within a higher one it is applied to the same cells, of which the same is
foretold, and what is stored for the cells of the higher rank is laid together again: that is what
is foretold at the lower rank alone.
-/

namespace PointFree

variable {H : Type}

/-! ### Cells of a rank -/

namespace Operation

/-- The operation at each position of a frame, and what comes of it under the frame. -/
def along (act : List Nat → Action H Value) (frame : Shape) : Action H Value := do
  let results ← (Shape.indices frame).mapM act
  let result ← ShapedArray.merge results.toArray none frame
  return .array result

variable {operation : Operation H} {asked : Int} {right : Value}

theorem atRank_of_le (nonneg : 0 ≤ asked) (whole : right.rank ≤ asked.toNat)
    (left : Option Value) : operation.atRank asked right left = operation right left := by
  have none : right.toArray.rank - cellRank right.toArray.rank asked = 0 := by
    rw [cellRank, if_neg (Int.not_lt.2 nonneg)]
    have ranks : right.toArray.rank = right.rank := congrArg List.length right.shape_toArray
    omega
  exact if_pos none

/-- With no left argument, the operation is given the cells. -/
theorem atRank_of_lt (nonneg : 0 ≤ asked) (inside : asked.toNat < right.rank) :
    operation.atRank asked right none = along (fun position => do
      let cell ← right.toArray.cellAt position
      operation cell none) (right.shape.take (right.rank - asked.toNat)) := by
  have ranks : right.toArray.rank = right.rank := congrArg List.length right.shape_toArray
  have length : right.toArray.rank - cellRank right.toArray.rank asked =
      right.rank - asked.toNat := by
    rw [cellRank, if_neg (Int.not_lt.2 nonneg)]
    omega
  have some : right.toArray.rank - cellRank right.toArray.rank asked ≠ 0 := by omega
  rw [atRank, if_neg some, length, right.shape_toArray]
  rfl

end Operation

/-- A frame and the cells in it have as few elements as the whole, but some if that has. -/
theorem Shape.size_parts {shape : Shape} (filled : shape.size ≠ 0) (length : Nat) :
    (size (shape.take length) ≠ 0 ∧ size (shape.take length) ≤ shape.size) ∧
      size (shape.drop length) ≠ 0 ∧ size (shape.drop length) ≤ shape.size := by
  have product : shape.size = size (shape.take length) * size (shape.drop length) := by
    rw [← size_append, List.take_append_drop]
  rw [product, Nat.mul_ne_zero_iff] at filled
  rw [product]
  exact ⟨⟨filled.1, Nat.le_mul_of_pos_right _ (Nat.pos_of_ne_zero filled.2)⟩,
    filled.2, Nat.le_mul_of_pos_left _ (Nat.pos_of_ne_zero filled.1)⟩

section Settled

variable {calling : Call H} {held : Memory H → Prop} {alike : Value → Value → Prop}

/-- Values are stored as foretold. -/
inductive Value.IsStored (alike : Value → Value → Prop) : Appearance Value → Value → Prop where
  | mk {shape : Shape} {row : List Value} {data : Array Value} :
      row.length = shape.size → List.Forall₂ alike row data.toList →
      IsStored alike ⟨shape.built, row.map some⟩
        (.array (.ofView .owned shape none (ShapedArray.stored data)))

theorem Value.IsStored.elements {appearance : Appearance Value} {value : Value}
    (isStored : value.IsStored alike appearance) : ∃ array : ShapedArray, value = .array array ∧
      array.shape = appearance.shape ∧ ∀ index < array.count, ∃ wanted found,
        appearance.elements[index]? = some (some wanted) ∧
        array.elementAt index = .value found ∧ alike wanted found := by
  cases isStored with
  | @mk shape row data length agree =>
      refine ⟨_, rfl, ShapedArray.shape_ofView .., fun index inside => ?_⟩
      rw [ShapedArray.count_ofView] at inside
      have inRow : index < row.length := length ▸ inside
      have there : index < data.size := by rwa [← Array.length_toList, ← agree.length_eq]
      refine ⟨row[index], data[index], ?_, ?_, agree.get inRow there⟩
      · rw [List.getElem?_map, List.getElem?_eq_getElem inRow]
        rfl
      · rw [ShapedArray.elementAt_ofView _ _ _ _ _ inside, ShapedArray.stored,
          Array.getElem?_eq_getElem there]

theorem Value.IsStored.readsAs {appearance : Appearance Value} {value : Value}
    (isStored : value.IsStored alike appearance) :
    value.ReadsAs calling held alike appearance := by
  obtain ⟨array, rfl, shape, elements⟩ := isStored.elements
  have length : appearance.elements.length = appearance.shape.size := by
    cases isStored with
    | mk length _ => rw [List.length_map, length, Shape.size_built]
  refine ⟨shape, length, fun none => ?_, fun index inside => ?_⟩
  · cases isStored with
    | mk =>
        rw [Shape.size_built] at none
        exact if_pos none
  · rw [length, ← shape] at inside
    obtain ⟨wanted, found, isWanted, isFound, agrees⟩ := elements index inside
    rw [List.getElem?_eq_some_iff] at isWanted
    obtain ⟨_, isWanted⟩ := isWanted
    have read : ((Value.array array).toArray.pick index : Action H Value) = pure found := by
      change array.pick index = _
      rw [ShapedArray.pick, isFound]
      rfl
    rw [read, isWanted]
    exact Action.settles_pure agrees

/-- Along a frame, an operation that settles for all its cells settles. -/
theorem Operation.settles_along {act : List Nat → Action H Value} {frame : Shape}
    {foretold : List Nat → Option (Appearance Value)}
    (acts : ∀ position ∈ Shape.indices frame,
      (act position).Settles calling held (Value.ReadsAs calling held alike) (foretold position))
    (fitting : frame.size < wordLimit) :
    (along act frame).Settles calling held (Value.IsStored alike)
      (Appearance.framed? frame foretold) := by
  refine (Action.Settles.mapM acts).bind fun cells results isCells agree => ?_
  have size : frame.size = results.toArray.size := by
    rw [List.size_toArray, ← agree.length_eq, ← Shape.length_indices,
      (Action.mapM_eq_some.1 isCells).length_eq]
  refine (ShapedArray.settles_merge agree size fitting none).map fun laid => ?_
  obtain ⟨length, data, agrees, rfl⟩ := laid
  exact .mk length agrees

/-! ### What is made of cells -/

/-- A cell of the rank, which is not the whole value. -/
def Value.IsCell (rank : Nat) (right : Value) (cell : ShapedArray) : Prop :=
  ∃ position, position ≠ [] ∧ position.length + rank = right.rank ∧
    right.toArray.selectRank position = .ok cell

/-- The operation on a cell, from which its element is taken if it has no axes. -/
def Operation.onCell (operation : Operation H) (cell : ShapedArray) : Action H Value := do
  let right ← Value.ofCell cell
  operation right none

/-- Whenever the operation is applied to the cell, it ends the same: it fails, or it gives the same
shape and, whenever they are read, the same elements. -/
def Operation.DependsOn (calling : Call H) (held : Memory H → Prop) (alike : Value → Value → Prop)
    (operation : Operation H) (cell : ShapedArray) : Prop :=
  ∃ foretold : Option (Appearance Value), ∀ array : ShapedArray, array.Coincides cell →
    (operation.onCell array).Settles calling held (Value.ReadsAs calling held alike) foretold

/-- What the operation makes of all cells of a rank, by their positions. -/
structure Operation.Foretells (calling : Call H) (held : Memory H → Prop)
    (alike : Value → Value → Prop) (operation : Operation H) (rank : Nat) (right : Value)
    (foretold : List Nat → Option (Appearance Value)) : Prop where
  empty : ∀ position appearance, foretold position = some appearance →
    appearance.shape.size = 0 → appearance.shape = [0]
  settles : ∀ position cell, position ≠ [] → position.length + rank = right.rank →
    right.toArray.selectRank position = .ok cell → ∀ array : ShapedArray, array.Coincides cell →
    (operation.onCell array).Settles calling held (Value.ReadsAs calling held alike)
      (foretold position)

namespace Operation

variable {operation : Operation H} {asked : Int} {right : Value} {rank : Nat} {memory : Memory H}
variable {foretold : List Nat → Option (Appearance Value)}

theorem exists_foretells (depends : ∀ cell, right.IsCell rank cell →
    operation.DependsOn calling held alike cell) (holds : held memory) :
    ∃ foretold, operation.Foretells calling held alike rank right foretold := by
  have each (position : List Nat) : ∃ foretold : Option (Appearance Value),
      (∀ appearance, foretold = some appearance →
        appearance.shape.size = 0 → appearance.shape = [0]) ∧
      ∀ cell, position ≠ [] → position.length + rank = right.rank →
        right.toArray.selectRank position = .ok cell → ∀ array : ShapedArray, array.Coincides cell →
        (operation.onCell array).Settles calling held (Value.ReadsAs calling held alike)
          foretold := by
    by_cases there : ∃ cell, position ≠ [] ∧ position.length + rank = right.rank ∧
        right.toArray.selectRank position = .ok cell
    · obtain ⟨cell, some, length, selected⟩ := there
      obtain ⟨foretold, settles⟩ := depends cell ⟨position, some, length, selected⟩
      refine ⟨foretold, ?_, fun other _ _ again => ?_⟩
      · rintro appearance rfl
        obtain ⟨_, _, _, _, reads⟩ := (settles cell (.refl cell)).ok holds
        exact reads.empty
      · cases selected.symm.trans again
        exact settles
    · exact ⟨none, nofun, fun cell some length selected =>
        absurd ⟨cell, some, length, selected⟩ there⟩
  choose foretold empty settles using each
  exact ⟨foretold, empty, settles⟩

/-- An array that has elements has all cells of its frames. -/
theorem settles_atRank (made : right.toArray.IsMade calling) (filled : right.shape.size ≠ 0)
    (small : right.shape.size ≤ sizeLimit) (nonneg : 0 ≤ asked) (inside : asked.toNat < right.rank)
    (acts : ∀ position cell, position ≠ [] → position.length + asked.toNat = right.rank →
      right.toArray.selectRank position = .ok cell →
      (operation.onCell cell).Settles calling held (Value.ReadsAs calling held alike)
        (foretold position)) :
    (operation.atRank asked right none).Settles calling held (Value.IsStored alike)
      (Appearance.framed? (right.shape.take (right.rank - asked.toNat)) foretold) := by
  have shape : right.toArray.shape = right.shape := right.shape_toArray
  obtain ⟨⟨_, fewer⟩, _⟩ := Shape.size_parts filled (right.rank - asked.toNat)
  rw [atRank_of_lt nonneg inside]
  refine settles_along (fun position member => ?_)
    (Nat.lt_of_le_of_lt (Nat.le_trans fewer small) (by decide))
  have holds := Shape.mem_indices.1 member
  have length := List.Forall₂.length_eq holds
  rw [List.length_take, ← Value.rank, Nat.min_eq_left (Nat.sub_le ..)] at length
  have some : position ≠ [] := by
    rintro rfl
    exact absurd length.symm (Nat.sub_ne_zero_of_lt inside)
  rw [← length, ← shape] at holds
  obtain ⟨cell, selected⟩ := made.exists_cell holds fun none => absurd none some
  have isAct : (do
      let cell ← right.toArray.cellAt position
      operation cell none) = operation.onCell cell := by
    rw [ShapedArray.cellAt, selected]
    rfl
  rw [isAct]
  exact acts position cell some (by omega) selected

variable {asked' : Int}

theorem Foretells.settles_once
    (foretells : operation.Foretells calling held alike asked.toNat right foretold)
    (made : right.toArray.IsMade calling) (filled : right.shape.size ≠ 0)
    (small : right.shape.size ≤ sizeLimit) (nonneg : 0 ≤ asked)
    (inside : asked.toNat < right.rank) :
    (operation.atRank asked right none).Settles calling held (Value.IsStored alike)
      (Appearance.framed? (right.shape.take (right.rank - asked.toNat)) foretold) :=
  settles_atRank made filled small nonneg inside fun position cell some length selected =>
    foretells.settles position cell some length selected cell (.refl cell)

/-- What is made of the cells of a cell is what is made of them as cells of the whole. -/
theorem Foretells.within (foretells : operation.Foretells calling held alike rank right foretold)
    (made : right.toArray.IsMade calling) {position : List Nat} {cell : ShapedArray}
    (some : position ≠ []) (selected : right.toArray.selectRank position = .ok cell) :
    operation.Foretells calling held alike rank (.array cell)
      fun position' => foretold (position ++ position') where
  empty position' := foretells.empty (position ++ position')
  settles position' inner _ length again array same := by
    obtain ⟨⟨whole, once⟩, _⟩ :=
      (made.selectRank_append position position').1 ⟨cell, selected, inner, again⟩
    refine foretells.settles (position ++ position') whole (by simp [some]) ?_ once array
      (same.trans (made.selectRank_coincides selected again once))
    have fits := (ShapedArray.selectRank_eq_ok_iff.1 selected).1.length_le
    have lengths : (Value.array cell).rank = right.rank - position.length := by
      change cell.shape.length = _
      rw [(made.selectRank_reads selected).1, List.length_drop, right.shape_toArray]
      rfl
    rw [right.shape_toArray, ← Value.rank] at fits
    rw [List.length_append]
    omega

/-- A cell with axes has as many as its rank, and does not stand for its element. -/
theorem onCell_of_selectRank (made : right.toArray.IsMade calling) (positive : 0 < rank)
    {position : List Nat} {cell : ShapedArray} (length : position.length + rank = right.rank)
    (selected : right.toArray.selectRank position = .ok cell) :
    (Value.array cell).shape = right.shape.drop (right.rank - rank) ∧
      (Value.array cell).rank = rank ∧
      ∀ operation : Operation H, operation.onCell cell = operation (.array cell) none := by
  have shape : (Value.array cell).shape = right.shape.drop (right.rank - rank) := by
    change cell.shape = _
    rw [(made.selectRank_reads selected).1, right.shape_toArray, Nat.sub_eq_of_eq_add length.symm]
  have ranks : (Value.array cell).rank = rank := by
    rw [Value.rank, shape, List.length_drop, ← Value.rank]
    omega
  have axes : cell.rank ≠ 0 := by
    change (Value.array cell).rank ≠ 0
    omega
  refine ⟨shape, ranks, fun operation => ?_⟩
  rw [onCell, Value.ofCell, if_neg axes]
  rfl

/-- An operation at a rank, at a higher rank, settles as at the lower one. -/
theorem Foretells.settles_twice
    (foretells : operation.Foretells calling held alike asked.toNat right foretold)
    (made : right.toArray.IsMade calling) (filled : right.shape.size ≠ 0)
    (small : right.shape.size ≤ sizeLimit) (nonneg : 0 ≤ asked) (ordered : max asked 1 ≤ asked')
    (inside : asked'.toNat < right.rank) :
    (Operation.atRank (operation.atRank asked) asked' right none).Settles calling held
      (Value.IsStored alike)
      (Appearance.framed? (right.shape.take (right.rank - asked.toNat)) foretold) := by
  have positive : 0 < asked'.toNat := by omega
  by_cases same : asked = asked'
  · subst same
    refine settles_atRank made filled small nonneg inside
      fun position cell some length selected => ?_
    obtain ⟨_, ranks, isAct⟩ := onCell_of_selectRank made positive length selected
    have settles := foretells.settles position cell some length selected cell (.refl cell)
    rwa [isAct, atRank_of_le nonneg (Nat.le_of_eq ranks), ← isAct operation]
  · -- The frame at the lower rank is the outer one, and the one in its cells after it.
    have frames : right.shape.take (right.rank - asked.toNat) =
        right.shape.take (right.rank - asked'.toNat) ++
          (right.shape.drop (right.rank - asked'.toNat)).take (asked'.toNat - asked.toNat) := by
      rw [← List.take_add]
      congr 1
      omega
    obtain ⟨⟨outer, _⟩, rest, fewer⟩ := Shape.size_parts filled (right.rank - asked'.toNat)
    obtain ⟨⟨inner, _⟩, _⟩ := Shape.size_parts rest (asked'.toNat - asked.toNat)
    rw [frames, ← Appearance.framed?_framed? outer inner foretells.empty]
    refine settles_atRank made filled small (by omega) inside
      fun position cell some length selected => ?_
    obtain ⟨shape, ranks, isAct⟩ := onCell_of_selectRank made positive length selected
    have settles := (foretells.within made some selected).settles_once (.selectRank made selected)
      (shape ▸ rest) (shape ▸ Nat.le_trans fewer small) nonneg (by omega)
    rw [shape, ranks] at settles
    rw [isAct]
    exact settles.imp fun isStored => isStored.readsAs

end Operation

end Settled

end PointFree
