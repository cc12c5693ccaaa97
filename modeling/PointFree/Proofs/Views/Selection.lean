import PointFree.Proofs.Broadcasting
import PointFree.Proofs.Views.Materializing

/-!
Contract: cells and runs of cells.

A position along the leading axes names a cell: it has the axes that are left, and its elements are
those of the array from the place of the position on. A cell of a cell is a cell of the array, and
a run of cells out of a run of cells is a run of the array. An array without elements is the empty
one, so it has no cells but itself; and a list may be made above the limit that an array is built
under, so it has cells, but may not be selected as a whole.
-/

namespace PointFree

/-! ### Prefixes of positions -/

namespace Shape

variable {shape : Shape} {outer inner : List Nat}

/-- Along the leading axes, a position goes on where its first part ends. -/
theorem holds_take_append : Holds (shape.take (outer ++ inner).length) (outer ++ inner) ↔
    Holds (shape.take outer.length) outer ∧
      Holds ((shape.drop outer.length).take inner.length) inner := by
  rw [List.length_append, List.take_add]
  constructor
  · intro holds
    have lengths := List.Forall₂.length_eq holds
    simp only [List.length_append, List.length_take, List.length_drop] at lengths
    refine holds.of_append ?_
    rw [List.length_take, List.length_drop]
    omega
  · exact fun ⟨first, second⟩ => List.rel_append first second

/-- A position along the leading axes has no more indices than there are axes. -/
theorem Holds.length_le (holds : Holds (shape.take outer.length) outer) :
    outer.length ≤ shape.length := by
  have lengths := List.Forall₂.length_eq holds
  rw [List.length_take] at lengths
  omega

theorem place_add (fits : outer.length ≤ shape.length) :
    shape.place (outer ++ inner) =
      shape.place outer + Shape.place (shape.drop outer.length) inner := by
  induction outer generalizing shape with
  | nil =>
      rw [place_nil, Nat.zero_add]
      rfl
  | cons index outer inductionHypothesis =>
      cases shape with
      | nil => simp at fits
      | cons axis shape =>
          rw [List.cons_append, place_cons, place_cons,
            inductionHypothesis (Nat.le_of_succ_le_succ fits), Nat.add_assoc]
          rfl

/-- The elements of a cell lie within the array. -/
theorem Holds.place_add_lt (holds : Holds (shape.take outer.length) outer) {index : Nat}
    (inside : index < Shape.size (shape.drop outer.length)) :
    shape.place outer + index < shape.size := by
  obtain ⟨position, rest, rfl⟩ := exists_place_eq inside
  rw [← place_add holds.length_le]
  refine Holds.place_lt ?_
  have whole : Holds (shape.take outer.length ++ shape.drop outer.length) (outer ++ position) :=
    List.rel_append holds rest
  rwa [List.take_append_drop] at whole

end Shape

namespace ShapedArray

variable {H : Type} {calling : Call H} {array cell result : ShapedArray} {position : List Nat}

/-! ### Arrays with the same elements -/

/-- Both came about alike, and have the same shape, fill and elements. -/
structure Coincides (array array' : ShapedArray) : Prop where
  view : array.view = array'.view
  shape : array.shape = array'.shape
  fill : array.fill = array'.fill
  elementAt : ∀ index, array.elementAt index = array'.elementAt index

theorem Coincides.refl (array : ShapedArray) : array.Coincides array :=
  ⟨rfl, rfl, rfl, fun _ => rfl⟩

theorem Coincides.trans {array' array'' : ShapedArray} (first : array.Coincides array')
    (second : array'.Coincides array'') : array.Coincides array'' :=
  ⟨first.view.trans second.view, first.shape.trans second.shape, first.fill.trans second.fill,
    fun index => (first.elementAt index).trans (second.elementAt index)⟩

theorem ofView_of_filled {view : View} {shape : Shape} {fill : Option Value}
    {element : Nat → Element} (filled : shape.size ≠ 0) :
    ofView view shape fill element = .mk view shape fill element :=
  if_neg filled

theorem Coincides.ofView {view : View} {shape : Shape} {fill : Option Value}
    {element element' : Nat → Element}
    (same : ∀ index < shape.size, element index = element' index) :
    (ofView view shape fill element).Coincides (ofView view shape fill element') := by
  rw [ShapedArray.ofView, ShapedArray.ofView]
  split
  · exact .refl nil
  · refine ⟨rfl, rfl, rfl, fun index => ?_⟩
    change (if index < shape.size then element index else _) =
      if index < shape.size then element' index else _
    split
    · next inside => exact same index inside
    · rfl

/-! ### Cells -/

theorem offsetFrom_eq_ok_iff {axis : Nat} {shape : Shape} {offset : Nat}
    (fits : position.length ≤ shape.length) :
    offsetFrom axis shape position = .ok offset ↔
      Shape.Holds (shape.take position.length) position ∧ offset = shape.place position := by
  induction position generalizing axis shape offset with
  | nil =>
      have none : offsetFrom axis shape [] = .ok 0 := by cases shape <;> rfl
      rw [none, Shape.place_nil, Except.ok.injEq, eq_comm]
      exact ⟨fun same => ⟨.nil, same⟩, And.right⟩
  | cons index position inductionHypothesis =>
      cases shape with
      | nil => simp at fits
      | cons size rest =>
          rw [offsetFrom, List.length_cons, List.take_succ_cons, Shape.Holds, List.forall₂_cons]
          split
          · next outside =>
              simp only [refuse, reduceCtorEq, false_iff, not_and]
              exact fun holds => absurd holds.1 (Nat.not_lt.2 outside)
          · next inside =>
              rw [Outcome.map_eq_ok]
              simp only [inductionHypothesis (Nat.le_of_succ_le_succ fits), Shape.place_cons]
              constructor
              · rintro ⟨_, ⟨holds, rfl⟩, rfl⟩
                exact ⟨⟨Nat.lt_of_not_le inside, holds⟩, rfl⟩
              · rintro ⟨⟨_, holds⟩, rfl⟩
                exact ⟨_, ⟨holds, rfl⟩, rfl⟩

/-- Selecting succeeds at the positions along leading axes whose cells may be built. -/
theorem selectRank_eq_ok_iff : array.selectRank position = .ok cell ↔
    Shape.Holds (array.shape.take position.length) position ∧
      (∃ size, measure (array.shape.drop position.length) = .ok size) ∧
      cell = ofView .slice (array.shape.drop position.length) array.fill
        fun index => array.elementAt (array.shape.place position + index) := by
  rw [selectRank]
  split
  · next outside =>
      simp only [refuse, reduceCtorEq, false_iff, not_and]
      exact fun holds => absurd holds.length_le (Nat.not_le.2 outside)
  · next inside =>
      refine Outcome.bind_eq_ok.trans ?_
      simp only [offsetFrom_eq_ok_iff (Nat.le_of_not_lt inside)]
      constructor
      · rintro ⟨_, ⟨holds, rfl⟩, built⟩
        obtain ⟨size, measured, rfl⟩ := Outcome.map_eq_ok.1 built
        exact ⟨holds, ⟨size, measured⟩, rfl⟩
      · rintro ⟨holds, ⟨size, measured⟩, rfl⟩
        refine ⟨_, ⟨holds, rfl⟩, ?_⟩
        rw [build, measured]
        rfl

/-- What the cells of an array that operations have made may be built with: every cell with an
axis fixed is measured, and the array itself unless it is a list above the limit. -/
theorem IsMade.measure_drop (made : array.IsMade calling)
    (holds : Shape.Holds (array.shape.take position.length) position) :
    (∃ size, measure (array.shape.drop position.length) = .ok size) ↔
      (position = [] → array.count ≤ sizeLimit) := by
  cases position with
  | nil =>
      constructor
      · rintro ⟨size, measured⟩ -
        exact size_le_of_measure measured
      · exact fun small => ⟨_, (made.isBounded (small rfl)).measure_eq⟩
  | cons first position =>
      refine ⟨nofun, fun _ => ?_⟩
      have product : array.count = Shape.size (array.shape.take (first :: position).length) *
          Shape.size (array.shape.drop (first :: position).length) := by
        rw [← Shape.size_append, List.take_append_drop]
        rfl
      have fixed := Nat.zero_lt_of_lt holds.place_lt
      by_cases none : array.count = 0
      · rw [made.sound.empty none] at holds
        cases holds with
        | cons below _ => exact absurd below (Nat.not_lt_zero first)
      have some : 0 < Shape.size (array.shape.drop (first :: position).length) :=
        Nat.pos_of_ne_zero fun zero => none (by rw [product, zero, Nat.mul_zero])
      rcases made.isMeasured with ⟨size, measured⟩ | ⟨_, ranked⟩
      · refine ⟨_, measure_of_size some ?_⟩
        calc Shape.size (array.shape.drop (first :: position).length)
            ≤ array.count := product ▸ Nat.le_mul_of_pos_left _ fixed
          _ ≤ sizeLimit := size_le_of_measure measured
      · have whole : array.shape.drop (first :: position).length = [] :=
          List.drop_eq_nil_of_le
            (Nat.le_trans (Nat.le_of_eq ranked) (Nat.succ_le_succ (Nat.zero_le _)))
        exact ⟨1, by rw [whole]; rfl⟩

theorem IsMade.exists_cell (made : array.IsMade calling)
    (holds : Shape.Holds (array.shape.take position.length) position)
    (small : position = [] → array.count ≤ sizeLimit) :
    ∃ cell, array.selectRank position = .ok cell :=
  ⟨_, selectRank_eq_ok_iff.2 ⟨holds, (made.measure_drop holds).2 small, rfl⟩⟩

/-- A cell has the axes that are not fixed, the fill of the array, and the elements from its place
on. -/
theorem IsMade.selectRank_reads (made : array.IsMade calling)
    (selected : array.selectRank position = .ok cell) :
    cell.shape = array.shape.drop position.length ∧ cell.fill = array.fill ∧
      ∀ index < cell.count,
        cell.elementAt index = array.elementAt (array.shape.place position + index) := by
  obtain ⟨holds, _, rfl⟩ := selectRank_eq_ok_iff.1 selected
  by_cases none : Shape.size (array.shape.drop position.length) = 0
  · have empty : array.count = 0 := by
      rw [count, ← List.take_append_drop position.length array.shape, Shape.size_append, none,
        Nat.mul_zero]
    rw [made.sound.empty empty] at holds ⊢
    cases position with
    | nil => exact ⟨rfl, rfl, fun index inside => absurd inside (Nat.not_lt_zero index)⟩
    | cons first position =>
        cases holds with
        | cons below _ => exact absurd below (Nat.not_lt_zero first)
  · rw [ofView_of_filled none]
    exact ⟨rfl, rfl, fun index inside => if_pos inside⟩

theorem IsMade.place_add_lt (made : array.IsMade calling)
    (selected : array.selectRank position = .ok cell) {index : Nat} (inside : index < cell.count) :
    array.shape.place position + index < array.count := by
  obtain ⟨holds, _⟩ := selectRank_eq_ok_iff.1 selected
  refine holds.place_add_lt ?_
  rwa [← (made.selectRank_reads selected).1]

/-- An array with several axes was measured. -/
theorem IsMade.count_le (made : array.IsMade calling) (ranked : array.rank ≠ 1) :
    array.count ≤ sizeLimit := by
  rcases made.isMeasured with ⟨size, measured⟩ | ⟨_, single⟩
  · exact size_le_of_measure measured
  · exact absurd single ranked

/-- Selecting in a cell is selecting in the array, and so succeeds, but for an array that may not
be built again. -/
theorem IsMade.selectRank_append (made : array.IsMade calling) (outer inner : List Nat) :
    (∃ cell, array.selectRank outer = .ok cell ∧ ∃ result, cell.selectRank inner = .ok result) ↔
      (∃ result, array.selectRank (outer ++ inner) = .ok result) ∧
        (outer = [] → array.count ≤ sizeLimit) := by
  constructor
  · rintro ⟨cell, selected, result, again⟩
    obtain ⟨holds, measured, _⟩ := selectRank_eq_ok_iff.1 selected
    obtain ⟨within, built, _⟩ := selectRank_eq_ok_iff.1 again
    obtain ⟨shape, _⟩ := made.selectRank_reads selected
    rw [shape] at within built
    refine ⟨⟨_, selectRank_eq_ok_iff.2 ⟨Shape.holds_take_append.2 ⟨holds, within⟩, ?_, rfl⟩⟩,
      (made.measure_drop holds).1 measured⟩
    rwa [List.length_append, ← List.drop_drop]
  · rintro ⟨⟨result, selected⟩, small⟩
    obtain ⟨holds, measured, _⟩ := selectRank_eq_ok_iff.1 selected
    obtain ⟨first, within⟩ := Shape.holds_take_append.1 holds
    obtain ⟨_, isCell⟩ := made.exists_cell first small
    obtain ⟨shape, _⟩ := made.selectRank_reads isCell
    refine ⟨_, isCell, _, selectRank_eq_ok_iff.2 ⟨?_, ?_, rfl⟩⟩
    · rwa [shape]
    · rwa [shape, List.drop_drop, ← List.length_append]

theorem IsMade.selectRank_coincides (made : array.IsMade calling) {outer inner : List Nat}
    {whole : ShapedArray} (selected : array.selectRank outer = .ok cell)
    (again : cell.selectRank inner = .ok result)
    (once : array.selectRank (outer ++ inner) = .ok whole) : result.Coincides whole := by
  obtain ⟨shape, fill, element⟩ := made.selectRank_reads selected
  obtain ⟨holds, _, rfl⟩ := selectRank_eq_ok_iff.1 again
  obtain ⟨fixed, _⟩ := selectRank_eq_ok_iff.1 selected
  obtain ⟨_, _, rfl⟩ := selectRank_eq_ok_iff.1 once
  rw [shape] at holds ⊢
  rw [fill, List.drop_drop, List.length_append]
  refine .ofView fun index inside => ?_
  rw [← List.drop_drop] at inside
  rw [Shape.place_add fixed.length_le, Nat.add_assoc]
  refine element _ ?_
  rw [count, shape]
  exact holds.place_add_lt inside

/-! ### Runs of cells -/

theorem shape_eq_cons (ranked : array.rank ≠ 0) :
    array.length :: array.shape.tail = array.shape := by
  rw [rank] at ranked
  rw [length]
  cases isShape : array.shape with
  | nil => exact absurd (congrArg List.length isShape) ranked
  | cons axis shape => rfl

theorem slice_eq_ok_iff {start extent : Nat} : array.slice start extent = .ok result ↔
    array.rank ≠ 0 ∧ start + extent ≤ array.length ∧
      if extent = array.length then result = array
      else (∃ size, measure (extent :: array.shape.tail) = .ok size) ∧
        result = ofView .slice (extent :: array.shape.tail) array.fill
          fun index => array.elementAt (start * array.shape.cellSize + index) := by
  rw [slice]
  split
  · next scalar => simp [refuse, scalar]
  · next ranked =>
      split
      · next past => simp [refuse, Nat.not_le.2 past]
      · next fits =>
          rw [and_iff_right ranked, and_iff_right (Nat.le_of_not_lt fits)]
          split
          · exact ⟨fun same => (Except.ok.inj same).symm, fun same => congrArg _ same.symm⟩
          · rw [build, Outcome.map_eq_ok]
            constructor
            · rintro ⟨size, measured, same⟩
              exact ⟨⟨size, measured⟩, same.symm⟩
            · rintro ⟨⟨size, measured⟩, same⟩
              exact ⟨size, measured, same.symm⟩

/-- A run of no cells is the empty array. Any other has the later axes and the fill of the array,
and the elements from the place of its first cell on. -/
theorem IsMade.slice_reads (made : array.IsMade calling) {start extent : Nat} {run : ShapedArray}
    (sliced : array.slice start extent = .ok run) :
    extent = 0 ∧ run = ShapedArray.nil ∨
      run.shape = extent :: array.shape.tail ∧ run.fill = array.fill ∧ ∀ index < run.count,
        run.elementAt index = array.elementAt (start * array.shape.cellSize + index) := by
  obtain ⟨ranked, fits, isRun⟩ := slice_eq_ok_iff.1 sliced
  split at isRun
  · next full =>
      obtain rfl : start = 0 := by omega
      subst isRun
      refine .inr ⟨?_, rfl, fun index _ => by rw [Nat.zero_mul, Nat.zero_add]⟩
      rw [full, shape_eq_cons ranked]
  · next short =>
      obtain ⟨_, rfl⟩ := isRun
      by_cases none : Shape.size (extent :: array.shape.tail) = 0
      · refine .inl ⟨?_, if_pos none⟩
        rw [Shape.size_cons] at none
        by_contra some
        have empty : array.count = 0 := by
          rw [count_eq_length_mul ranked]
          exact Nat.mul_eq_zero.2 (.inr ((Nat.mul_eq_zero.1 none).resolve_left some))
        rw [made.sound.empty empty] at fits
        exact some (Nat.eq_zero_of_add_eq_zero_left (Nat.le_zero.1 fits))
      · rw [ofView_of_filled none]
        exact .inr ⟨rfl, rfl, fun index inside => if_pos inside⟩

/-- A run out of a run of cells is a run of the cells of the array. -/
theorem IsMade.slice_slice (made : array.IsMade calling) {start extent start' extent' : Nat}
    {run : ShapedArray} (first : array.slice start extent = .ok run)
    (second : run.slice start' extent' = .ok result) :
    ∃ whole, array.slice (start + start') extent' = .ok whole ∧ result.Coincides whole := by
  obtain ⟨ranked, fits, _⟩ := slice_eq_ok_iff.1 first
  obtain ⟨_, within, isResult⟩ := slice_eq_ok_iff.1 second
  rcases made.slice_reads first with ⟨rfl, rfl⟩ | ⟨shape, fill, element⟩
  · obtain ⟨rfl, rfl⟩ : start' = 0 ∧ extent' = 0 := Nat.add_eq_zero_iff.1 (Nat.le_zero.1 within)
    obtain rfl : result = ShapedArray.nil := isResult
    exact ⟨_, first, .refl _⟩
  · have length : run.length = extent := by
      rw [ShapedArray.length, shape]
      rfl
    rw [length] at within isResult
    split at isResult
    · next full =>
        obtain rfl : start' = 0 := by omega
        subst full isResult
        exact ⟨result, first, .refl result⟩
    · next short =>
        obtain ⟨measured, rfl⟩ := isResult
        have inside : start + start' + extent' ≤ array.length := by omega
        have shorter : extent' ≠ array.length := by omega
        rw [shape] at measured
        have whole : array.slice (start + start') extent' =
            .ok (ofView .slice (extent' :: array.shape.tail) array.fill fun index =>
              array.elementAt ((start + start') * array.shape.cellSize + index)) :=
          slice_eq_ok_iff.2 ⟨ranked, inside, by rw [if_neg shorter]; exact ⟨measured, rfl⟩⟩
        refine ⟨_, whole, ?_⟩
        rw [fill, shape, List.tail_cons]
        refine .ofView fun index below => ?_
        rw [Nat.add_mul, Nat.add_assoc]
        refine element _ ?_
        have ranks : run.rank ≠ 0 := by simp [rank, shape]
        have there : start' * run.shape.cellSize + index < run.count :=
          slice_lt ranks (length ▸ within) (by rwa [shape])
        rwa [shape] at there

end ShapedArray

end PointFree
