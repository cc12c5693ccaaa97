import PointFree.Proofs.Merging
import PointFree.Proofs.Position

/-!
Contract: frames within frames.

What is foretold of a result for each position of a frame is laid together under the frame. To lay
together under an inner frame first, and what comes of that under an outer one, is to lay together
under both at once: the positions are the same in the same order, the limit is the same, and where
there are no elements both come to the empty array.
-/

namespace PointFree

variable {β : Type}

/-! ### Shapes that are built -/

/-- The shape of what is built under a shape, which is the empty array if it has no elements. -/
def Shape.built (shape : Shape) : Shape :=
  if shape.size = 0 then [0] else shape

theorem Shape.size_built (shape : Shape) : shape.built.size = shape.size := by
  rw [built]
  split
  · next none => exact none.symm
  · rfl

theorem Shape.size_append_built (outer inner : Shape) :
    (outer ++ inner.built).size = (outer ++ inner).size := by
  rw [size_append, size_append, size_built]

theorem Shape.built_append_built (outer inner : Shape) :
    (outer ++ inner.built).built = (outer ++ inner).built := by
  rw [built, built.eq_1 (outer ++ inner), size_append_built]
  split
  · rfl
  · next some =>
      have filled : inner.size ≠ 0 := fun none => some (by rw [size_append, none, Nat.mul_zero])
      rw [built, if_neg filled]

/-- What is built under a frame tells what was under the frame, where no elements mean the empty
array. -/
theorem Shape.eq_of_built_append {frame first second : Shape} (filled : frame.size ≠ 0)
    (none : first.size = 0 → first = [0]) (none' : second.size = 0 → second = [0])
    (same : (frame ++ first).built = (frame ++ second).built) : first = second := by
  have sizes : first.size = second.size := by
    have sizes := congrArg size same
    rw [size_built, size_built, size_append, size_append] at sizes
    exact Nat.eq_of_mul_eq_mul_left (Nat.pos_of_ne_zero filled) sizes
  by_cases empty : first.size = 0
  · rw [none empty, none' (sizes ▸ empty)]
  · rw [built, if_neg (size_append .. ▸ Nat.mul_ne_zero filled empty),
      built, if_neg (size_append .. ▸ Nat.mul_ne_zero filled (sizes ▸ empty))] at same
    exact List.append_cancel_left same

theorem ShapedArray.shape_ofView (view : View) (shape : Shape) (fill : Option Value)
    (element : Nat → Element) : (ofView view shape fill element).shape = shape.built := by
  rw [ofView, Shape.built]
  split <;> rfl

/-! ### Rows of rows -/

/-- Along blocks that are laid end to end, rows are laid end to end. -/
theorem forall₂_flatMap_iff {α γ δ : Type} {related : γ → δ → Prop} {items : List α}
    {block : α → List γ} {row : List δ} : List.Forall₂ related (items.flatMap block) row ↔
      ∃ rows, List.Forall₂ (fun item part => List.Forall₂ related (block item) part) items rows ∧
        row = rows.flatten := by
  constructor
  · intro agree
    induction items generalizing row with
    | nil => exact ⟨[], .nil, List.forall₂_nil_left_iff.1 agree⟩
    | cons item items inductionHypothesis =>
        rw [List.flatMap_cons] at agree
        have first := List.forall₂_take (block item).length agree
        have rest := List.forall₂_drop (block item).length agree
        rw [List.take_left] at first
        rw [List.drop_left] at rest
        obtain ⟨rows, agrees, isRest⟩ := inductionHypothesis rest
        refine ⟨_ :: rows, .cons first agrees, ?_⟩
        rw [List.flatten_cons, ← isRest, List.take_append_drop]
  · rintro ⟨rows, agrees, rfl⟩
    induction agrees with
    | nil => exact .nil
    | cons here _ inductionHypothesis => exact List.rel_append here inductionHypothesis

theorem forall₂_exists {α β γ : Type} {related : α → γ → Prop} {change : γ → β} {items : List α}
    {row : List β}
    (agree : List.Forall₂ (fun item value => ∃ part, related item part ∧ value = change part)
      items row) : ∃ parts, List.Forall₂ related items parts ∧ row = parts.map change := by
  induction agree with
  | nil => exact ⟨[], .nil, rfl⟩
  | cons here _ inductionHypothesis =>
      obtain ⟨part, first, rfl⟩ := here
      obtain ⟨parts, rest, rfl⟩ := inductionHypothesis
      exact ⟨part :: parts, .cons first rest, rfl⟩

/-! ### Results for all positions of a frame -/

namespace Appearance

/-- What is foretold for the positions of a frame, laid together under it. -/
def framed? (frame : Shape) (foretold : List Nat → Option (Appearance β)) :
    Option (Appearance β) :=
  ((Shape.indices frame).mapM foretold).bind fun cells =>
    (laid? frame cells).map fun laid => ⟨(frame ++ laid.1).built, laid.2.map some⟩

/-- A row of elements is foretold for a position. -/
def IsForetold (foretold : List Nat → Option (Appearance β)) (inner : Shape) (position : List Nat)
    (row : List β) : Prop :=
  foretold position = some ⟨inner, row.map some⟩

variable {foretold : List Nat → Option (Appearance β)} {inner : Shape}

theorem rows_of_cells {positions : List (List Nat)} {row : List β} :
    (∃ cells, positions.mapM foretold = some cells ∧ (∀ cell ∈ cells, cell.shape = inner) ∧
      cells.flatMap elements = row.map some) ↔
    ∃ rows, List.Forall₂ (IsForetold foretold inner) positions rows ∧ row = rows.flatten := by
  simp only [Action.mapM_eq_some]
  induction positions generalizing row with
  | nil =>
      constructor
      · rintro ⟨_, each, _, flat⟩
        cases each
        exact ⟨[], .nil, List.map_eq_nil_iff.1 flat.symm⟩
      · rintro ⟨_, agree, rfl⟩
        cases agree
        exact ⟨[], .nil, nofun, rfl⟩
  | cons position positions inductionHypothesis =>
      constructor
      · rintro ⟨_, each, shapes, flat⟩
        cases each with
        | @cons _ cell _ cells here later =>
            obtain ⟨same, shapes⟩ := List.forall_mem_cons.1 shapes
            rw [List.flatMap_cons] at flat
            obtain ⟨first, rest, rfl, isFirst, isRest⟩ := List.append_eq_map_iff.1 flat
            obtain ⟨rows, agree, rfl⟩ := inductionHypothesis.1 ⟨cells, later, shapes, isRest.symm⟩
            refine ⟨first :: rows, .cons ?_ agree, rfl⟩
            rw [IsForetold, here, isFirst, ← same]
      · rintro ⟨_, agree, rfl⟩
        cases agree with
        | @cons _ first _ rows here later =>
            obtain ⟨cells, each, shapes, flat⟩ := inductionHypothesis.2 ⟨rows, later, rfl⟩
            refine ⟨_ :: cells, .cons here each, List.forall_mem_cons.2 ⟨rfl, shapes⟩, ?_⟩
            rw [List.flatMap_cons, flat, List.flatten_cons, List.map_append]

theorem indices_ne_nil {frame : Shape} (filled : frame.size ≠ 0) : Shape.indices frame ≠ [] := by
  rw [← List.length_pos_iff, Shape.length_indices]
  exact Nat.pos_of_ne_zero filled

theorem exists_of_agree {frame : Shape} (filled : frame.size ≠ 0) {α : Type}
    {related : List Nat → α → Prop} {row : List α}
    (agree : List.Forall₂ related (Shape.indices frame) row) :
    ∃ position item, related position item := by
  obtain ⟨position, member⟩ := List.exists_mem_of_ne_nil _ (indices_ne_nil filled)
  obtain ⟨item, _, here⟩ := Correspondence.exists_of_forall₂ agree member
  exact ⟨position, item, here⟩

/-- Rows of one inner shape are foretold for all positions, if anything is. -/
theorem framed?_eq_some {frame : Shape} (filled : frame.size ≠ 0) {appearance : Appearance β} :
    framed? frame foretold = some appearance ↔
      ∃ inner rows, List.Forall₂ (IsForetold foretold inner) (Shape.indices frame) rows ∧
        (frame ++ inner).size ≤ sizeLimit ∧
        appearance = ⟨(frame ++ inner).built, rows.flatten.map some⟩ := by
  have some {cells : List (Appearance β)}
      (isCells : (Shape.indices frame).mapM foretold = .some cells) : cells ≠ [] := by
    rintro rfl
    exact indices_ne_nil filled (List.forall₂_nil_right_iff.1 (Action.mapM_eq_some.1 isCells))
  simp only [framed?, Option.bind_eq_some_iff, Option.map_eq_some_iff, Prod.exists]
  constructor
  · rintro ⟨cells, isCells, inner, row, laid, rfl⟩
    obtain ⟨shapes, small, flat⟩ := (laid?_eq_some (some isCells)).1 laid
    obtain ⟨rows, agree, rfl⟩ := rows_of_cells.1 ⟨cells, isCells, shapes, flat⟩
    exact ⟨inner, rows, agree, small, rfl⟩
  · rintro ⟨inner, rows, agree, small, rfl⟩
    obtain ⟨cells, isCells, shapes, flat⟩ := rows_of_cells.2 ⟨rows, agree, rfl⟩
    exact ⟨cells, isCells, inner, rows.flatten,
      (laid?_eq_some (some isCells)).2 ⟨shapes, small, flat⟩, rfl⟩

/-- What is laid together under a frame tells the shape of what was foretold for its positions. -/
theorem framed?_cases {frame : Shape} (filled : frame.size ≠ 0)
    (empty : ∀ position appearance, foretold position = some appearance →
      appearance.shape.size = 0 → appearance.shape = [0])
    {built : Shape} {row : List β} (framed : framed? frame foretold = some ⟨built, row.map some⟩) :
    ∃ inner, (frame ++ inner).built = built ∧ (inner.size = 0 → inner = [0]) ∧
      ∃ rows, List.Forall₂ (IsForetold foretold inner) (Shape.indices frame) rows ∧
        row = rows.flatten := by
  obtain ⟨inner, rows, agree, small, same⟩ := (framed?_eq_some filled).1 framed
  obtain ⟨isBuilt, isRow⟩ := Appearance.mk.inj same
  obtain ⟨position, row, here⟩ := exists_of_agree filled agree
  exact ⟨inner, isBuilt.symm, empty position _ here, rows, agree,
    List.map_injective_iff.2 (fun _ _ => Option.some.inj) isRow⟩

/-- Laying together under an inner and then under an outer frame is laying together under both. -/
theorem framed?_framed? {frame frame' : Shape} (filled : frame.size ≠ 0) (filled' : frame'.size ≠ 0)
    (empty : ∀ position appearance, foretold position = some appearance →
      appearance.shape.size = 0 → appearance.shape = [0]) :
    framed? frame (fun outer => framed? frame' fun inner => foretold (outer ++ inner)) =
      framed? (frame ++ frame') foretold := by
  have both : (frame ++ frame').size ≠ 0 := by
    rw [Shape.size_append]
    exact Nat.mul_ne_zero filled filled'
  refine Option.ext fun appearance => ?_
  rw [framed?_eq_some filled, framed?_eq_some both]
  constructor
  · rintro ⟨built, rows, agree, small, rfl⟩
    have parts := agree.imp fun _ _ here =>
      framed?_cases filled' (fun _ appearance => empty _ appearance) here
    obtain ⟨_, _, inner, rfl, isEmpty, _⟩ := exists_of_agree filled parts
    -- All positions of the outer frame agree in the shape beneath the inner one.
    obtain ⟨rows, each, rfl⟩ := forall₂_exists <| parts.imp fun _ _ ⟨other, same, isEmpty', part⟩ =>
      Shape.eq_of_built_append filled' isEmpty' isEmpty same ▸ part
    refine ⟨inner, rows.flatten, ?_, ?_, ?_⟩
    · rw [Shape.indices_append, forall₂_flatMap_iff]
      refine ⟨rows, each.imp fun _ _ here => ?_, rfl⟩
      rwa [List.forall₂_map_left_iff]
    · rwa [Shape.size_append_built, ← List.append_assoc] at small
    · rw [Shape.built_append_built, List.append_assoc, List.flatten_flatten]
  · rintro ⟨inner, rows, agree, small, rfl⟩
    rw [Shape.indices_append, forall₂_flatMap_iff] at agree
    obtain ⟨parts, agree, rfl⟩ := agree
    have smaller : (frame' ++ inner).size ≤ sizeLimit := by
      rw [List.append_assoc, Shape.size_append] at small
      exact Nat.le_trans (Nat.le_mul_of_pos_left _ (Nat.pos_of_ne_zero filled)) small
    refine ⟨(frame' ++ inner).built, parts.map List.flatten, ?_, ?_, ?_⟩
    · rw [List.forall₂_map_right_iff]
      refine agree.imp fun position part agrees => ?_
      rw [List.forall₂_map_left_iff] at agrees
      exact (framed?_eq_some filled').2 ⟨inner, part, agrees, smaller, rfl⟩
    · rwa [Shape.size_append_built, ← List.append_assoc]
    · rw [Shape.built_append_built, List.append_assoc, List.flatten_flatten]

end Appearance

end PointFree
