import PointFree.Proofs.Settling
import PointFree.Proofs.Views.Selection

/-!
Contract: laying cells together.

A merge reads the elements of its items one after the other, and stores them under the outer shape
followed by the shape that the items have in common. It fails where the items have no shape in
common, where there would be too many elements, and where an element cannot be read.
-/

namespace PointFree

variable {H β : Type}

/-! ### What values are read as -/

/-- A shape, and what is expected of each of the elements in row-major order. -/
structure Appearance (β : Type) where
  shape : Shape
  elements : List (Option β)

namespace Appearance

/-- Adds what is expected of the elements of one item to what is expected of those before. -/
def lay (inner : Shape) (row : List β) (appearance : Appearance β) : Option (List β) :=
  if appearance.shape = inner then (appearance.elements.mapM id).map (row ++ ·) else none

/-- The common shape of the items, and what is expected of the elements of all of them, if they
may be laid together. -/
def laid? (outer : Shape) : List (Appearance β) → Option (Shape × List β)
  | [] => some ([0], [])
  | first :: rest =>
      if (outer ++ first.shape).size ≤ sizeLimit then
        ((first :: rest).foldlM (lay first.shape) []).map (first.shape, ·)
      else none

theorem lay_eq_some {inner : Shape} {row all : List β} {appearance : Appearance β} :
    lay inner row appearance = some all ↔
      appearance.shape = inner ∧
        ∃ more, appearance.elements = more.map some ∧ all = row ++ more := by
  rw [lay]
  split
  · next same => simp [same, Action.mapM_id_eq_some, eq_comm]
  · next other => simp [other]

theorem foldlM_lay_eq_some {inner : Shape} {appearances : List (Appearance β)} {row all : List β} :
    appearances.foldlM (lay inner) row = some all ↔
      (∀ appearance ∈ appearances, appearance.shape = inner) ∧
        ∃ more, appearances.flatMap elements = more.map some ∧ all = row ++ more := by
  induction appearances generalizing row with
  | nil =>
      constructor
      · intro done
        cases done
        exact ⟨nofun, [], rfl, (List.append_nil _).symm⟩
      · rintro ⟨_, more, empty, rfl⟩
        rw [List.map_eq_nil_iff.1 empty.symm, List.append_nil]
        rfl
  | cons appearance appearances inductionHypothesis =>
      rw [List.foldlM_cons, Option.bind_eq_bind, Option.bind_eq_some_iff]
      simp only [lay_eq_some, inductionHypothesis, List.forall_mem_cons, List.flatMap_cons]
      constructor
      · rintro ⟨_, ⟨here, more, isMore, rfl⟩, later, rest, isRest, rfl⟩
        refine ⟨⟨here, later⟩, more ++ rest, ?_, List.append_assoc ..⟩
        rw [isMore, isRest, List.map_append]
      · rintro ⟨⟨here, later⟩, whole, isWhole, rfl⟩
        obtain ⟨more, rest, rfl, isMore, isRest⟩ := List.append_eq_map_iff.1 isWhole
        exact ⟨_, ⟨here, more, isMore.symm, rfl⟩, later, rest, isRest.symm,
          (List.append_assoc ..).symm⟩

/-- Items of one shape, of each of which all elements are foretold. -/
theorem length_of_foldlM_lay {inner : Shape} {appearances : List (Appearance β)} {row : List β}
    (lengths : ∀ appearance ∈ appearances, appearance.elements.length = appearance.shape.size)
    (laid : appearances.foldlM (lay inner) [] = some row) :
    row.length = appearances.length * inner.size := by
  obtain ⟨shapes, _, elements, rfl⟩ := foldlM_lay_eq_some.1 laid
  have total : (appearances.map fun appearance => appearance.elements.length) =
      List.replicate appearances.length inner.size :=
    List.eq_replicate_iff.2 ⟨List.length_map .., fun length member => by
      obtain ⟨appearance, there, rfl⟩ := List.mem_map.1 member
      rw [lengths appearance there, shapes appearance there]⟩
  have length := congrArg List.length elements
  rw [List.length_map, List.length_flatMap, total, List.sum_replicate_nat] at length
  exact length.symm

theorem laid?_eq_some {outer inner : Shape} {appearances : List (Appearance β)} {row : List β}
    (some : appearances ≠ []) : laid? outer appearances = .some (inner, row) ↔
      (∀ appearance ∈ appearances, appearance.shape = inner) ∧ (outer ++ inner).size ≤ sizeLimit ∧
        appearances.flatMap elements = row.map .some := by
  cases appearances with
  | nil => exact absurd rfl some
  | cons first rest =>
      rw [laid?]
      split
      · next small =>
          simp only [Option.map_eq_some_iff, foldlM_lay_eq_some, List.nil_append, Prod.mk.injEq]
          constructor
          · rintro ⟨_, ⟨shapes, _, elements, rfl⟩, rfl, rfl⟩
            exact ⟨shapes, small, elements⟩
          · rintro ⟨shapes, _, elements⟩
            have same := shapes first (List.mem_cons_self ..)
            exact ⟨row, ⟨same ▸ shapes, row, elements, rfl⟩, same, rfl⟩
      · next large =>
          refine ⟨nofun, fun ⟨shapes, small, _⟩ => absurd small ?_⟩
          rwa [← shapes first (List.mem_cons_self ..)]

end Appearance

section Reads

variable {calling : Call H} {held : Memory H → Prop} {fits : β → Value → Prop}

/-- The value has the shape that is foretold, that of the empty array if it has no elements, and
reading its elements ends as is foretold. -/
structure Value.ReadsAs (calling : Call H) (held : Memory H → Prop) (fits : β → Value → Prop)
    (appearance : Appearance β) (value : Value) : Prop where
  shape : value.shape = appearance.shape
  length : appearance.elements.length = appearance.shape.size
  empty : appearance.shape.size = 0 → appearance.shape = [0]
  element : ∀ (index : Nat) (inside : index < appearance.elements.length),
    (value.toArray.pick index).Settles calling held fits appearance.elements[index]

theorem Value.lengths_of_reads {appearances : List (Appearance β)} {items : List Value}
    (reads : List.Forall₂ (ReadsAs calling held fits) appearances items) :
    ∀ appearance ∈ appearances, appearance.elements.length = appearance.shape.size := by
  induction reads with
  | nil => exact nofun
  | cons here _ inductionHypothesis =>
      exact List.forall_mem_cons.2 ⟨here.length, inductionHypothesis⟩

variable {appearance : Appearance β} {item : Value}

theorem Value.ReadsAs.elements (reads : item.ReadsAs calling held fits appearance) :
    item.toArray.elements.Settles calling held
      (fun row found => List.Forall₂ fits row found.toList) (appearance.elements.mapM id) := by
  have count : item.toArray.count = appearance.elements.length := by
    rw [ShapedArray.count, Value.shape_toArray, reads.shape, reads.length]
  rw [ShapedArray.elements, count]
  exact Action.Settles.collect reads.element

namespace ShapedArray

/-- An item that is no array counts as the array without axes that boxes it. -/
theorem appendItem_of_shape {inner : Shape} (data : Array Value) (same : item.shape = inner) :
    (appendItem inner data item : Action H (Array Value)) = (do
      let more ← item.toArray.elements
      return data ++ more) := by
  have boxed (content : Value) (shape : [] = inner) :
      (if inner = [] then pure (data.push content)
        else Action.refuse (.unmergeableScalar inner) : Action H (Array Value)) = (do
      let more ← (scalar content).elements
      return data ++ more) := by
    rw [if_pos shape.symm, ← Array.append_singleton]
    rfl
  cases item with
  | array items => exact if_pos same
  | number amount => exact boxed _ same
  | character letter => exact boxed _ same
  | function contents => exact boxed _ same

theorem appendItem_of_other {inner : Shape} (data : Array Value) (other : item.shape ≠ inner) :
    ∃ fault, (appendItem inner data item : Action H (Array Value)) = Action.refuse fault := by
  cases item with
  | array items => exact ⟨_, if_neg other⟩
  | number amount => exact ⟨_, if_neg (Ne.symm other)⟩
  | character letter => exact ⟨_, if_neg (Ne.symm other)⟩
  | function contents => exact ⟨_, if_neg (Ne.symm other)⟩

theorem settles_appendItem {inner : Shape} {row : List β} {data : Array Value}
    (agree : List.Forall₂ fits row data.toList)
    (reads : item.ReadsAs calling held fits appearance) :
    (appendItem inner data item).Settles calling held
      (fun row data => List.Forall₂ fits row data.toList)
      (Appearance.lay inner row appearance) := by
  rw [Appearance.lay]
  split
  · next same =>
      rw [appendItem_of_shape data (reads.shape.trans same)]
      refine reads.elements.map fun agrees => ?_
      rw [Array.toList_append]
      exact List.rel_append agree agrees
  · next other =>
      obtain ⟨fault, refused⟩ := appendItem_of_other (H := H) data
        (fun same => other (reads.shape.symm.trans same))
      rw [refused]
      exact Action.settles_refuse fault

/-- Behind axes that fit in a word, the limit is all that counts. -/
theorem measure_append {outer inner : Shape} (filled : 0 < outer.size)
    (fitting : outer.size < wordLimit) (empty : inner.size = 0 → inner = [0]) :
    (∃ size, measure (outer ++ inner) = .ok size) ↔ (outer ++ inner).size ≤ sizeLimit := by
  refine ⟨fun ⟨_, measured⟩ => size_le_of_measure measured, fun small => ?_⟩
  by_cases none : inner.size = 0
  · rw [empty none]
    have fits : Shape.FitsWord (outer ++ 0 :: []) :=
      Shape.fitsWord_append_empty.2 ((Shape.fitsWord_iff filled).2 fitting)
    exact ⟨_, measure_eq_ok_iff.2 ⟨fits, rfl, by rwa [empty none] at small⟩⟩
  · refine ⟨_, measure_of_size ?_ small⟩
    rw [Shape.size_append]
    exact Nat.mul_pos filled (Nat.pos_of_ne_zero none)

/-- The elements that are foretold are stored under the outer shape and the common one. -/
def IsLaid (fits : β → Value → Prop) (fill : Option Value) (outer : Shape)
    (laid : Shape × List β) (array : ShapedArray) : Prop :=
  laid.2.length = (outer ++ laid.1).size ∧
  ∃ data : Array Value, List.Forall₂ fits laid.2 data.toList ∧
    array = ofView .owned (outer ++ laid.1) fill (stored data)

theorem settles_foldlM_appendItem {appearances : List (Appearance β)} {items : List Value}
    (reads : List.Forall₂ (Value.ReadsAs calling held fits) appearances items) (inner : Shape) :
    (items.foldlM (appendItem inner) #[]).Settles calling held
      (fun row data => List.Forall₂ fits row data.toList)
      (appearances.foldlM (Appearance.lay inner) []) := by
  refine Action.Settles.foldlM ?_ reads .nil
  exact fun _ _ _ _ agree reads => settles_appendItem agree reads

theorem settles_filled {inner : Shape} {row : List β} {data : Array Value} {outer : Shape}
    (agree : List.Forall₂ fits row data.toList) (length : row.length = (outer ++ inner).size)
    {size : Nat} (measured : measure (outer ++ inner) = .ok size) (fill : Option Value) :
    (liftM (filled (outer ++ inner) data fill) : Action H ShapedArray).Settles calling held
      (IsLaid fits fill outer) (some (inner, row)) := by
  have whole : size = data.size := by
    rw [measure_eq_ok measured, ← length, agree.length_eq, Array.length_toList]
  have isFilled : filled (outer ++ inner) data fill =
      .ok (ofView .owned (outer ++ inner) fill (stored data)) := by
    rw [filled, measured]
    exact if_pos whole
  rw [isFilled]
  exact Action.settles_pure ⟨length, data, agree, rfl⟩

/-- A merge ends as its items foretell. -/
theorem settles_merge {appearances : List (Appearance β)} {items : Array Value}
    (reads : List.Forall₂ (Value.ReadsAs calling held fits) appearances items.toList)
    {outer : Shape} (size : outer.size = items.size) (fitting : outer.size < wordLimit)
    (fill : Option Value) :
    (merge items fill outer).Settles calling held (IsLaid fits fill outer)
      (Appearance.laid? outer appearances) := by
  rw [merge, if_neg (not_not.2 size), ← Array.getElem?_toList]
  generalize isList : items.toList = list at reads
  have count : outer.size = list.length := by rw [size, ← isList, Array.length_toList]
  have loop (inner : Shape) : items.foldlM (appendItem (H := H) inner) #[] =
      list.foldlM (appendItem inner) #[] := by rw [← Array.foldlM_toList, isList]
  cases reads with
  | nil =>
      have none : (outer ++ [0]).size = 0 := Shape.size_append outer [0]
      exact Action.settles_pure ⟨none.symm, #[], .nil, (if_pos none).symm⟩
  | @cons first item rest others here later =>
      have shape : item.shape = first.shape := here.shape
      rw [List.getElem?_cons_zero, Appearance.laid?]
      dsimp only
      rw [shape, loop]
      have filled : 0 < outer.size := count ▸ Nat.succ_pos _
      have limited := measure_append filled fitting here.empty
      split
      · next small =>
          obtain ⟨total, measured⟩ := limited.2 small
          rw [measured, Option.map_eq_bind]
          refine (settles_foldlM_appendItem (.cons here later) first.shape).bind
            fun row data isRow agree => settles_filled agree ?_ measured fill
          rw [Appearance.length_of_foldlM_lay (Value.lengths_of_reads (.cons here later)) isRow,
            Shape.size_append, count, List.length_cons, List.length_cons, later.length_eq]
      · next large =>
          cases measured : measure (outer ++ first.shape) with
          | ok total => exact absurd (limited.1 ⟨total, measured⟩) large
          | error failure => exact Action.settles_error failure

end ShapedArray

end Reads

end PointFree
