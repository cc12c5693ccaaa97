import PointFree.Proofs.Compilation.Lowering
import PointFree.Proofs.Correspondence.Action
import PointFree.Proofs.Measuring
import PointFree.ShapedArray.Cells

/-!
Contract: what arrays are made of.

An array is made by a finite number of the operations on arrays. `Element.Sound` is what
each of them keeps of the elements below the count: an element is there as a value, or it
is made of sound ones, and the index of a selected element has named a place when it was
checked. An array without elements is the empty one, however it was made.
-/

namespace PointFree

variable {H α β : Type} {calling : Call H}

/-! ### What actions give -/

namespace Action

/-- The action succeeds with the result, when it starts at some memory. -/
def Gives (calling : Call H) (action : Action H α) (result : α) : Prop :=
  ∃ memory after, action calling memory = (.ok result, after)

theorem Gives.bind {action : Action H α} {next : α → Action H β} {result : β}
    (gives : (action >>= next).Gives calling result) :
    ∃ value, action.Gives calling value ∧ (next value).Gives calling result := by
  obtain ⟨memory, after, ended⟩ := gives
  rcases first : action calling memory with ⟨failure | value, between⟩
  · rw [bind_of_error first] at ended
    cases ended
  · rw [bind_of_ok first] at ended
    exact ⟨value, ⟨memory, between, first⟩, between, after, ended⟩

theorem Gives.eq_ok {outcome : Outcome α} {result : α}
    (gives : (liftM outcome : Action H α).Gives calling result) : outcome = .ok result := by
  obtain ⟨memory, after, ended⟩ := gives
  exact congrArg Prod.fst ended

theorem Gives.eq_of_pure {value result : α}
    (gives : (pure value : Action H α).Gives calling result) :
    result = value := by
  have lifted : (liftM (.ok value : Outcome α) : Action H α).Gives calling result := gives
  exact (Except.ok.inj lifted.eq_ok).symm

theorem Gives.collectFrom {item : Nat → Action H α} {remaining first : Nat} {found all : Array α}
    (gives : (PointFree.collectFrom item remaining first found).Gives calling all) {index : Nat}
    (above : first ≤ index) (below : index < first + remaining) :
    ∃ value, (item index).Gives calling value := by
  induction remaining generalizing first found with
  | zero => omega
  | succ remaining inductionHypothesis =>
      obtain ⟨value, given, rest⟩ := gives.bind
      by_cases here : index = first
      · exact ⟨value, here ▸ given⟩
      · exact inductionHypothesis rest (by omega) (by omega)

/-- A collection that succeeds has had a result for each number. -/
theorem Gives.collect {item : Nat → Action H α} {count : Nat} {all : Array α}
    (gives : (PointFree.collect item count).Gives calling all) {index : Nat}
    (below : index < count) : ∃ value, (item index).Gives calling value :=
  gives.collectFrom (Nat.zero_le index) (by omega)

end Action

theorem Value.toPlace_lt {named : Value} {count place : Nat}
    (isPlace : named.toPlace count = .ok place) : place < count := by
  obtain ⟨index, _, small⟩ := Outcome.bind_eq_ok.1 isPlace
  split at small
  · cases small
    assumption
  · cases small

/-! ### Sound elements -/

/-- The element has, when it was read, named one of so many places. -/
def Element.HasNamed (calling : Call H) (index : Element) (count : Nat) : Prop :=
  ∃ named place, Action.Gives calling index.force named ∧ named.toPlace count = .ok place

inductive Element.Sound (calling : Call H) : Element → Prop where
  | value (found : Value) : Sound calling (.value found)
  | combined {function : Function} {left right : Element} :
      Sound calling left → Sound calling right → Sound calling (.combined function left right)
  | selected {index : Element} {count : Nat} {parent : Nat → Element} :
      Sound calling index → index.HasNamed calling count →
      (∀ place < count, Sound calling (parent place)) →
      Sound calling (.selected index count parent)

namespace ShapedArray

/-- Every element below the count is sound, and the empty array is the only one without
elements. -/
structure Sound (calling : Call H) (array : ShapedArray) : Prop where
  empty : array.count = 0 → array = nil
  element : ∀ index < array.count, (array.elementAt index).Sound calling

theorem sound_nil : nil.Sound calling where
  empty _ := rfl
  element index inside := absurd inside (Nat.not_lt_zero index)

theorem sound_ofView {view : View} {shape : Shape} {fill : Option Value}
    {element : Nat → Element} (sound : ∀ index < shape.size, (element index).Sound calling) :
    (ofView view shape fill element).Sound calling where
  empty none := by
    rw [count_ofView] at none
    rw [ofView, if_pos none]
  element index inside := by
    rw [count_ofView] at inside
    rw [elementAt_ofView _ _ _ _ index inside]
    exact sound index inside

theorem sound_scalar (content : Value) : (scalar content).Sound calling where
  empty none := absurd none Nat.one_ne_zero
  element index inside := by
    rw [elementAt, if_pos inside]
    exact .value content

theorem stored_sound {elements : Array Value} {index : Nat} (inside : index < elements.size) :
    (stored elements index).Sound calling := by
  rw [stored, Array.getElem?_eq_getElem inside]
  exact .value _

theorem size_singleton (axis : Nat) : Shape.size [axis] = axis := by
  rw [Shape.size_cons, Shape.size_nil, Nat.mul_one]

theorem shape_list (elements : Array Value) : (list elements).shape = [elements.size] := by
  rw [list, ofView]
  split
  · next empty =>
      rw [← size_singleton elements.size, empty]
      rfl
  · rfl

theorem count_list (elements : Array Value) : (list elements).count = elements.size := by
  rw [count, shape_list, size_singleton]

theorem elementAt_list {elements : Array Value} {index : Nat} (inside : index < elements.size) :
    (list elements).elementAt index = .value elements[index] := by
  rw [list, elementAt_ofView _ _ _ _ _ (by rwa [size_singleton]), stored,
    Array.getElem?_eq_getElem inside]

theorem sound_list (elements : Array Value) : (list elements).Sound calling :=
  sound_ofView fun index inside => stored_sound (by rwa [size_singleton] at inside)

section Making

variable {array result : ShapedArray}

theorem sound_of_build {view : View} {shape : Shape} {fill : Option Value}
    {element : Nat → Element} (built : build view shape fill element = .ok result)
    (sound : ∀ index < shape.size, (element index).Sound calling) : result.Sound calling := by
  obtain ⟨_, _, rfl⟩ := Outcome.map_eq_ok.1 built
  exact sound_ofView sound

theorem sound_of_filled {shape : Shape} {elements : Array Value} {fill : Option Value}
    (made : filled shape elements fill = .ok result) : result.Sound calling := by
  obtain ⟨size, measured, made⟩ := Outcome.bind_eq_ok.1 made
  split at made
  · next same =>
      cases made
      refine sound_ofView fun index inside => stored_sound ?_
      rw [← same, measure_eq_ok measured]
      exact inside
  · cases made

theorem count_eq_length_mul (ranked : array.rank ≠ 0) :
    array.count = array.length * array.shape.cellSize := by
  rw [rank] at ranked
  rw [count, length, Shape.cellSize]
  cases isShape : array.shape with
  | nil => simp [isShape] at ranked
  | cons axis rest => exact Shape.size_cons axis rest

/-- A run of cells lies within the array it is taken from. -/
theorem slice_lt (ranked : array.rank ≠ 0) {start extent : Nat}
    (fits : start + extent ≤ array.length) {index : Nat}
    (inside : index < Shape.size (extent :: array.shape.tail)) :
    start * array.shape.cellSize + index < array.count := by
  rw [Shape.size_cons] at inside
  calc start * array.shape.cellSize + index
      < start * array.shape.cellSize + extent * array.shape.cellSize :=
        Nat.add_lt_add_left inside _
    _ = (start + extent) * array.shape.cellSize := (Nat.add_mul ..).symm
    _ ≤ array.length * array.shape.cellSize := Nat.mul_le_mul_right _ fits
    _ = array.count := (count_eq_length_mul ranked).symm

theorem sound_of_slice (sound : array.Sound calling) {start extent : Nat}
    (sliced : array.slice start extent = .ok result) : result.Sound calling := by
  rw [slice] at sliced
  split at sliced
  · cases sliced
  · next ranked =>
      split at sliced
      · cases sliced
      · next inside =>
          split at sliced
          · cases sliced
            exact sound
          · refine sound_of_build sliced fun index below => sound.element _ ?_
            exact slice_lt ranked (Nat.le_of_not_lt inside) below

theorem offsetFrom_lt {axis : Nat} {shape : Shape} {position : List Nat} {offset : Nat}
    (found : offsetFrom axis shape position = .ok offset) (fits : position.length ≤ shape.length)
    {index : Nat} (inside : index < Shape.size (shape.drop position.length)) :
    offset + index < shape.size := by
  induction position generalizing axis shape offset with
  | nil =>
      have none : offset = 0 := by
        cases shape <;> exact (Except.ok.inj found).symm
      rw [none, Nat.zero_add]
      exact inside
  | cons first position inductionHypothesis =>
      cases shape with
      | nil => simp at fits
      | cons size rest =>
          rw [offsetFrom] at found
          split at found
          · cases found
          · next below =>
              obtain ⟨inner, isInner, rfl⟩ := Outcome.map_eq_ok.1 found
              have there := inductionHypothesis isInner (Nat.le_of_succ_le_succ fits) inside
              rw [Shape.size_cons]
              calc first * Shape.size rest + inner + index
                  < first * Shape.size rest + Shape.size rest := by omega
                _ = (first + 1) * Shape.size rest := (Nat.succ_mul ..).symm
                _ ≤ size * Shape.size rest := Nat.mul_le_mul_right _ (by omega)

theorem sound_of_selectRank (sound : array.Sound calling) {position : List Nat}
    (selected : array.selectRank position = .ok result) : result.Sound calling := by
  rw [selectRank] at selected
  split at selected
  · cases selected
  · next fits =>
      obtain ⟨offset, found, built⟩ := Outcome.bind_eq_ok.1 selected
      refine sound_of_build built fun index below => sound.element _ ?_
      exact offsetFrom_lt found (Nat.le_of_not_lt fits) below

theorem sound_of_reshape (sound : array.Sound calling) {shape : Shape}
    (reshaped : array.reshape shape = .ok result) : result.Sound calling := by
  obtain ⟨size, measured, reshaped⟩ := Outcome.bind_eq_ok.1 reshaped
  split at reshaped
  · cases reshaped
    exact sound_nil
  · split at reshaped
    · cases reshaped
    · next filled =>
        split at reshaped
        · cases reshaped
          exact sound
        · cases reshaped
          refine sound_ofView fun index below => sound.element _ (Nat.mod_lt index ?_)
          simpa [isEmpty, Nat.pos_iff_ne_zero] using filled

/-- The shorter shape of an alignment fits into the longer one without a rest. -/
theorem aligned_pos {left right shape : Shape} (aligned : alignShapes left right = .ok shape)
    (some : 0 < shape.size) : 0 < left.size ∧ 0 < right.size := by
  have suffix {lead short : Shape} (drops : lead.drop (lead.length - short.length) = short)
      (filled : 0 < lead.size) : 0 < short.size := by
    rw [← List.take_append_drop (lead.length - short.length) lead, drops,
      Shape.size_append] at filled
    exact Nat.pos_of_mul_pos_left filled
  rw [alignShapes, Shape.aligned?] at aligned
  by_cases shorter : left.length < right.length
  · simp only [shorter, if_true] at aligned
    by_cases drops : right.drop (right.length - left.length) = left
    · simp only [drops, if_true] at aligned
      cases aligned
      exact ⟨suffix drops some, some⟩
    · simp [drops, refuse] at aligned
  · simp only [shorter, if_false] at aligned
    by_cases drops : left.drop (left.length - right.length) = right
    · simp only [drops, if_true] at aligned
      cases aligned
      exact ⟨some, suffix drops some⟩
    · simp [drops, refuse] at aligned

theorem sound_of_zip {left right : ShapedArray} (leftSound : left.Sound calling)
    (rightSound : right.Sound calling) {function : Function}
    (zipped : left.zip right function = .ok result) : result.Sound calling := by
  obtain ⟨shape, aligned, built⟩ := Outcome.bind_eq_ok.1 zipped
  refine sound_of_build built fun index below => ?_
  obtain ⟨leftSome, rightSome⟩ := aligned_pos aligned (Nat.zero_lt_of_lt below)
  exact .combined (leftSound.element _ (Nat.mod_lt index leftSome))
    (rightSound.element _ (Nat.mod_lt index rightSome))

theorem sound_of_gather {indices : ShapedArray} (sound : array.Sound calling)
    (indicesSound : indices.Sound calling)
    (gathered : (array.gather indices).Gives calling result) : result.Sound calling := by
  obtain ⟨places, checked, built⟩ := gathered.bind
  refine sound_of_build built.eq_ok fun index below => ?_
  obtain ⟨place, given⟩ := checked.collect below
  obtain ⟨named, isNamed, isPlace⟩ := given.bind
  have isPlace : named.toPlace array.count = .ok place := isPlace.eq_ok
  have parts := indicesSound.element index below
  have inside {place : Nat} (below : place < array.count) :
      (array.element place).Sound calling := by
    have there := sound.element place below
    rwa [elementAt, if_pos below] at there
  rw [pick] at isNamed
  cases isElement : indices.elementAt index with
  | value found =>
      rw [isElement] at isNamed
      obtain rfl := isNamed.eq_of_pure
      rw [elementNamed, isPlace]
      exact inside (Value.toPlace_lt isPlace)
  | failure reason =>
      rw [isElement] at parts
      cases parts
  | combined function left right =>
      rw [isElement] at parts isNamed
      exact .selected parts ⟨named, place, isNamed, isPlace⟩ fun _ => inside
  | selected index count parent =>
      rw [isElement] at parts isNamed
      exact .selected parts ⟨named, place, isNamed, isPlace⟩ fun _ => inside

theorem sound_of_merge {items : Array Value} {fill : Option Value} {outer : Shape}
    (merged : (merge items fill outer).Gives calling result) : result.Sound calling := by
  rw [merge] at merged
  split at merged
  · cases merged.eq_ok
  · split at merged
    · rw [merged.eq_of_pure]
      exact sound_nil
    · obtain ⟨_, _, merged⟩ := merged.bind
      obtain ⟨_, _, made⟩ := merged.bind
      exact sound_of_filled made.eq_ok

theorem sound_of_materialize (sound : array.Sound calling)
    (materialized : array.materialize.Gives calling result) : result.Sound calling := by
  rw [materialize] at materialized
  split at materialized
  · rw [materialized.eq_of_pure]
    exact sound
  · rw [materialized.eq_of_pure]
    exact sound
  · rw [materialized.eq_of_pure]
    exact sound
  · obtain ⟨_, _, made⟩ := materialized.bind
    exact sound_of_filled made.eq_ok

end Making

/-- Arrays that come of a finite number of operations on arrays. What an operation reads,
it reads at any memory. -/
inductive IsMade (calling : Call H) : ShapedArray → Prop where
  | new {shape : Shape} {elements : Array Value} {result : ShapedArray} :
      ShapedArray.new shape elements = .ok result → IsMade calling result
  | filled {shape : Shape} {elements : Array Value} {fill : Option Value}
      {result : ShapedArray} :
      ShapedArray.filled shape elements fill = .ok result → IsMade calling result
  | list (elements : Array Value) : IsMade calling (list elements)
  | scalar (content : Value) : IsMade calling (scalar content)
  | nil : IsMade calling nil
  | slice {array result : ShapedArray} {start extent : Nat} :
      IsMade calling array → array.slice start extent = .ok result → IsMade calling result
  | sliceCell {array result : ShapedArray} {index : Nat} :
      IsMade calling array → array.sliceCell index = .ok result → IsMade calling result
  | selectRank {array result : ShapedArray} {position : List Nat} :
      IsMade calling array → array.selectRank position = .ok result → IsMade calling result
  | gather {array indices result : ShapedArray} : IsMade calling array →
      IsMade calling indices → (array.gather indices).Gives calling result →
      IsMade calling result
  | reshape {array result : ShapedArray} {shape : Shape} :
      IsMade calling array → array.reshape shape = .ok result → IsMade calling result
  | zip {left right result : ShapedArray} {function : Function} : IsMade calling left →
      IsMade calling right → left.zip right function = .ok result → IsMade calling result
  | merge {items : Array Value} {fill : Option Value} {outer : Shape} {result : ShapedArray} :
      (merge items fill outer).Gives calling result → IsMade calling result
  | materialize {array result : ShapedArray} : IsMade calling array →
      array.materialize.Gives calling result → IsMade calling result

theorem IsMade.sound {array : ShapedArray} (made : array.IsMade calling) :
    array.Sound calling := by
  induction made with
  | new made => exact sound_of_filled made
  | filled made => exact sound_of_filled made
  | list elements => exact sound_list elements
  | scalar content => exact sound_scalar content
  | nil => exact sound_nil
  | slice _ sliced sound => exact sound_of_slice sound sliced
  | sliceCell _ selected sound => exact sound_of_selectRank sound selected
  | selectRank _ selected sound => exact sound_of_selectRank sound selected
  | gather _ _ gathered sound indicesSound => exact sound_of_gather sound indicesSound gathered
  | reshape _ reshaped sound => exact sound_of_reshape sound reshaped
  | zip _ _ zipped leftSound rightSound => exact sound_of_zip leftSound rightSound zipped
  | merge merged => exact sound_of_merge merged
  | materialize _ materialized sound => exact sound_of_materialize sound materialized

end ShapedArray

end PointFree
