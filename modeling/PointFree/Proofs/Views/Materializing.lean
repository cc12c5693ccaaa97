import PointFree.Function.Call
import PointFree.Proofs.Likeness.Primitive

/-!
Contract: storing the elements of an array.

An array that was made by operations on arrays, and whose elements are read without another
effect, can be materialized, and what comes of it reads like the array. No operation tells
the two apart in any place where an array can stand among its arguments.
-/

namespace PointFree

variable {H : Type} {calling : Call H}

namespace Likeness

/-! ### Elements that give the same under given calls -/

/-- Elements read alike when reading them does the same. -/
def under (calling : Call H) : Likeness H where
  reads element element' :=
    (∀ content, element ≠ .value content) ∧ element.force calling = element'.force calling
  calls _ other := other = calling
  memories _ _ := True

mutual

theorem Values.refl : (value : Value) → (under calling).Values value value
  | .number number => .number number
  | .character letter => .character letter
  | .array array => .array (Arrays.refl array)
  | .function function => .function (Values.refl_contents function)

theorem Arrays.refl : (array : ShapedArray) → (under calling).Arrays array array
  | .mk view shape none element =>
      .bare view view shape fun index _ => Elements.refl (element index)
  | .mk view shape (some fill) element =>
      .padded view view shape (Values.refl fill) fun index _ => Elements.refl (element index)

theorem Elements.refl : (element : Element) → (under calling).Elements element element
  | .value content => .value (Values.refl content)
  | .failure _ => .pending ⟨nofun, rfl⟩
  | .combined _ _ _ => .pending ⟨nofun, rfl⟩
  | .selected _ _ _ => .pending ⟨nofun, rfl⟩

theorem Values.refl_contents : (function : Function) →
    ∀ content ∈ function.contents, (under calling).Values content content
  | .mk _ form => Values.refl_parts form

theorem Values.refl_parts : (form : Form) →
    ∀ content ∈ form.contents, (under calling).Values content content
  | .primitive _ | .block _ _ _ => nofun
  | .constant content _ => fun _ member => List.mem_singleton.1 member ▸ Values.refl content
  | .atop left right | .over left right | .under left right | .rank left right
  | .before left right | .after left right => fun found member =>
      (List.mem_append.1 member).elim (Values.refl_contents left found)
        (Values.refl_contents right found)
  | .fork left middle right => fun found member =>
      (List.mem_append.1 member).elim (Values.refl_contents left found) fun later =>
        (List.mem_append.1 later).elim (Values.refl_contents middle found)
          (Values.refl_contents right found)
  | .swap operand | .each operand | .table operand | .cells operand | .fold operand
  | .scan operand | .inverse operand => Values.refl_contents operand

end

instance : (under calling).Lawful where
  pending reads := reads.1
  force reads other is memory _ := by
    obtain rfl : other = calling := is
    rw [← reads.2]
    exact ⟨trivial, rfl, (Outcomes.same _).imp fun same => same ▸ Values.refl _⟩

variable {α : Type}

/-- Actions that do the same under the given calls. -/
theorem Twins.of_eq {action action' : Action H α} (same : action calling = action' calling) :
    (under calling).Twins Eq action action' := by
  rintro _ rfl memory _
  rw [same]
  exact .inr ⟨trivial, rfl, .same _⟩

end Likeness

open Likeness

/-! ### Arrays that stand for others -/

/-- An array with the elements of another, or with elements that read alike. -/
structure ShapedArray.StandsFor (calling : Call H) (stored array : ShapedArray) : Prop where
  shape : stored.shape = array.shape
  fill : stored.fill = array.fill
  element : ∀ index < array.count, stored.element index = array.element index ∨
    (under calling).reads (array.element index) (stored.element index)

namespace ShapedArray.StandsFor

variable {stored array : ShapedArray}

theorem refl (array : ShapedArray) : array.StandsFor calling array :=
  ⟨rfl, rfl, fun _ _ => .inl rfl⟩

theorem count (stands : stored.StandsFor calling array) : stored.count = array.count :=
  congrArg Shape.size stands.shape

theorem arrays (stands : stored.StandsFor calling array) :
    (under calling).Arrays array stored := by
  obtain ⟨shape, fill, elements⟩ := stands
  cases array with
  | mk view axes content element =>
      cases stored with
      | mk view' axes' content' element' =>
          cases shape
          cases fill
          refine .mk _ _ _ ?_ fun index inside => ?_
          · cases content with
            | none => exact .none
            | some content => exact .some (Values.refl content)
          · rcases elements index inside with same | reads
            · rw [show element' index = element index from same]
              exact Elements.refl _
            · exact .pending reads

theorem elementAt (stands : stored.StandsFor calling array) (index : Nat) :
    stored.elementAt index = array.elementAt index ∨
      (under calling).reads (array.elementAt index) (stored.elementAt index) := by
  rw [ShapedArray.elementAt, ShapedArray.elementAt, stands.count]
  split
  · next inside => exact stands.element index inside
  · exact .inl rfl

theorem force_elementAt (stands : stored.StandsFor calling array) (index : Nat) :
    (array.elementAt index).force calling = (stored.elementAt index).force calling := by
  rcases stands.elementAt index with same | reads
  · rw [same]
  · exact reads.2

end ShapedArray.StandsFor

/-! ### Elements made of others -/

theorem Action.bind_congr_under {α β : Type} {action action' : Action H α}
    {next next' : α → Action H β} (first : action calling = action' calling)
    (rest : ∀ result, next result calling = next' result calling) :
    (action >>= next) calling = (action' >>= next') calling := by
  change (action calling >>= fun result => next result calling) =
    (action' calling >>= fun result => next' result calling)
  rw [first, funext rest]

theorem Element.force_combined_congr {function : Function} {left left' right right' : Element}
    (lefts : left.force calling = left'.force calling)
    (rights : right.force calling = right'.force calling) :
    (Element.combined function left right).force calling =
      (Element.combined function left' right').force calling :=
  Action.bind_congr_under lefts fun _ => Action.bind_congr_under rights fun _ => rfl

namespace ShapedArray

/-- A selected element is read as its index says, whether or not the index is there yet. -/
theorem force_elementNamed (array : ShapedArray) (index : Element) :
    ((array.elementNamed index).force : Action H Value) = (do
      let named ← index.force
      let place ← named.toPlace array.count
      (array.element place).force) := by
  cases index with
  | value named =>
      change _ = (do
        let place ← (liftM (named.toPlace array.count) : Action H Nat)
        (array.element place).force)
      rw [elementNamed]
      cases named.toPlace array.count <;> rfl
  | failure reason => rfl
  | combined => rfl
  | selected => rfl

theorem elementNamed_pending (array : ShapedArray) {index : Element}
    (pending : ∀ content, index ≠ .value content) (content : Value) :
    array.elementNamed index ≠ .value content := by
  cases index with
  | value named => exact absurd rfl (pending named)
  | failure => exact nofun
  | combined => exact nofun
  | selected => exact nofun

namespace StandsFor

variable {stored array : ShapedArray}

theorem elementNamed (stands : stored.StandsFor calling array) (index : Element) :
    (under calling).Elements (array.elementNamed index) (stored.elementNamed index) := by
  have forced : (array.elementNamed index).force calling =
      (stored.elementNamed index).force calling := by
    rw [force_elementNamed, force_elementNamed, stands.count]
    refine Action.bind_congr_under rfl fun named => ?_
    cases isPlace : named.toPlace array.count with
    | error reason => rfl
    | ok place =>
        have inside := Value.toPlace_lt isPlace
        have there := stands.force_elementAt place
        rw [ShapedArray.elementAt, if_pos inside, ShapedArray.elementAt,
          if_pos (stands.count.symm ▸ inside)] at there
        exact there
  cases index with
  | value named =>
      rw [ShapedArray.elementNamed, ShapedArray.elementNamed, stands.count]
      cases isPlace : named.toPlace array.count with
      | ok place => exact stands.arrays.element (Value.toPlace_lt isPlace)
      | error reason => exact Elements.refl _
  | failure => exact .pending ⟨array.elementNamed_pending nofun, forced⟩
  | combined => exact .pending ⟨array.elementNamed_pending nofun, forced⟩
  | selected => exact .pending ⟨array.elementNamed_pending nofun, forced⟩

/-- The parent of a gather may be replaced. -/
theorem gather (stands : stored.StandsFor calling array) (indices : ShapedArray) :
    (under calling).Twins (under calling).Arrays (array.gather indices)
      (stored.gather indices) := by
  rw [ShapedArray.gather, ShapedArray.gather, stands.count, stands.fill]
  refine Twins.bindSame (Twins.of_eq rfl) fun _ => Twins.lift (Arrays.build _ _ ?_ ?_)
  · exact stands.fill ▸ stands.arrays.fill
  · exact fun index _ => stands.elementNamed (indices.elementAt index)

/-- The indices of a gather may be replaced. -/
theorem gatherThrough (stands : stored.StandsFor calling array) (parent : ShapedArray) :
    (under calling).Twins (under calling).Arrays (parent.gather array)
      (parent.gather stored) := by
  rw [ShapedArray.gather, ShapedArray.gather, stands.count, stands.shape]
  refine Twins.bind (A := Collected Eq array.count) (Twins.collect fun index _ => ?_) fun _ => ?_
  · exact Twins.of_eq
      (Action.bind_congr_under (stands.force_elementAt index) fun _ => rfl)
  · refine Twins.lift (Arrays.build _ _ (Arrays.refl parent).fill fun index _ => ?_)
    rcases stands.elementAt index with same | reads
    · rw [same]
      exact Elements.refl _
    · refine .pending ⟨parent.elementNamed_pending reads.1, ?_⟩
      rw [force_elementNamed, force_elementNamed]
      exact Action.bind_congr_under reads.2 fun _ => rfl

/-- Either side of a zip may be replaced. -/
theorem zip {left left' right right' : ShapedArray} (lefts : left'.StandsFor calling left)
    (rights : right'.StandsFor calling right) (function : Function) :
    Outcomes (under calling).Arrays (left.zip right function) (left'.zip right' function) := by
  rw [ShapedArray.zip, ShapedArray.zip, lefts.shape, rights.shape, lefts.count, rights.count]
  refine Outcomes.bind (.same _) ?_
  rintro shape _ rfl
  refine Arrays.build _ _ .none fun index _ => .pending ⟨nofun, ?_⟩
  exact Element.force_combined_congr (lefts.force_elementAt _) (rights.force_elementAt _)

end StandsFor

/-! ### Shapes that were measured -/

def IsMeasured (array : ShapedArray) : Prop :=
  ∃ size, measure array.shape = .ok size

section Measured

variable {array result : ShapedArray}

theorem isMeasured_nil : nil.IsMeasured :=
  ⟨0, rfl⟩

theorem isMeasured_ofView {view : View} {shape : Shape} {size : Nat} {fill : Option Value}
    {element : Nat → Element} (measured : measure shape = .ok size) :
    (ofView view shape fill element).IsMeasured := by
  rw [ofView]
  split
  · exact isMeasured_nil
  · exact ⟨size, measured⟩

theorem isMeasured_of_build {view : View} {shape : Shape} {fill : Option Value}
    {element : Nat → Element} (built : build view shape fill element = .ok result) :
    result.IsMeasured := by
  obtain ⟨size, measured, rfl⟩ := Outcome.map_eq_ok.1 built
  exact isMeasured_ofView measured

theorem isMeasured_of_filled {shape : Shape} {elements : Array Value} {fill : Option Value}
    (made : filled shape elements fill = .ok result) : result.IsMeasured := by
  obtain ⟨size, measured, made⟩ := Outcome.bind_eq_ok.1 made
  split at made
  · cases made
    exact isMeasured_ofView measured
  · cases made

theorem isMeasured_of_selectRank {position : List Nat}
    (selected : array.selectRank position = .ok result) : result.IsMeasured := by
  rw [selectRank] at selected
  split at selected
  · cases selected
  · obtain ⟨_, _, built⟩ := Outcome.bind_eq_ok.1 selected
    exact isMeasured_of_build built

theorem isMeasured_of_merge {items : Array Value} {fill : Option Value} {outer : Shape}
    (merged : (merge items fill outer).Gives calling result) : result.IsMeasured := by
  rw [merge] at merged
  split at merged
  · cases merged.eq_ok
  split at merged
  · rw [merged.eq_of_pure]
    exact isMeasured_nil
  · obtain ⟨_, _, merged⟩ := merged.bind
    obtain ⟨_, _, made⟩ := merged.bind
    exact isMeasured_of_filled made.eq_ok

theorem eq_or_isMeasured_of_slice {start extent : Nat}
    (sliced : array.slice start extent = .ok result) : result = array ∨ result.IsMeasured := by
  rw [slice] at sliced
  split at sliced
  · cases sliced
  split at sliced
  · cases sliced
  split at sliced
  · exact .inl (Except.ok.inj sliced).symm
  · exact .inr (isMeasured_of_build sliced)

theorem eq_or_isMeasured_of_reshape {shape : Shape}
    (reshaped : array.reshape shape = .ok result) : result = array ∨ result.IsMeasured := by
  obtain ⟨size, measured, reshaped⟩ := Outcome.bind_eq_ok.1 reshaped
  split at reshaped
  · cases reshaped
    exact .inr isMeasured_nil
  split at reshaped
  · cases reshaped
  split at reshaped
  · exact .inl (Except.ok.inj reshaped).symm
  · cases reshaped
    exact .inr (isMeasured_ofView measured)

theorem eq_or_isMeasured_of_materialize (materialized : array.materialize.Gives calling result) :
    result = array ∨ result.IsMeasured := by
  rw [materialize] at materialized
  split at materialized
  · exact .inl materialized.eq_of_pure
  · exact .inl materialized.eq_of_pure
  · exact .inl materialized.eq_of_pure
  · obtain ⟨_, _, made⟩ := materialized.bind
    exact .inr (isMeasured_of_filled made.eq_ok)

/-- A list is not measured when it is made, but its elements are stored. -/
theorem IsMade.isMeasured (made : array.IsMade calling) :
    array.IsMeasured ∨ array.view = .owned ∧ array.rank = 1 := by
  induction made with
  | new made => exact .inl (isMeasured_of_filled made)
  | filled made => exact .inl (isMeasured_of_filled made)
  | list elements =>
      rw [ShapedArray.list, ofView]
      split
      · exact .inl isMeasured_nil
      · exact .inr ⟨rfl, rfl⟩
  | scalar content => exact .inl ⟨1, rfl⟩
  | nil => exact .inl isMeasured_nil
  | slice _ sliced measured =>
      rcases eq_or_isMeasured_of_slice sliced with rfl | isMeasured
      · exact measured
      · exact .inl isMeasured
  | sliceCell _ selected => exact .inl (isMeasured_of_selectRank selected)
  | selectRank _ selected => exact .inl (isMeasured_of_selectRank selected)
  | gather _ _ gathered =>
      obtain ⟨_, _, built⟩ := gathered.bind
      exact .inl (isMeasured_of_build built.eq_ok)
  | reshape _ reshaped measured =>
      rcases eq_or_isMeasured_of_reshape reshaped with rfl | isMeasured
      · exact measured
      · exact .inl isMeasured
  | zip _ _ zipped =>
      obtain ⟨_, _, built⟩ := Outcome.bind_eq_ok.1 zipped
      exact .inl (isMeasured_of_build built)
  | merge merged => exact .inl (isMeasured_of_merge merged)
  | materialize _ materialized measured =>
      rcases eq_or_isMeasured_of_materialize materialized with rfl | isMeasured
      · exact measured
      · exact .inl isMeasured

end Measured

/-! ### Storing the elements -/

theorem collectFrom_of_pure {α : Type} {item : Nat → Action H α} {value : Nat → α}
    {remaining index : Nat} (items : ∀ place, index ≤ place → place < index + remaining →
      ∀ memory, item place calling memory = (.ok (value place), memory))
    (found : Array α) (memory : Memory H) :
    collectFrom item remaining index found calling memory =
      (.ok (found ++ ((List.range' index remaining).map value).toArray), memory) := by
  induction remaining generalizing index found with
  | zero => exact congrArg (fun all => (Except.ok all, memory)) (Array.append_empty).symm
  | succ remaining inductionHypothesis =>
      rw [collectFrom, Action.bind_of_ok (items index (Nat.le_refl _) (by omega) memory),
        inductionHypothesis fun place above below => items place (by omega) (by omega)]
      simp [List.range'_succ]

/-- Each element below the count is read as the same value at every memory, and nothing else
happens. -/
def ReadsPurely (calling : Call H) (array : ShapedArray) : Prop :=
  ∀ index < array.count, ∃ value, ∀ memory,
    array.pick index calling memory = (.ok value, memory)

/-- The value that an element is read as is the one that is there, if one is. -/
theorem ReadsPurely.value {array : ShapedArray} (pure : array.ReadsPurely calling) {index : Nat}
    (inside : index < array.count) :
    ∃ value, (∀ memory, array.pick index calling memory = (.ok value, memory)) ∧
      ∀ content, array.elementAt index = .value content → value = content := by
  obtain ⟨value, reads⟩ := pure index inside
  cases isElement : array.elementAt index with
  | value content =>
      refine ⟨content, fun memory => ?_, fun _ same => Element.value.inj same⟩
      rw [pick, isElement]
      rfl
  | failure => exact ⟨value, reads, nofun⟩
  | combined => exact ⟨value, reads, nofun⟩
  | selected => exact ⟨value, reads, nofun⟩

theorem ReadsPurely.elements {array : ShapedArray} (pure : array.ReadsPurely calling) :
    ∃ found : Array Value, found.size = array.count ∧
      (∀ memory, array.elements calling memory = (.ok found, memory)) ∧
      ∀ index (inside : index < found.size),
        (∀ memory, array.pick index calling memory = (.ok found[index], memory)) ∧
        ∀ content, array.elementAt index = .value content → found[index] = content := by
  have : Nonempty Value := ⟨.nil⟩
  have there (index : Nat) (inside : index < array.count) := pure.value inside
  choose! value reads using there
  refine ⟨((List.range' 0 array.count).map value).toArray, by simp, fun memory => ?_, ?_⟩
  · rw [ShapedArray.elements, collect,
      collectFrom_of_pure fun place _ below => (reads place (by omega)).1]
    rw [Array.empty_append]
  · intro index inside
    simpa using reads index (by simpa using inside)

/-- The elements that have been read stand for the array. -/
theorem standsFor_of_elements {array : ShapedArray} {found : Array Value}
    (size : found.size = array.count)
    (reads : ∀ index (inside : index < found.size),
      (∀ memory, array.pick index calling memory = (.ok found[index], memory)) ∧
        ∀ content, array.elementAt index = .value content → found[index] = content) :
    (ShapedArray.mk .owned array.shape array.fill (stored found)).StandsFor calling array := by
  refine ⟨rfl, rfl, fun index inside => ?_⟩
  have below : index < found.size := size ▸ inside
  obtain ⟨forced, there⟩ := reads index below
  have isStored : (ShapedArray.mk .owned array.shape array.fill (stored found)).element index =
      .value found[index] := by
    rw [element, stored, Array.getElem?_eq_getElem below]
  have isElement : array.elementAt index = array.element index := by
    rw [elementAt, if_pos inside]
  rw [isStored]
  rw [isElement] at there
  simp only [pick, isElement] at forced
  by_cases settled : ∃ content, array.element index = .value content
  · obtain ⟨content, isValue⟩ := settled
    rw [isValue, there content isValue]
    exact .inl rfl
  · exact .inr ⟨fun content isValue => settled ⟨content, isValue⟩, funext forced⟩

theorem materialize_cases (array : ShapedArray) :
    (array.materialize : Action H ShapedArray) = Pure.pure array ∨
      array.view ≠ .owned ∧ (array.materialize : Action H ShapedArray) = (do
        let found ← array.elements
        filled array.shape found array.fill) := by
  rw [materialize]
  split
  · exact .inl rfl
  · exact .inl rfl
  · exact .inl rfl
  · next unowned _ _ => exact .inr ⟨unowned, rfl⟩

/-- Storing the elements of an array succeeds, has no other effect, and gives an array that
stands for it. -/
theorem IsMade.standsFor {array : ShapedArray} (made : array.IsMade calling)
    (pure : array.ReadsPurely calling) :
    ∃ stored, (∀ memory, array.materialize calling memory = (.ok stored, memory)) ∧
      stored.StandsFor calling array := by
  rcases array.materialize_cases (H := H) with already | ⟨unowned, anew⟩
  · rw [already]
    exact ⟨array, fun _ => rfl, .refl array⟩
  · obtain ⟨found, size, collected, reads⟩ := pure.elements
    obtain ⟨extent, measured⟩ := made.isMeasured.resolve_right fun owned => unowned owned.1
    have isFilled : ShapedArray.filled array.shape found array.fill =
        .ok (ofView .owned array.shape array.fill (stored found)) := by
      rw [ShapedArray.filled, measured]
      exact if_pos ((measure_eq_ok measured).trans size.symm)
    refine ⟨ofView .owned array.shape array.fill (stored found), fun memory => ?_, ?_⟩
    · rw [anew, Action.bind_of_ok (collected memory), isFilled]
      rfl
    · rw [ofView]
      split
      · next empty =>
          rw [made.sound.empty empty]
          exact .refl ShapedArray.nil
      · exact standsFor_of_elements size reads

end ShapedArray

end PointFree
