import PointFree.Function.Call
import PointFree.Proofs.Correspondence.Routine
import PointFree.Proofs.Likeness.Primitive

/-!
Contract: values whose elements can be read.

A value is legible when every element of every array in it is there as a legible value or is
one of some pending elements that can be relied on, and the same holds of fills and of the
data that functions hold. A memory is legible when all that a run can come across in it is.
Pending elements can be relied on when reading one of them at a legible memory succeeds, gives
a legible value and leaves a legible memory.

An operation keeps legibility when it makes legible values of legible ones. What a modifier
does with such an operation keeps it too: it reads elements and cells, which are legible,
calls the operation on them, and lays the results together as elements that are there.
-/

namespace PointFree

open Likeness

/-! ### What holds of a memory -/

/-- Every value in a frame and every constant of a block has the property. -/
structure Store.Holds (holds : Value → Prop) (memory : Store) : Prop where
  frames : ∀ frame ∈ memory.heap.frames, ∀ value, some value ∈ frame.slots → holds value
  programs : ∀ program ∈ memory.heap.programs, ∀ routine ∈ program, routine.AllConstants holds

/-- Calls that make of values with the property values with the property. -/
def KeepsCalls (holds : Value → Prop) (calling : Call (Heap (List Routine))) : Prop :=
  ∀ ⦃function right left⦄, holds (.function function) → holds right →
    (∀ value, left = some value → holds value) → ∀ ⦃memory : Store⦄, memory.Holds holds →
      Store.Holds holds (calling function right left memory).2 ∧
        ∀ value, (calling function right left memory).1 = .ok value → holds value

/-- The pending elements alone are alike to themselves. -/
def Likeness.legible (pending : Element → Prop) : Likeness (Heap (List Routine)) where
  reads element element' := element = element' ∧ pending element
  calls holds calling := (∃ budget, calling = callAt budget) ∧ KeepsCalls holds calling
  memories holds memory := Store.Holds holds memory

/-- Every element at every depth of the value is there or is one of the pending ones. -/
def Value.IsLegible (pending : Element → Prop) (value : Value) : Prop :=
  (legible pending).Values value value

def ShapedArray.IsLegible (pending : Element → Prop) (array : ShapedArray) : Prop :=
  (legible pending).Arrays array array

def Store.IsLegible (pending : Element → Prop) (memory : Store) : Prop :=
  memory.Holds (Value.IsLegible pending)

/-- The pending elements can be read at every legible memory, and what reading them gives
and leaves is legible, however many calls are left. -/
structure Element.Reliable (pending : Element → Prop) : Prop where
  unsettled {element : Element} : pending element → ∀ content, element ≠ .value content
  keeps {element : Element} : pending element → ∀ (budget : Nat) (memory : Store),
    memory.IsLegible pending →
      Store.IsLegible pending (element.force (callAt budget) memory).2 ∧
      ∀ value, (element.force (callAt budget) memory).1 = .ok value → value.IsLegible pending
  succeeds {element : Element} : pending element → ∀ memory : Store,
    memory.IsLegible pending → ∃ value after, element.force.perform memory = (.ok value, after)

namespace Legibility

variable {pending : Element → Prop} {α : Type}

theorem lawful (reliable : Element.Reliable pending) : (legible pending).Lawful where
  pending reads := reliable.unsettled reads.2
  force := by
    rintro element _ ⟨rfl, isPending⟩ calling ⟨⟨budget, rfl⟩, _⟩ memory memories
    obtain ⟨kept, holds⟩ := reliable.keeps isPending budget memory memories
    exact ⟨kept, rfl, ((Outcomes.same _).and @holds).imp fun related => related.1 ▸ related.2⟩

/-! ### Actions on memories -/

/-- What a memory holds does not depend on the counters. -/
theorem holds_of_heap {holds : Value → Prop} {memory memory' : Store}
    (kept : memory.Holds holds) (same : memory'.heap = memory.heap) : memory'.Holds holds := by
  obtain ⟨frames, programs⟩ := kept
  constructor
  · rwa [same]
  · rwa [same]

theorem make {form : Form} (contents : ∀ content ∈ form.contents, content.IsLegible pending) :
    (legible pending).Keeps (fun function => (Value.function function).IsLegible pending)
      (Action.make form) :=
  fun _ _ _ memories => ⟨holds_of_heap memories rfl, fun _ ended => by
    cases ended
    exact .function contents⟩

theorem call {function : Function} {right : Value} {left : Option Value}
    (functionLegible : (Value.function function).IsLegible pending)
    (rightLegible : right.IsLegible pending)
    (leftLegible : ∀ value, left = some value → value.IsLegible pending) :
    (legible pending).Keeps (Value.IsLegible pending) (Action.call function right left) :=
  fun _ calls _ memories => calls.2 functionLegible rightLegible leftLegible memories

theorem nested (limit : Nat) {P : α → Prop} {action : Run α}
    (keeps : (legible pending).Keeps P action) :
    (legible pending).Keeps P (Action.nested limit action) := by
  intro calling calls memory memories
  by_cases reached : limit ≤ memory.depth
  · rw [Action.nested_of_reached reached]
    exact ⟨memories, nofun⟩
  · rw [Action.nested_of_below (Nat.lt_of_not_le reached)]
    have deeper : (legible pending).Memories { memory with depth := memory.depth + 1 } :=
      holds_of_heap memories rfl
    obtain ⟨kept, holds⟩ := keeps calls deeper
    exact ⟨holds_of_heap kept rfl, holds⟩

theorem get : (legible pending).Keeps (Store.IsLegible pending) (get : Run Store) :=
  fun _ _ _ memories => ⟨memories, fun _ ended => Except.ok.inj ended ▸ memories⟩

theorem newFrame {slots : Array (Option Value)} (parent : Option Nat)
    (slotsLegible : ∀ value, some value ∈ slots → value.IsLegible pending) :
    (legible pending).Keeps (fun _ => True) (Heap.newFrame slots parent : Run Nat) := by
  intro calling _ memory memories
  refine ⟨⟨fun frame member value isSlot => ?_, memories.programs⟩, fun _ _ => trivial⟩
  rcases Array.mem_push.1 member with old | rfl
  · exact memories.frames frame old value isSlot
  · exact slotsLegible value isSlot

theorem ancestor (frame depth : Nat) :
    (legible pending).Keeps (fun _ => True) (Heap.ancestor frame depth : Run Nat) := by
  intro calling _ memory memories
  rw [Heap.ancestor]
  split
  · exact ⟨memories, fun _ _ => trivial⟩
  · refine ⟨memories, fun _ fails => ?_⟩
    cases fails

theorem load (frame depth slot : Nat) :
    (legible pending).Keeps (Value.IsLegible pending) (Heap.load frame depth slot : Run Value) := by
  refine Keeps.bind (ancestor frame depth) fun {owner} _ => Keeps.bind get fun {memory} kept => ?_
  split
  · next value found =>
      refine Keeps.pure ?_
      obtain ⟨owned, isFrame, isSlot⟩ := Option.bind_eq_some_iff.1 found
      exact kept.frames owned (Array.mem_of_getElem? isFrame) value (Array.mem_of_getElem? isSlot)
  · exact Keeps.refuse _

theorem put (owner slot : Nat) {value : Value} (valueLegible : value.IsLegible pending) :
    (legible pending).Keeps (fun _ => True) (Heap.put owner slot value : Run Unit) := by
  intro calling _ memory memories
  refine ⟨⟨fun frame member found isSlot => ?_, memories.programs⟩, fun _ _ => trivial⟩
  obtain ⟨place, isFrame⟩ := Array.mem_iff_getElem?.1 member
  have modified : (memory.heap.setSlot owner slot value).frames[place]? = some frame := isFrame
  rw [Heap.setSlot, Array.getElem?_modify] at modified
  split at modified
  · obtain ⟨old, isOld, rfl⟩ := Option.map_eq_some_iff.1 modified
    rcases Array.mem_or_eq_of_mem_setIfInBounds isSlot with before | same
    · exact memories.frames old (Array.mem_of_getElem? isOld) found before
    · exact Option.some.inj same ▸ valueLegible
  · exact memories.frames frame (Array.mem_of_getElem? modified) found isSlot

theorem save (fresh : Bool) (frame depth slot : Nat) {value : Value}
    (valueLegible : value.IsLegible pending) :
    (legible pending).Keeps (fun _ => True)
      (Heap.save fresh frame depth slot value : Run Unit) := by
  refine Keeps.bind (ancestor frame depth) fun _ => Keeps.bind get fun _ => ?_
  split
  · exact Keeps.refuse _
  · split
    · exact put _ slot valueLegible
    · exact Keeps.refuse _
  · exact put _ slot valueLegible

theorem install {program : List Routine}
    (known : ∀ routine ∈ program, routine.AllConstants (Value.IsLegible pending)) :
    (legible pending).Keeps (fun _ => True) (Heap.install program : Run Nat) := by
  intro calling _ memory memories
  refine ⟨⟨memories.frames, fun started member routine isRoutine => ?_⟩, fun _ _ => trivial⟩
  rcases Array.mem_push.1 member with old | rfl
  · exact memories.programs started old routine isRoutine
  · exact known routine isRoutine

theorem routine (program block : Nat) :
    (legible pending).Keeps (fun routine => routine.AllConstants (Value.IsLegible pending))
      (Heap.routine program block) := by
  refine Keeps.bind get fun {memory} kept => ?_
  split
  · next found isFound =>
      refine Keeps.pure ?_
      obtain ⟨started, isProgram, isRoutine⟩ := Option.bind_eq_some_iff.1 isFound
      exact kept.programs started (Array.mem_of_getElem? isProgram) found
        (List.mem_of_getElem? isRoutine)
  · exact Keeps.refuse _

end Legibility

end PointFree

namespace PointFree

open Likeness

variable {pending : Element → Prop} {right : Value} {left : Option Value}

/-- The argument before a function, where there is one. -/
def Option.IsLegible (pending : Element → Prop) (left : Option Value) : Prop :=
  ∀ value, left = some value → value.IsLegible pending

theorem Option.isLegible_none : Option.IsLegible pending none :=
  nofun

theorem Option.isLegible_some {value : Value} (legible : value.IsLegible pending) :
    Option.IsLegible pending (some value) :=
  fun _ same => Option.some.inj same ▸ legible

theorem Option.IsLegible.getD (lefts : Option.IsLegible pending left)
    (rights : right.IsLegible pending) : (left.getD right).IsLegible pending := by
  cases left with
  | none => exact rights
  | some value => exact lefts value rfl

theorem Option.IsLegible.rel (lefts : Option.IsLegible pending left) :
    Option.Rel (legible pending).Values left left := by
  cases left with
  | none => exact .none
  | some value => exact .some (lefts value rfl)

/-- Legible arguments give a legible result. -/
def Operation.KeepsLegible (pending : Element → Prop)
    (operation : Operation (Heap (List Routine))) : Prop :=
  ∀ ⦃right left⦄, right.IsLegible pending → Option.IsLegible pending left →
    (legible pending).Keeps (Value.IsLegible pending) (operation right left)

namespace Operation.KeepsLegible

variable {operation : Operation (Heap (List Routine))}

theorem row {row : Array Value} (values : ∀ value ∈ row, value.IsLegible pending) :
    Rows (legible pending).Values row row :=
  Rows.refl_of values

/-- Results laid out under a shape. -/
theorem laidOut (shape : Shape) {results : Array Value}
    (values : ∀ value ∈ results, value.IsLegible pending) :
    (legible pending).Keeps (Value.IsLegible pending) (do
      let result ← (liftM (ShapedArray.new shape results) : Run ShapedArray)
      return .array result) :=
  (Twins.boxed (Arrays.new shape (row values))).keeps

variable [(legible pending).Lawful]

theorem eachElement (keeps : operation.KeepsLegible pending) (rights : right.IsLegible pending) :
    (legible pending).Keeps (Value.IsLegible pending) (operation.eachElement right) := by
  cases rights with
  | number number => exact keeps (.number number) Option.isLegible_none
  | character letter => exact keeps (.character letter) Option.isLegible_none
  | function contents => exact keeps (.function contents) Option.isLegible_none
  | array arrays =>
      refine Keeps.bind (Keeps.collect fun index _ => ?_) fun collected => laidOut _ collected.2
      exact Keeps.bind (arrays.pick index).keeps fun item => keeps item Option.isLegible_none

theorem eachAligned (keeps : operation.KeepsLegible pending) {right left : ShapedArray}
    (rights : right.IsLegible pending) (lefts : left.IsLegible pending) :
    (legible pending).Keeps (Value.IsLegible pending) (operation.eachAligned right left) := by
  refine Keeps.bind (P := fun _ => True) (Keeps.lift fun _ => trivial) fun {shape} _ => ?_
  refine Keeps.bind (Keeps.lift ShapedArray.measure_eq_ok) fun {size} measured => ?_
  refine Keeps.bind (Keeps.collect (P := Value.IsLegible pending) fun index _ => ?_) ?_
  · refine Keeps.bind (lefts.pick _).keeps fun first => ?_
    exact Keeps.bind (rights.pick _).keeps fun second => keeps second (Option.isLegible_some first)
  · rintro results ⟨isSize, values⟩
    refine Keeps.pure (.array (.ofView _ _ _ .none fun index inside => ?_))
    exact Elements.stored (row values) (by rwa [isSize, measured])

theorem each (keeps : operation.KeepsLegible pending) :
    Operation.KeepsLegible pending operation.each := by
  intro right left rights lefts
  cases left with
  | none => exact keeps.eachElement rights
  | some left =>
      rw [Operation.each]
      split
      · exact keeps.eachAligned rights.toArray (lefts left rfl).toArray
      · exact keeps rights lefts

theorem table (keeps : operation.KeepsLegible pending) :
    Operation.KeepsLegible pending operation.table := by
  intro right left rights lefts
  cases left with
  | none => exact keeps.eachElement rights
  | some left =>
      have rows := (lefts left rfl).toArray
      have columns := rights.toArray
      refine Keeps.bind (P := fun _ => True) (Keeps.lift fun _ => trivial) fun _ => ?_
      refine Keeps.bind (Keeps.collect (P := fun results => ∀ value ∈ results,
        Value.IsLegible pending value) fun row _ => ?_) fun collected => ?_
      · refine Keeps.bind (rows.pick row).keeps fun first => ?_
        refine (Keeps.collect fun column _ => ?_).imp And.right
        exact Keeps.bind (columns.pick column).keeps fun second =>
          keeps second (Option.isLegible_some first)
      · refine laidOut _ fun value member => ?_
        obtain ⟨results, isRow, isResult⟩ := Array.mem_flatten.1 member
        exact collected.2 results isRow value isResult

/-! ### Cells -/

/-- What goes with the cells of the right argument is legible. -/
def CompanionIsLegible (pending : Element → Prop) : Companion → Prop
  | .whole left => Option.IsLegible pending left
  | .cells left => left.IsLegible pending

omit [(legible pending).Lawful] in
theorem companion {frame : Shape} (lefts : Option.IsLegible pending left)
    {others : Companion} (isCompanion : companion frame left = .ok others) :
    CompanionIsLegible pending others := by
  unfold Operation.companion at isCompanion
  split at isCompanion
  · next items =>
      split at isCompanion
      · cases isCompanion
        exact lefts
      · split at isCompanion
        · cases isCompanion
          cases lefts _ rfl with
          | array arrays => exact arrays
        · cases isCompanion
  · cases isCompanion
    exact lefts

theorem cellAt (position : List Nat) {others : Companion}
    (othersLegible : CompanionIsLegible pending others) :
    (legible pending).Keeps (Option.IsLegible pending) (others.cellAt position) := by
  cases others with
  | whole left => exact Keeps.pure othersLegible
  | cells items =>
      exact Keeps.bind (Arrays.cellAt othersLegible position).keeps fun cell =>
        Keeps.pure (Option.isLegible_some cell)

theorem atRank (keeps : operation.KeepsLegible pending) (asked : Int) :
    Operation.KeepsLegible pending (operation.atRank asked) := by
  intro right left rights lefts
  rw [Operation.atRank]
  split
  · exact keeps rights lefts
  · refine Keeps.bind (Keeps.lift (companion lefts)) fun othersLegible => ?_
    refine Keeps.bind (Keeps.mapM (R := Value.IsLegible pending) fun position _ => ?_) ?_
    · refine Keeps.bind (rights.toArray.cellAt position).keeps fun cell => ?_
      exact Keeps.bind (cellAt position othersLegible) fun beside => keeps cell beside
    · intro results values
      have rows : Rows (legible pending).Values results.toArray results.toArray :=
        row fun value member => values value (by simpa using member)
      exact Keeps.bind (Arrays.merge rows .none _).keeps fun arrays => Keeps.pure (.array arrays)

theorem cells (keeps : operation.KeepsLegible pending) :
    Operation.KeepsLegible pending operation.cells := by
  intro right left rights lefts
  rw [Operation.cells]
  split
  · exact Keeps.refuse _
  · exact keeps.atRank (-1) rights lefts

/-! ### Folds and scans -/

theorem majorCells {items : ShapedArray} (arrays : items.IsLegible pending) :
    (legible pending).Keeps (fun cells => ∀ cell ∈ cells, cell.IsLegible pending)
      items.majorCells :=
  (Arrays.majorCells arrays).keeps.imp fun rows cell member =>
    List.forall₂_same.1 rows cell (Array.mem_toList_iff.2 member)

theorem fold (keeps : operation.KeepsLegible pending) :
    Operation.KeepsLegible pending operation.fold := by
  intro right left rights lefts
  cases rights with
  | number => exact Keeps.refuse _
  | character => exact Keeps.refuse _
  | function => exact Keeps.refuse _
  | array arrays =>
      refine Keeps.bind (majorCells arrays) fun {cells} cellsLegible => ?_
      have backward : ∀ cell ∈ cells.toList.reverse, cell.IsLegible pending := fun cell member =>
        cellsLegible cell (Array.mem_toList_iff.1 (List.mem_reverse.1 member))
      have step {total cell : Value} (totals : total.IsLegible pending)
          (cellLegible : cell.IsLegible pending) :
          (legible pending).Keeps (Value.IsLegible pending) (operation total (some cell)) :=
        keeps totals (Option.isLegible_some cellLegible)
      generalize cells.toList.reverse = reversed at backward
      dsimp only
      cases left with
      | some seed => exact Keeps.foldlM step backward (lefts seed rfl)
      | none =>
          cases reversed with
          | nil => exact Keeps.refuse _
          | cons last rest =>
              obtain ⟨lastLegible, restLegible⟩ := List.forall_mem_cons.1 backward
              exact Keeps.foldlM step restLegible lastLegible

/-- The results of a scan so far and the last of them. -/
def StateIsLegible (pending : Element → Prop) (state : Array Value × Option Value) : Prop :=
  (∀ value ∈ state.1, value.IsLegible pending) ∧ Option.IsLegible pending state.2

omit [(legible pending).Lawful] in
theorem scanStep (keeps : operation.KeepsLegible pending) {state : Array Value × Option Value}
    {cell : Value} (states : StateIsLegible pending state) (cellLegible : cell.IsLegible pending) :
    (legible pending).Keeps (StateIsLegible pending) (operation.scanStep state cell) := by
  obtain ⟨found, before⟩ := state
  obtain ⟨values, last⟩ := states
  have pushed {result : Value} (legible : result.IsLegible pending) :
      StateIsLegible pending (found.push result, some result) := by
    refine ⟨fun value member => ?_, Option.isLegible_some legible⟩
    rcases Array.mem_push.1 member with old | rfl
    · exact values value old
    · exact legible
  cases before with
  | none => exact Keeps.pure (pushed cellLegible)
  | some before =>
      exact Keeps.bind (keeps cellLegible last) fun result => Keeps.pure (pushed result)

theorem scan (keeps : operation.KeepsLegible pending) :
    Operation.KeepsLegible pending operation.scan := by
  intro right left rights lefts
  cases rights with
  | number => exact Keeps.refuse _
  | character => exact Keeps.refuse _
  | function => exact Keeps.refuse _
  | array arrays =>
      refine Keeps.bind (majorCells arrays) fun {cells} cellsLegible => ?_
      refine Keeps.bind (P := StateIsLegible pending) ?_ fun states => ?_
      · rw [← Array.foldlM_toList]
        exact Keeps.foldlM keeps.scanStep
          (fun cell member => cellsLegible cell (Array.mem_toList_iff.1 member)) ⟨nofun, lefts⟩
      · exact Keeps.bind (Arrays.mergeList (row states.1) arrays.fill).keeps fun merged =>
          Keeps.pure (.array merged)

end Operation.KeepsLegible

end PointFree
