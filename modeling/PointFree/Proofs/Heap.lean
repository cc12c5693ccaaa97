import PointFree.Proofs.Correspondence.Action
import PointFree.Routine.Execution

/-!
Contract: what the actions on frames and programs do.

Where an address leads to a slot, loading gives what the slot holds and saving
changes nothing but the slot. A heap may keep more than frames and programs; what
matters of it then is that its frames and programs are those of the machine, and
that what it keeps besides is in order.
-/

namespace PointFree

namespace Heap

variable {Code : Type}

/-- An address leads from a frame to a slot. -/
def Reaches (heap : Heap Code) (frame depth slot : Nat) : Prop :=
  ∃ owner content, heap.ancestor? frame depth = some owner ∧ heap.slot? owner slot = some content

/-- What loading from an address gives. -/
def reading (heap : Heap Code) (frame depth slot : Nat) : Outcome Value :=
  match heap.ancestor? frame depth with
  | none => refuse (.noFrame depth)
  | some owner =>
      match heap.slot? owner slot with
      | some (some value) => .ok value
      | _ => refuse (.unset depth slot)

/-- What saving at an address makes of the heap. -/
def writing (heap : Heap Code) (fresh : Bool) (frame depth slot : Nat) (value : Value) :
    Outcome (Heap Code) :=
  match heap.ancestor? frame depth with
  | none => refuse (.noFrame depth)
  | some owner =>
      match heap.slot? owner slot with
      | none => refuse (.slotOutsideFrame slot)
      | some content =>
          if !fresh && content.isNone then refuse (.updatedBeforeDefined depth slot)
          else .ok (heap.setSlot owner slot value)

variable {memory : Memory (Heap Code)} {calling : Call (Heap Code)}
variable {frame depth slot owner : Nat} {content : Option Value}

theorem ancestor_of_some (isOwner : memory.heap.ancestor? frame depth = some owner) :
    ancestor frame depth calling memory = (.ok owner, memory) := by
  rw [ancestor, isOwner]

theorem ancestor_of_none (missing : memory.heap.ancestor? frame depth = none) :
    ancestor frame depth calling memory = (refuse (.noFrame depth), memory) := by
  rw [ancestor, missing]

theorem load_eq (frame depth slot : Nat) :
    load frame depth slot calling memory = (memory.heap.reading frame depth slot, memory) := by
  rw [reading]
  cases isOwner : memory.heap.ancestor? frame depth with
  | none =>
      rw [load, Action.bind_of_error (ancestor_of_none isOwner)]
      rfl
  | some owner =>
      have second : (get : Action (Heap Code) _) calling memory = (.ok memory, memory) := rfl
      rw [load, Action.bind_of_ok (ancestor_of_some isOwner), Action.bind_of_ok second]
      dsimp only
      generalize memory.heap.slot? owner slot = content
      match content with
      | none | some none | some (some _) => rfl

theorem save_eq (fresh : Bool) (frame depth slot : Nat) (value : Value) :
    save fresh frame depth slot value calling memory =
      match memory.heap.writing fresh frame depth slot value with
      | .ok heap => (.ok (), { memory with heap := heap })
      | .error failure => (.error failure, memory) := by
  rw [writing]
  cases isOwner : memory.heap.ancestor? frame depth with
  | none =>
      rw [save, Action.bind_of_error (ancestor_of_none isOwner)]
      rfl
  | some owner =>
      have second : (get : Action (Heap Code) _) calling memory = (.ok memory, memory) := rfl
      rw [save, Action.bind_of_ok (ancestor_of_some isOwner), Action.bind_of_ok second]
      dsimp only
      generalize memory.heap.slot? owner slot = content
      match content, fresh with
      | none, true | none, false | some none, true | some none, false | some (some _), true
      | some (some _), false => rfl

theorem load_of_slot? (isOwner : memory.heap.ancestor? frame depth = some owner)
    (isSlot : memory.heap.slot? owner slot = some content) :
    load frame depth slot calling memory =
      (content.elim (refuse (.unset depth slot)) .ok, memory) := by
  rw [load_eq, reading, isOwner]
  dsimp only
  rw [isSlot]
  cases content with
  | none => rfl
  | some value => rfl

theorem save_of_slot? (fresh : Bool) {value : Value}
    (isOwner : memory.heap.ancestor? frame depth = some owner)
    (isSlot : memory.heap.slot? owner slot = some content) :
    save fresh frame depth slot value calling memory =
      if !fresh && content.isNone then (refuse (.updatedBeforeDefined depth slot), memory)
      else (.ok (), { memory with heap := memory.heap.setSlot owner slot value }) := by
  rw [save_eq, writing, isOwner]
  dsimp only
  rw [isSlot]
  cases content with
  | none =>
      cases fresh with
      | true => rfl
      | false => rfl
  | some value =>
      cases fresh with
      | true => rfl
      | false => rfl

theorem eq_setSlot_of_writing {heap written : Heap Code} {fresh : Bool} {value : Value}
    (writes : heap.writing fresh frame depth slot value = .ok written) :
    ∃ owner, written = heap.setSlot owner slot value := by
  rw [writing] at writes
  split at writes
  · cases writes
  · next owner _ =>
      split at writes
      · cases writes
      · split at writes
        · cases writes
        · cases writes
          exact ⟨owner, rfl⟩

theorem routine_of_getElem? {memory : Store} {calling : Call (Heap (List Routine))}
    {program block : Nat} {routines : List Routine} {found : Routine}
    (isProgram : memory.heap.programs[program]? = some routines)
    (isRoutine : routines[block]? = some found) :
    routine program block calling memory = (.ok found, memory) := by
  have first : (get : Run _) calling memory = (.ok memory, memory) := rfl
  rw [routine, Action.bind_of_ok first, isProgram, Option.bind_some, isRoutine]
  rfl

theorem routine_of_missing {memory : Store} {calling : Call (Heap (List Routine))}
    {program block : Nat} {routines : List Routine}
    (isProgram : memory.heap.programs[program]? = some routines)
    (missing : routines[block]? = none) :
    routine program block calling memory = (refuse .released, memory) := by
  have first : (get : Run _) calling memory = (.ok memory, memory) := rfl
  rw [routine, Action.bind_of_ok first, isProgram, Option.bind_some, missing]
  rfl

/-! Frames are reached without calls. -/

theorem load_calling (frame depth slot : Nat) (calling calling' : Call (Heap Code))
    (memory : Memory (Heap Code)) :
    load frame depth slot calling memory = load frame depth slot calling' memory := by
  rw [load_eq, load_eq]

theorem save_calling (fresh : Bool) (frame depth slot : Nat) (value : Value)
    (calling calling' : Call (Heap Code)) (memory : Memory (Heap Code)) :
    save fresh frame depth slot value calling memory =
      save fresh frame depth slot value calling' memory := by
  rw [save_eq, save_eq]

theorem routine_calling (program block : Nat) (calling calling' : Call (Heap (List Routine)))
    (memory : Store) :
    routine program block calling memory = routine program block calling' memory := by
  have next (calling : Call (Heap (List Routine))) :
      (get : Run _) calling memory = (.ok memory, memory) := rfl
  rw [routine, Action.bind_of_ok (next calling), Action.bind_of_ok (next calling')]
  cases memory.heap.programs[program]?.bind fun found => found[block]? with
  | none => rfl
  | some found => rfl

theorem routine_leaves (program block : Nat) (calling : Call (Heap (List Routine)))
    (memory : Store) : (routine program block calling memory).2 = memory := by
  have first : (get : Run _) calling memory = (.ok memory, memory) := rfl
  rw [routine, Action.bind_of_ok first]
  cases memory.heap.programs[program]?.bind fun found => found[block]? with
  | none => rfl
  | some found => rfl

end Heap

def Memory.map {H K : Type} (change : H → K) (memory : Memory H) : Memory K :=
  ⟨change memory.heap, memory.nextStamp, memory.depth⟩

/-- The end of an evaluation, with what is left of its memory. -/
def Memory.leaving {H K α : Type} (change : H → K) (ended : Outcome α × Memory H) :
    Outcome α × Memory K :=
  (ended.1, ended.2.map change)

/-- A heap that keeps frames and programs as the machine does, and perhaps more. -/
class Framed (H : Type) [Activations H] [Installed H] where
  /-- The frames and programs alone. -/
  core : H → Heap (List Routine)
  /-- What is kept besides is in order. -/
  IsTidy : H → Prop
  newFrame_core (slots : Array (Option Value)) (parent : Option Nat) (calling : Call H)
    (calling' : Call (Heap (List Routine))) (memory : Memory H) :
    Memory.leaving core (Activations.newFrame slots parent calling memory) =
      Heap.newFrame slots parent calling' (memory.map core)
  load_core (frame depth slot : Nat) (calling : Call H)
    (calling' : Call (Heap (List Routine))) (memory : Memory H) :
    Memory.leaving core (Activations.load frame depth slot calling memory) =
      Heap.load frame depth slot calling' (memory.map core)
  save_core (fresh : Bool) (frame depth slot : Nat) (value : Value) (calling : Call H)
    (calling' : Call (Heap (List Routine))) (memory : Memory H) :
    Memory.leaving core (Activations.save fresh frame depth slot value calling memory) =
      Heap.save fresh frame depth slot value calling' (memory.map core)
  install_core (program : List Routine) (calling : Call H)
    (calling' : Call (Heap (List Routine))) (memory : Memory H) :
    Memory.leaving core (Installed.install program calling memory) =
      Heap.install program calling' (memory.map core)
  routine_core (program block : Nat) (calling : Call H)
    (calling' : Call (Heap (List Routine))) (memory : Memory H) :
    Memory.leaving core (Installed.routine program block calling memory) =
      Heap.routine program block calling' (memory.map core)
  newFrame_tidy {slots : Array (Option Value)} {parent : Option Nat} {calling : Call H}
    {memory : Memory H} :
    IsTidy memory.heap → IsTidy (Activations.newFrame slots parent calling memory).2.heap
  load_tidy {frame depth slot : Nat} {calling : Call H} {memory : Memory H} :
    IsTidy memory.heap → (core memory.heap).Reaches frame depth slot →
      IsTidy (Activations.load frame depth slot calling memory).2.heap
  save_tidy {fresh : Bool} {frame depth slot : Nat} {value : Value} {calling : Call H}
    {memory : Memory H} :
    IsTidy memory.heap → (core memory.heap).Reaches frame depth slot →
      IsTidy (Activations.save fresh frame depth slot value calling memory).2.heap
  install_tidy {program : List Routine} {calling : Call H} {memory : Memory H} :
    IsTidy memory.heap → IsTidy (Installed.install program calling memory).2.heap
  routine_tidy {program block : Nat} {calling : Call H} {memory : Memory H} :
    IsTidy memory.heap → IsTidy (Installed.routine program block calling memory).2.heap

instance : Framed (Heap (List Routine)) where
  core := id
  IsTidy _ := True
  newFrame_core _ _ _ _ _ := rfl
  load_core := Heap.load_calling
  save_core := Heap.save_calling
  install_core _ _ _ _ := rfl
  routine_core := Heap.routine_calling
  newFrame_tidy _ := trivial
  load_tidy _ _ := trivial
  save_tidy _ _ := trivial
  install_tidy _ := trivial
  routine_tidy _ := trivial

namespace Framed

variable {H : Type} [Activations H] [Installed H] [Framed H] {calling : Call H}
variable {memory : Memory H} {frame depth slot owner : Nat} {content : Option Value}

/-- No call is made where this stands. -/
def idle : Call (Heap (List Routine)) :=
  fun _ right _ memory => (.ok right, memory)

theorem newFrame_eq (slots : Array (Option Value)) (parent : Option Nat) :
    Memory.leaving core (Activations.newFrame slots parent calling memory) =
      (.ok (core memory.heap).frames.size, { memory.map core with
        heap.frames := (core memory.heap).frames.push ⟨slots, parent⟩ }) :=
  newFrame_core slots parent calling idle memory

theorem install_eq (program : List Routine) :
    Memory.leaving core (Installed.install program calling memory) =
      (.ok (core memory.heap).programs.size, { memory.map core with
        heap.programs := (core memory.heap).programs.push program }) :=
  install_core program calling idle memory

theorem load_of_slot? (isOwner : (core memory.heap).ancestor? frame depth = some owner)
    (isSlot : (core memory.heap).slot? owner slot = some content) :
    Memory.leaving core (Activations.load frame depth slot calling memory) =
      (content.elim (refuse (.unset depth slot)) .ok, memory.map core) :=
  (load_core frame depth slot calling idle memory).trans (Heap.load_of_slot? isOwner isSlot)

theorem save_of_slot? (fresh : Bool) {value : Value}
    (isOwner : (core memory.heap).ancestor? frame depth = some owner)
    (isSlot : (core memory.heap).slot? owner slot = some content) :
    Memory.leaving core (Activations.save fresh frame depth slot value calling memory) =
      if !fresh && content.isNone then
        (refuse (.updatedBeforeDefined depth slot), memory.map core)
      else (.ok (), { memory.map core with
        heap := (core memory.heap).setSlot owner slot value }) :=
  (save_core fresh frame depth slot value calling idle memory).trans
    (Heap.save_of_slot? fresh isOwner isSlot)

theorem routine_of_getElem? {program block : Nat} {routines : List Routine} {found : Routine}
    (isProgram : (core memory.heap).programs[program]? = some routines)
    (isRoutine : routines[block]? = some found) :
    Memory.leaving core (Installed.routine program block calling memory) =
      (.ok found, memory.map core) :=
  (routine_core program block calling idle memory).trans
    (Heap.routine_of_getElem? isProgram isRoutine)

end Framed

theorem Installed.enter_eq {H : Type} [Activations H] [Installed H] (program block frame : Nat)
    (this : Function) (right : Value) (left : Option Value) :
    (Blocks.enter program block frame this right left : Action H Value) = (do
      let routine ← Installed.routine program block
      routine.invoke program frame this right left) :=
  rfl

end PointFree
