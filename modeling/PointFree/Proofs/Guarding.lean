import PointFree.Proofs.Addressing
import PointFree.Proofs.Guarding.Loading

/-!
Contract: any code is safe to load and to run.

A watched heap notes every access to a variable and every entry into a block, with how each
ended. Whatever the words of the programs are that have been loaded, and whatever values a
run is given, each access is to a slot that is there or is refused, and each routine that is
entered returns and makes functions of later blocks alone. What is refused is a fault of
running.
-/

namespace PointFree

/-- What a run asks of its heap, with how it ended. -/
inductive Event where
  | access (found : Access) (ended : Outcome Unit)
  | entry (block : Nat) (found : Outcome Routine)

/-- Either the access was to a slot that is there and the routine is a guarded one, or the
event is a fault of running. -/
def Event.IsGuarded : Event → Prop
  | .access found ended => ended.Secures fun _ => found.IsValid
  | .entry block found =>
      found.Secures fun routine => routine.index = block ∧ ∃ count, routine.IsGuarded count

structure Watched where
  heap : Heap (List Routine)
  events : List Event

/-- All programs that have been started are made of guarded routines. -/
def Heap.IsGuarded (heap : Heap (List Routine)) : Prop :=
  ∀ routines ∈ heap.programs, Routine.AreGuarded routines

namespace Watched

def start (heap : Heap (List Routine)) : Watched :=
  ⟨heap, []⟩

/-- An action on the frames, of whose end events are noted. -/
def noting {α : Type} (note : Heap (List Routine) → Outcome α → List Event) (action : Run α) :
    Action Watched α :=
  fun _ memory =>
    let ended := action Framed.idle (memory.map heap)
    Memory.leaving (⟨·, note memory.heap.heap ended.1 ++ memory.heap.events⟩) ended

def nothing {α : Type} (_ : Heap (List Routine)) (_ : Outcome α) : List Event :=
  []

def noteAccess {α : Type} (frame depth slot : Nat) (heap : Heap (List Routine))
    (ended : Outcome α) : List Event :=
  [.access ⟨depth, slot, heap.slotCount? frame depth⟩ (ended.map fun _ => ())]

def noteEntry (block : Nat) (_ : Heap (List Routine)) (ended : Outcome Routine) : List Event :=
  [.entry block ended]

instance : Activations Watched where
  newFrame slots parent := noting nothing (Heap.newFrame slots parent)
  load frame depth slot := noting (noteAccess frame depth slot) (Heap.load frame depth slot)
  save fresh frame depth slot value :=
    noting (noteAccess frame depth slot) (Heap.save fresh frame depth slot value)

instance : Installed Watched where
  install program := noting nothing (Heap.install program)
  routine program block := noting (noteEntry block) (Heap.routine program block)

instance : Framed Watched where
  core := heap
  IsTidy _ := True
  newFrame_core _ _ _ _ _ := rfl
  load_core frame depth slot _ calling memory :=
    Heap.load_calling frame depth slot Framed.idle calling (memory.map heap)
  save_core fresh frame depth slot value _ calling memory :=
    Heap.save_calling fresh frame depth slot value Framed.idle calling (memory.map heap)
  install_core _ _ _ _ := rfl
  routine_core program block _ calling memory :=
    Heap.routine_calling program block Framed.idle calling (memory.map heap)
  newFrame_tidy _ := trivial
  load_tidy _ _ := trivial
  save_tidy _ _ := trivial
  install_tidy _ := trivial
  routine_tidy _ := trivial

end Watched

/-! ### Actions -/

section Actions

variable {heap : Heap (List Routine)} {frame depth slot : Nat}

theorem Heap.reading_secures (heap : Heap (List Routine)) (frame depth slot : Nat) :
    (heap.reading frame depth slot).Secures fun _ => heap.Reaches frame depth slot := by
  rw [Heap.reading]
  split
  · exact rfl
  · next owner isOwner =>
      split
      · next value isSlot => exact ⟨owner, some value, isOwner, isSlot⟩
      · exact rfl

theorem Heap.writing_secures (heap : Heap (List Routine)) (fresh : Bool)
    (frame depth slot : Nat) (value : Value) :
    (heap.writing fresh frame depth slot value).Secures fun _ =>
      heap.Reaches frame depth slot := by
  rw [Heap.writing]
  split
  · exact rfl
  · next owner isOwner =>
      split
      · exact rfl
      · next content isSlot =>
          split
          · exact rfl
          · exact ⟨owner, content, isOwner, isSlot⟩

theorem Heap.routine_secures (program block : Nat) (calling : Call (Heap (List Routine)))
    {memory : Store} (guarded : memory.heap.IsGuarded) :
    Outcome.Secures (fun routine => routine.index = block ∧ ∃ count, routine.IsGuarded count)
      (Heap.routine program block calling memory).1 := by
  have first : (get : Run _) calling memory = (.ok memory, memory) := rfl
  rw [Heap.routine, Action.bind_of_ok first]
  cases found : memory.heap.programs[program]?.bind fun found => found[block]? with
  | none => exact rfl
  | some routine =>
      obtain ⟨routines, isProgram, isRoutine⟩ := Option.bind_eq_some_iff.1 found
      have here := guarded routines (Array.mem_of_getElem? isProgram) block routine isRoutine
      exact ⟨here.1, _, here.2⟩

theorem Event.access_isGuarded {α : Type} {ended : Outcome α}
    (secures : ended.Secures fun _ => heap.Reaches frame depth slot) :
    ∀ event ∈ Watched.noteAccess frame depth slot heap ended, event.IsGuarded :=
  List.forall_mem_singleton.2 <| secures.map fun _ reaches =>
    Audited.noted_isValid reaches _ (.head _)

end Actions

namespace Watched

/-- Guarded programs, and nothing noted of them but what is as it should be. -/
structure IsGuarded (watched : Watched) : Prop where
  programs : watched.heap.IsGuarded
  events : ∀ event ∈ watched.events, event.IsGuarded

/-- One memory on both sides, which is guarded. -/
def Guarding (memory memory' : Memory Watched) : Prop :=
  memory = memory' ∧ memory.heap.IsGuarded

theorem alongside_noting {α : Type} {note : Heap (List Routine) → Outcome α → List Event}
    {action : Run α}
    (keeps : ∀ memory : Store, memory.heap.IsGuarded →
      (action Framed.idle memory).2.heap.IsGuarded)
    (notes : ∀ memory : Store, memory.heap.IsGuarded →
      ∀ event ∈ note memory.heap (action Framed.idle memory).1, event.IsGuarded) :
    Alongside Guarding (noting note action) (noting note action) := by
  rintro calling calling' memory _ ⟨rfl, guarded⟩
  refine ⟨rfl, rfl, keeps _ guarded.programs, fun event member => ?_⟩
  obtain isNew | isOld := List.mem_append.1 member
  · exact notes (memory.map heap) guarded.programs event isNew
  · exact guarded.events event isOld

/-- What a run does keeps a memory guarded, where the programs that are started are. -/
theorem tandem : Tandem Guarding Routine.AreGuarded where
  stamps same := congrArg Memory.nextStamp same.1
  fresh := by
    rintro memory _ ⟨rfl, guarded⟩
    exact ⟨rfl, guarded⟩
  depth same := congrArg Memory.depth same.1
  redepth change := by
    rintro ⟨rfl, guarded⟩
    exact ⟨rfl, guarded⟩
  newFrame slots parent := alongside_noting (fun _ => id) fun _ _ => List.forall_mem_nil _
  load frame depth slot := by
    refine alongside_noting ?_ ?_
    · intro memory guarded
      rw [Heap.load_eq]
      exact guarded
    · intro memory _
      rw [Heap.load_eq]
      exact Event.access_isGuarded (memory.heap.reading_secures frame depth slot)
  save fresh frame depth slot value := by
    refine alongside_noting ?_ ?_
    · intro memory guarded
      rw [Heap.save_eq]
      cases written : memory.heap.writing fresh frame depth slot value with
      | error failure => exact guarded
      | ok heap =>
          obtain ⟨owner, rfl⟩ := Heap.eq_setSlot_of_writing written
          exact guarded
    · intro memory _
      have secures := memory.heap.writing_secures fresh frame depth slot value
      rw [Heap.save_eq]
      cases written : memory.heap.writing fresh frame depth slot value with
      | error failure =>
          rw [written] at secures
          exact List.forall_mem_singleton.2 secures
      | ok heap =>
          rw [written] at secures
          exact Event.access_isGuarded (show Outcome.Secures _ (.ok ()) from secures)
  install {program} admitted := by
    refine alongside_noting (fun memory guarded => ?_) fun _ _ => List.forall_mem_nil _
    intro routines member
    obtain isOld | isNew := Array.mem_push.1 member
    · exact guarded routines isOld
    · rw [isNew]
      exact admitted
  routine program block := by
    refine alongside_noting ?_ ?_
    · intro memory guarded
      rw [Heap.routine_leaves]
      exact guarded
    · intro memory guarded
      exact List.forall_mem_singleton.2 (Heap.routine_secures program block Framed.idle guarded)

end Watched

/-! ### Refusals -/

/-- Ends in a fault of running and leaves the memory as it was. -/
def Refuses {H α : Type} (ended : Outcome α × Memory H) (memory : Memory H) : Prop :=
  ∃ failure, ended = (.error failure, memory) ∧ failure.kind = .runtime

theorem Outcome.Secures.fails {α : Type} {wanted : Prop} {outcome : Outcome α}
    (secures : outcome.Secures fun _ => wanted) (never : ¬wanted) :
    ∃ failure, outcome = .error failure ∧ failure.kind = .runtime := by
  cases outcome with
  | ok result => exact absurd secures never
  | error failure => exact ⟨failure, rfl, secures⟩

end PointFree
