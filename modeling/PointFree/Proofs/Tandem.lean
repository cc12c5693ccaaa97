import PointFree.Machine
import PointFree.Proofs.Correspondence.Identity
import PointFree.Proofs.Correspondence.Routine
import PointFree.Proofs.Heap

/-!
Contract: memories that a run keeps in a relation, and what it leaves of the memory it found.

Where every action on frames and programs gives the same at two related memories and
leaves them related, so does every run. The heaps may be of different kinds. They may
also be one heap: then what is related is one memory with itself, and the relation is an
invariant of runs.

What a heap keeps besides its frames changes no run: on a heap that keeps more than frames
and programs a machine ends as it does on the frames and programs alone, with the same value
or failure, and with the same frames.

A run takes nothing away: programs that have been started stay, frames stay where they are
and around the same frames, and a slot that is set stays set.
-/

namespace PointFree

open Correspondence

variable {H K : Type} {α : Type}

/-- The actions give the same at related memories and leave related memories. -/
def Alongside (related : Memory H → Memory K → Prop) (action : Action H α)
    (action' : Action K α) : Prop :=
  ∀ (calling : Call H) (calling' : Call K) ⦃memory : Memory H⦄ ⦃memory' : Memory K⦄,
    related memory memory' →
      (action calling memory).1 = (action' calling' memory').1 ∧
        related (action calling memory).2 (action' calling' memory').2

variable [Activations H] [Activations K] [Installed H] [Installed K]

/-- A relation that is kept by whatever a run does with its memory, as long as only programs
are started that it admits. -/
structure Tandem (related : Memory H → Memory K → Prop)
    (admits : List Routine → Prop := fun _ => True) : Prop where
  stamps {memory : Memory H} {memory' : Memory K} :
    related memory memory' → memory.nextStamp = memory'.nextStamp
  fresh {memory : Memory H} {memory' : Memory K} : related memory memory' →
    related { memory with nextStamp := memory.nextStamp + 1 }
      { memory' with nextStamp := memory'.nextStamp + 1 }
  depth {memory : Memory H} {memory' : Memory K} :
    related memory memory' → memory.depth = memory'.depth
  redepth {memory : Memory H} {memory' : Memory K} (change : Nat → Nat) :
    related memory memory' →
    related { memory with depth := change memory.depth }
      { memory' with depth := change memory'.depth }
  newFrame (slots : Array (Option Value)) (parent : Option Nat) :
    Alongside related (Activations.newFrame slots parent) (Activations.newFrame slots parent)
  load (frame depth slot : Nat) :
    Alongside related (Activations.load frame depth slot) (Activations.load frame depth slot)
  save (fresh : Bool) (frame depth slot : Nat) (value : Value) :
    Alongside related (Activations.save fresh frame depth slot value)
      (Activations.save fresh frame depth slot value)
  install {program : List Routine} : admits program →
    Alongside related (Installed.install program) (Installed.install program)
  routine (program block : Nat) :
    Alongside related (Installed.routine program block) (Installed.routine program block)

namespace Tandem

variable {related : Memory H → Memory K → Prop} {admits : List Routine → Prop}
variable (tandem : Tandem related admits)

/-- The two evaluations as a correspondence, in which only what is the same corresponds. -/
def correspondence : Correspondence H K :=
  .identity { pending := True } (fun _ => related) fun memories =>
    ⟨tandem.stamps memories, tandem.fresh memories⟩

theorem identifies : tandem.correspondence.Identifies :=
  identifies_identity

/-! ### Steps -/

theorem actions_of_alongside {A : Unit → α → α → Prop} (refl : ∀ result, A () result result)
    {action : Action H α} {action' : Action K α} (alongside : Alongside related action action') :
    tandem.correspondence.Actions () A action action' := by
  intro _ _ calling calling' _ memory memory' memories
  obtain ⟨same, kept⟩ := alongside calling calling' memories
  refine .inr ⟨(), trivial, kept, ?_⟩
  rw [← same]
  show tandem.correspondence.Outcomes (A ()) (action calling memory).1 (action calling memory).1
  generalize (action calling memory).1 = outcome
  cases outcome with
  | ok result => exact .ok (refl result)
  | error failure => exact .error ⟨rfl, rfl, trivial⟩

instance : Framing tandem.correspondence where
  load frame depth slot :=
    tandem.actions_of_alongside (Values.refl tandem.identifies trivial)
      (tandem.load frame depth slot)
  save fresh frame depth slot := by
    intro value value' values
    cases values.eq tandem.identifies
    exact tandem.actions_of_alongside (fun _ => rfl) (tandem.save fresh frame depth slot value)
  newFrame parent := by
    intro slots slots' rows
    cases rows.eq fun options => Options.eq (Values.eq tandem.identifies) options
    exact tandem.actions_of_alongside (fun _ => rfl) (tandem.newFrame slots parent)

instance : Counting tandem.correspondence where
  depth := tandem.depth
  redepth := tandem.redepth

/-! ### Runs -/

theorem execute (block program frame : Nat) (routine : Routine) :
    tandem.correspondence.Actions () tandem.correspondence.Values
      (Step.execute block program frame routine.steps)
      (Step.execute block program frame routine.steps) :=
  Actions.steps trivial block (Framing.abreast frame)
    (fun _ => tandem.identifies.blocks.2 ⟨rfl, rfl, rfl⟩)
    (Routine.AllConstants.of_forall (Values.refl tandem.identifies trivial) routine)

theorem enters : Enters tandem.correspondence := by
  intro W stamp stamp' program block frame program' block' frame' same blocks _ _ right right' left
    left' rights lefts
  cases same
  obtain ⟨rfl, rfl, rfl⟩ := blocks
  have routines := tandem.actions_of_alongside (A := tandem.correspondence.Same) (fun _ => rfl)
    (tandem.routine program block)
  rw [Installed.enter_eq, Installed.enter_eq]
  refine Actions.bind routines fun _ routine _ same => ?_
  cases same
  have functions := Functions.refl (c := tandem.correspondence) (W := ()) tandem.identifies trivial
    (.mk stamp (.block program block frame))
  have slots := Rows.slots routine functions rights lefts
  refine Actions.nested routine.limit (Actions.bind (Framing.newFrame _ slots) ?_)
  intro _ _ inner _ same
  cases same
  exact tandem.execute routine.index program inner routine

theorem run {machine : Machine} (admitted : admits (machine.top :: machine.others))
    (globals : Array Value) :
    tandem.correspondence.Actions ()
      (Pairs tandem.correspondence.Values tandem.correspondence.Same)
      (machine.run globals) (machine.run globals) := by
  rw [Machine.run, Machine.run]
  split
  · exact Actions.refuse rfl
  · have installs := tandem.actions_of_alongside (A := tandem.correspondence.Same) (fun _ => rfl)
      (tandem.install admitted)
    refine Actions.bind installs fun _ program _ same => ?_
    cases same
    have known : Rows tandem.correspondence.Values () globals globals :=
      Lists.refl_of _ fun value _ => Values.refl tandem.identifies trivial value
    have slots := Rows.topSlots machine.top.frameSize known
    refine Actions.bind (Framing.newFrame none slots) fun _ frame _ same => ?_
    cases same
    refine Actions.bind (tandem.execute machine.top.index program frame machine.top) ?_
    exact fun _ _ _ values => Actions.pure ⟨values, rfl⟩

/-! ### Evaluations that have ended -/

/-- What goes the same way ends the same, with all its calls. -/
theorem perform {A : Unit → α → α → Prop} (same : ∀ {result result'}, A () result result' →
    result = result') {action : Action H α} {action' : Action K α}
    (actions : tandem.correspondence.Actions () A action action') {memory : Memory H}
    {memory' : Memory K} (memories : related memory memory') :
    (action.perform memory).1 = (action'.perform memory').1 ∧
      related (action.perform memory).2 (action'.perform memory').2 := by
  obtain ⟨_, _, kept, outcomes⟩ :=
    (Actions.perform tandem.enters actions (W := ()) memories).meets
  exact ⟨outcomes.eq tandem.identifies same, kept⟩

include tandem in
theorem perform_run {machine : Machine} (admitted : admits (machine.top :: machine.others))
    (globals : Array Value) {memory : Memory H} {memory' : Memory K}
    (memories : related memory memory') :
    ((machine.run globals).perform memory).1 = ((machine.run globals).perform memory').1 ∧
      related ((machine.run globals).perform memory).2
        ((machine.run globals).perform memory').2 :=
  tandem.perform (fun pairs => Prod.ext (pairs.1.eq tandem.identifies) pairs.2)
    (tandem.run admitted globals) memories

end Tandem

/-! ### Heaps that keep more than frames -/

section Framed

variable [Framed H]

namespace Erasure

/-- What an action does with the frames is what it does on the frames alone. -/
theorem alongside_of_core {α : Type} {action : Action H α} {action' : Run α}
    (erases : ∀ calling calling' memory, Memory.leaving Framed.core (action calling memory) =
      action' calling' (memory.map Framed.core)) :
    Alongside (fun memory memory' => memory.map Framed.core = memory') action action' := by
  rintro calling calling' memory _ rfl
  have ended := erases calling calling' memory
  exact ⟨congrArg Prod.fst ended, congrArg Prod.snd ended⟩

/-- A heap that keeps frames goes along with its frames alone. -/
theorem tandem : Tandem fun (memory : Memory H) (memory' : Store) =>
    memory.map Framed.core = memory' where
  stamps same := congrArg Memory.nextStamp same
  fresh same := by
    cases same
    rfl
  depth same := congrArg Memory.depth same
  redepth _ same := by
    cases same
    rfl
  newFrame slots parent := alongside_of_core (Framed.newFrame_core slots parent)
  load frame depth slot := alongside_of_core (Framed.load_core frame depth slot)
  save fresh frame depth slot value :=
    alongside_of_core (Framed.save_core fresh frame depth slot value)
  install {program} _ := alongside_of_core (Framed.install_core program)
  routine program block := alongside_of_core (Framed.routine_core program block)

end Erasure

/-- A machine ends on any heap that keeps frames as it ends on the frames alone. -/
theorem Machine.leaving_run (machine : Machine) (globals : Array Value) (memory : Memory H) :
    Memory.leaving Framed.core ((machine.run globals).perform memory) =
      (machine.run globals).perform (memory.map Framed.core) :=
  have ended := Erasure.tandem.perform_run trivial globals
    (Eq.refl (memory.map Framed.core))
  Prod.ext ended.1 ended.2

end Framed

end PointFree

namespace PointFree

/-- The later memory has all that the earlier one had, perhaps with other values. -/
structure Store.Grows (before after : Store) : Prop where
  stamps : before.nextStamp ≤ after.nextStamp
  programs {index : Nat} {program : List Routine} :
    before.heap.programs[index]? = some program → after.heap.programs[index]? = some program
  frames : before.heap.frames.size ≤ after.heap.frames.size
  slots {frame slot : Nat} {value : Value} :
    before.value? frame slot = some value → ∃ later, after.value? frame slot = some later

namespace Store.Grows

variable {before between after : Store}

theorem refl (memory : Store) : memory.Grows memory :=
  ⟨Nat.le_refl _, id, Nat.le_refl _, fun isSet => ⟨_, isSet⟩⟩

theorem trans (first : before.Grows between) (second : between.Grows after) :
    before.Grows after where
  stamps := Nat.le_trans first.stamps second.stamps
  programs isProgram := second.programs (first.programs isProgram)
  frames := Nat.le_trans first.frames second.frames
  slots isSet := by
    obtain ⟨later, isLater⟩ := first.slots isSet
    exact second.slots isLater

/-! ### Steps -/

theorem of_heap (grows : before.Grows after) {later : Store} (heap : later.heap = after.heap)
    (stamps : after.nextStamp ≤ later.nextStamp) : before.Grows later := by
  obtain ⟨heap', stamp, depth⟩ := later
  cases heap
  exact { grows with stamps := Nat.le_trans grows.stamps stamps }

theorem value?_push (memory : Store) (added : Frame) {frame : Nat} (slot : Nat)
    (old : frame < memory.heap.frames.size) :
    Store.value? { memory with heap.frames := memory.heap.frames.push added } frame slot =
      memory.value? frame slot := by
  rw [value?, value?, Heap.slot?, Heap.slot?, Array.getElem?_push_lt old,
    Array.getElem?_eq_getElem old]

theorem lt_of_value? {memory : Store} {frame slot : Nat} {value : Value}
    (isSet : memory.value? frame slot = some value) : frame < memory.heap.frames.size := by
  obtain ⟨found, isFrame, _⟩ := Option.bind_eq_some_iff.1 (Option.join_eq_some_iff.1 isSet)
  exact (Array.getElem?_eq_some_iff.1 isFrame).1

theorem push (memory : Store) (added : Frame) :
    memory.Grows { memory with heap.frames := memory.heap.frames.push added } where
  stamps := Nat.le_refl _
  programs := id
  frames := by simp
  slots isSet := ⟨_, (value?_push memory added _ (lt_of_value? isSet)).trans isSet⟩

theorem setSlot (memory : Store) (owner place : Nat) (content : Value) :
    memory.Grows { memory with heap := memory.heap.setSlot owner place content } where
  stamps := Nat.le_refl _
  programs := id
  frames := by simp [Heap.setSlot]
  slots := by
    intro frame slot value isSet
    obtain ⟨found, isFrame, isSlot⟩ := Option.bind_eq_some_iff.1 (Option.join_eq_some_iff.1 isSet)
    rw [value?, Heap.slot?, Heap.setSlot, Array.getElem?_modify, isFrame]
    split
    · rw [Option.map_some, Option.bind_some, Array.getElem?_setIfInBounds]
      split
      · next same =>
          have inside := (Array.getElem?_eq_some_iff.1 isSlot).1
          exact ⟨content, by rw [if_pos (same ▸ inside)]; rfl⟩
      · exact ⟨value, by rw [isSlot]; rfl⟩
    · exact ⟨value, by rw [Option.bind_some, isSlot]; rfl⟩

theorem install (memory : Store) (program : List Routine) :
    memory.Grows { memory with heap.programs := memory.heap.programs.push program } where
  stamps := Nat.le_refl _
  programs isProgram := by
    have inside := (Array.getElem?_eq_some_iff.1 isProgram).1
    rw [Array.getElem?_push_lt inside, ← Array.getElem?_eq_getElem inside]
    exact isProgram
  frames := Nat.le_refl _
  slots isSet := ⟨_, isSet⟩

end Store.Grows

/-! ### Runs -/

/-- One memory on both sides, which has grown from where the run began. -/
def Store.Since (origin memory memory' : Store) : Prop :=
  memory = memory' ∧ origin.Grows memory

namespace Store.Since

variable {origin : Store} {α : Type}

/-- An action does the same whatever calls it is given, and its memory has grown. -/
theorem alongside {action : Run α}
    (alone : ∀ calling calling' memory, action calling memory = action calling' memory)
    (grows : ∀ calling memory, Store.Grows memory (action calling memory).2) :
    Alongside origin.Since action action := by
  rintro calling calling' memory _ ⟨rfl, since⟩
  rw [alone calling calling']
  exact ⟨rfl, rfl, since.trans (grows calling' memory)⟩

theorem tandem (origin : Store) : Tandem origin.Since where
  stamps since := congrArg Memory.nextStamp since.1
  fresh := by
    rintro memory _ ⟨rfl, grows⟩
    exact ⟨rfl, grows.of_heap rfl (Nat.le_succ _)⟩
  depth since := congrArg Memory.depth since.1
  redepth change := by
    rintro ⟨rfl, grows⟩
    exact ⟨rfl, grows.of_heap rfl (Nat.le_refl _)⟩
  newFrame slots parent :=
    alongside (fun _ _ _ => rfl) fun _ memory => Grows.push memory ⟨slots, parent⟩
  load frame depth slot := alongside (Heap.load_calling frame depth slot) fun calling memory => by
    show Store.Grows memory (Heap.load frame depth slot calling memory).2
    rw [Heap.load_eq]
    exact Grows.refl memory
  save fresh frame depth slot value :=
    alongside (Heap.save_calling fresh frame depth slot value) fun calling memory => by
      show Store.Grows memory (Heap.save fresh frame depth slot value calling memory).2
      rw [Heap.save_eq]
      cases written : memory.heap.writing fresh frame depth slot value with
      | error failure => exact Grows.refl memory
      | ok heap =>
          obtain ⟨owner, rfl⟩ := Heap.eq_setSlot_of_writing written
          exact Grows.setSlot memory owner slot value
  install {program} _ :=
    alongside (fun _ _ _ => rfl) fun _ memory => Grows.install memory program
  routine program block := alongside (Heap.routine_calling program block) fun calling memory => by
    show Store.Grows memory (Heap.routine program block calling memory).2
    rw [Heap.routine_leaves]
    exact Grows.refl memory

end Store.Since

/-- The memory in which the top level of a machine begins. -/
def Machine.started (machine : Machine) (globals : Array Value) (memory : Store) : Store :=
  { memory with
    heap := ⟨memory.heap.frames.push ⟨topSlots machine.top.frameSize globals, none⟩,
      memory.heap.programs.push (machine.top :: machine.others)⟩ }

section Machines

variable {machine : Machine} {globals : Array Value} {memory : Store}

/-- A run takes the next frame and the next place for a program. -/
theorem Machine.perform_run (count : globals.size = machine.externals) (memory : Store) :
    (machine.run globals).perform memory =
      Prod.map (Except.map (·, memory.heap.frames.size)) id
        ((machine.top.run memory.heap.programs.size memory.heap.frames.size).perform
          (machine.started globals memory)) := by
  rw [Machine.run, if_neg (not_not_intro count)]
  have installed : Installed.install (machine.top :: machine.others) (callAt callBudget) memory =
      (.ok memory.heap.programs.size, _) := rfl
  refine (Action.bind_of_ok installed).trans ?_
  have entered (later : Store) :
      Activations.newFrame (topSlots machine.top.frameSize globals) none (callAt callBudget) later =
        (.ok later.heap.frames.size, _) := rfl
  refine (Action.bind_of_ok (entered _)).trans ?_
  rcases ended : (machine.top.run memory.heap.programs.size memory.heap.frames.size).perform
    (machine.started globals memory) with ⟨failure | value, after⟩
  · exact Action.bind_of_error ended
  · exact Action.bind_of_ok ended

theorem Routine.grows_run (routine : Routine) (program frame : Nat) (memory : Store) :
    memory.Grows ((routine.run program frame).perform memory).2 :=
  have tandem := Store.Since.tandem memory
  (tandem.perform (Correspondence.Values.eq tandem.identifies)
    (tandem.execute routine.index program frame routine) ⟨rfl, .refl memory⟩).2.2

theorem Machine.grows_run (machine : Machine) (globals : Array Value) (memory : Store) :
    memory.Grows ((machine.run globals).perform memory).2 :=
  ((Store.Since.tandem memory).perform_run trivial globals ⟨rfl, .refl memory⟩).2.2

end Machines

end PointFree
