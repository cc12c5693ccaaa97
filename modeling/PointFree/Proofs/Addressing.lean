import PointFree.Proofs.Correspondence
import PointFree.Proofs.Meaning.Running
import PointFree.Proofs.Tandem

/-!
Contract: every address leads to a slot.

An audited heap notes every access to a variable together with the number of slots in
the frame that the access found. What compiled programs do on such a heap they do on
frames alone, and every access that they note is to a slot that is there, whichever
functions are called and however long after the activation that made them.
-/

namespace PointFree

/-- An access to a variable, and the number of slots of the frame found so many levels
out, if there is such a frame. -/
structure Access where
  depth : Nat
  slot : Nat
  slots : Option Nat

def Access.IsValid (access : Access) : Prop :=
  ∃ count, access.slots = some count ∧ access.slot < count

def Heap.slotCount? {Code : Type} (heap : Heap Code) (frame depth : Nat) : Option Nat :=
  (heap.ancestor? frame depth).bind fun owner =>
    heap.frames[owner]?.map fun found => found.slots.size

structure Audited where
  heap : Heap (List Routine)
  accesses : List Access

namespace Audited

def start (heap : Heap (List Routine)) : Audited :=
  ⟨heap, []⟩

/-- An action on the frames, after accesses have been noted. -/
def after {α : Type} (note : Heap (List Routine) → List Access) (action : Run α) :
    Action Audited α :=
  fun _ memory =>
    Memory.leaving (⟨·, note memory.heap.heap ++ memory.heap.accesses⟩)
      (action Framed.idle (memory.map heap))

def noted (frame depth slot : Nat) (heap : Heap (List Routine)) : List Access :=
  [⟨depth, slot, heap.slotCount? frame depth⟩]

def nothing (_ : Heap (List Routine)) : List Access :=
  []

instance : Activations Audited where
  newFrame slots parent := after nothing (Heap.newFrame slots parent)
  load frame depth slot := after (noted frame depth slot) (Heap.load frame depth slot)
  save fresh frame depth slot value :=
    after (noted frame depth slot) (Heap.save fresh frame depth slot value)

instance : Installed Audited where
  install program := after nothing (Heap.install program)
  routine program block := after nothing (Heap.routine program block)

theorem noted_isValid {heap : Heap (List Routine)} {frame depth slot : Nat}
    (reaches : heap.Reaches frame depth slot) :
    ∀ access ∈ noted frame depth slot heap, access.IsValid := by
  obtain ⟨owner, content, isOwner, isSlot⟩ := reaches
  obtain ⟨found, isFrame, isContent⟩ := Option.bind_eq_some_iff.1 isSlot
  intro access member
  cases List.mem_singleton.1 member
  refine ⟨found.slots.size, ?_, (Array.getElem?_eq_some_iff.1 isContent).1⟩
  rw [Heap.slotCount?, isOwner, Option.bind_some, isFrame]
  rfl

/-- The accesses noted so far are all to slots that are there. -/
def AllValid (audited : Audited) : Prop :=
  ∀ access ∈ audited.accesses, access.IsValid

theorem after_allValid {α : Type} {note : Heap (List Routine) → List Access} {action : Run α}
    {calling : Call Audited} {memory : Memory Audited} (valid : memory.heap.AllValid)
    (new : ∀ access ∈ note memory.heap.heap, access.IsValid) :
    (after note action calling memory).2.heap.AllValid := by
  intro access member
  obtain isNew | isOld := List.mem_append.1 member
  · exact new access isNew
  · exact valid access isOld

instance : Framed Audited where
  core := heap
  IsTidy := AllValid
  newFrame_core _ _ _ _ _ := rfl
  load_core frame depth slot _ calling memory :=
    Heap.load_calling frame depth slot Framed.idle calling (memory.map heap)
  save_core fresh frame depth slot value _ calling memory :=
    Heap.save_calling fresh frame depth slot value Framed.idle calling (memory.map heap)
  install_core _ _ _ _ := rfl
  routine_core program block _ calling memory :=
    Heap.routine_calling program block Framed.idle calling (memory.map heap)
  newFrame_tidy valid := after_allValid valid nofun
  load_tidy valid reaches := after_allValid valid (noted_isValid reaches)
  save_tidy valid reaches := after_allValid valid (noted_isValid reaches)
  install_tidy valid := after_allValid valid nofun
  routine_tidy valid := after_allValid valid nofun

end Audited

open Correspondence Meaning

/-- A memory to which runs of compiled programs lead, and values met in it: what they hold
of frames and blocks fits the memory. -/
def Sound (memory : Store) (values : List Value) : Prop :=
  ∃ (W : World) (memory' : Memory Lexical),
    (lexical Audited).memories W (memory.map Audited.start) memory' ∧
    ∀ value ∈ values, ∃ value', (lexical Audited).Values W value value'

theorem Sound.vocabularies {W : World} {vocabulary : Vocabulary}
    (sound : ∀ value ∈ vocabulary.values.toList,
      ∃ value', (lexical Audited).Values W value value') :
    ∃ vocabulary', Vocabularies ((lexical Audited).Values W) vocabulary vocabulary' := by
  obtain ⟨entries⟩ := vocabulary
  obtain ⟨entries⟩ := entries
  suffices general : ∃ entries' : List (String × Value), List.Forall₂ (fun entry entry' =>
      entry.1 = entry'.1 ∧ (lexical Audited).Values W entry.2 entry'.2) entries entries' by
    obtain ⟨entries', related⟩ := general
    exact ⟨⟨entries'.toArray⟩, related⟩
  induction entries with
  | nil => exact ⟨[], .nil⟩
  | cons entry entries inductionHypothesis =>
      obtain ⟨value', values⟩ := sound entry.2 (by simp [Vocabulary.values])
      obtain ⟨entries', related⟩ := inductionHypothesis fun value member =>
        sound value (by
          simpa [Vocabulary.values] using .inr (by simpa [Vocabulary.values] using member))
      exact ⟨(entry.1, value') :: entries', .cons ⟨rfl, values⟩ related⟩

/-- Every access to a variable, in a run of a compiled program on data, finds a frame with
that slot, so no run fails for want of one. The run leaves a memory from which others can
start. -/
theorem Block.compile_accesses_valid (block : Block) (vocabulary : Vocabulary)
    (externals : List String) (program : Program)
    (succeeds : block.compile vocabulary externals = .ok program) (limit : Nat) :
    ∃ machine, Machine.load program limit = .ok machine ∧
      ∀ (memory : Store) (globals : Array Value), Sound memory vocabulary.values.toList →
        (∀ value ∈ globals, value.IsData) →
        ∃ ended : Outcome (Value × Nat) × Memory Audited,
          (machine.run globals).perform (memory.map Audited.start) = ended ∧
          (machine.run globals).perform memory = Memory.leaving Audited.heap ended ∧
          (∀ access ∈ ended.2.heap.accesses, access.IsValid) ∧
          (∀ failure, ended.1 = .error failure → failure.fault.isAddressing = false) ∧
          Sound (ended.2.map Audited.heap) (vocabulary.values.toList ++
            (ended.1.toOption.map Prod.fst).toList) := by
  obtain ⟨machine, tasks, entry, whole, placed, steps, loaded, made⟩ :=
    Block.compile_machine succeeds limit
  refine ⟨machine, loaded, ?_⟩
  intro memory globals sound isData
  obtain ⟨W, memory', memories, sound⟩ := sound
  obtain ⟨vocabulary', vocabularies⟩ := Sound.vocabularies sound
  have rows : Rows (lexical Audited).Values W globals globals :=
    List.forall₂_same.2 fun value member =>
      Values.of_isData (isData value (Array.mem_toList_iff.1 member))
  obtain ⟨V, later, between, outcomes⟩ := Ends.run made memories vocabularies rows
  have erased := Machine.leaving_run machine globals (memory.map Audited.start)
  refine ⟨_, rfl, erased.symm, between.2, ?_, V, _, ⟨between.1, nofun⟩, ?_⟩
  · intro failure failed
    rw [failed] at outcomes
    generalize ((block.evaluate vocabulary' externals limit globals).perform memory').1 = outcome'
      at outcomes
    cases outcomes with
    | error failures => exact failures.faults.2
  · intro value member
    obtain isWord | isResult := List.mem_append.1 member
    · obtain ⟨value', values⟩ := sound value isWord
      exact ⟨value', values.mono later⟩
    · generalize ((machine.run globals).perform (memory.map Audited.start)).1 = outcome
        at outcomes isResult
      generalize ((block.evaluate vocabulary' externals limit globals).perform memory').1 =
        outcome' at outcomes
      cases outcomes with
      | ok related =>
          cases List.mem_singleton.1 isResult
          exact ⟨_, related.1⟩
      | error failures => cases isResult

/-- A block in which a function is called after the activation that made it has ended. -/
def returningBlock : Block :=
  .mk [
    .mk (.define (.name "F") (.block (.mk [
      .mk (.define (.name "N") (.implicit .right)) none,
      .mk (.expression (.block (.mk [.mk (.expression (.name "N")) none]))) none]))) none,
    .mk (.define (.name "G") (.call (.name "F") (.number 5.0))) none,
    .mk (.expression (.call (.name "G") (.name "A"))) none]

theorem returningBlock_isOk : (returningBlock.compile (.standardFrom 0) ["A"]).isOk = true := by
  decide +kernel

/-- Before anything has been started the standard vocabulary is sound. -/
theorem Sound.standardFrom (stamp nextStamp depth : Nat) :
    Sound ⟨⟨#[], #[]⟩, nextStamp, depth⟩ (Vocabulary.standardFrom stamp).values.toList := by
  refine ⟨⟨[], [], []⟩, _, memories_empty rfl rfl nofun, ?_⟩
  intro value member
  obtain ⟨entry, isEntry, rfl⟩ := Array.mem_map.1 (Array.mem_toList_iff.1 member)
  obtain ⟨primitive, _, rfl⟩ := List.mem_map.1 (List.mem_toArray.1 isEntry)
  exact ⟨_, .function (.mk rfl (.primitive primitive.1))⟩

theorem Block.compile_accesses_valid_returningBlock :
    ∃ (program : Program) (machine : Machine) (ended : Outcome (Value × Nat) × Memory Audited),
      returningBlock.compile (.standardFrom 0) ["A"] = .ok program ∧
      Machine.load program defaultCallLimit = .ok machine ∧
      (machine.run #[.number 2.0]).perform
        ⟨⟨⟨#[], #[]⟩, []⟩, Primitive.all.length, 0⟩ = ended ∧
      (∀ access ∈ ended.2.heap.accesses, access.IsValid) ∧
      ∀ failure, ended.1 = .error failure → failure.fault.isAddressing = false := by
  obtain ⟨program, succeeds⟩ := Outcome.exists_of_isOk returningBlock_isOk
  obtain ⟨machine, loaded, runs⟩ :=
    Block.compile_accesses_valid returningBlock (.standardFrom 0) ["A"] program succeeds
      defaultCallLimit
  have isData : ∀ value ∈ #[Value.number 2.0], value.IsData := by
    intro value member
    cases List.mem_singleton.1 (Array.mem_toList_iff.2 member)
    exact .number 2.0
  obtain ⟨ended, performs, _, valid, inside, _⟩ :=
    runs _ #[.number 2.0] (Sound.standardFrom 0 Primitive.all.length 0) isData
  exact ⟨program, machine, ended, succeeds, loaded, performs, valid, inside⟩

end PointFree
