import PointFree.Proofs.Correspondence.Routine
import PointFree.Proofs.Heap

/-!
Contract: frames that are kept in step.

Two heaps that keep the same frames with corresponding variables agree on where an
address leads, and what is done there goes the same way on both.
-/

namespace PointFree.Stepping

open Correspondence

/-- Frames with corresponding variables around the same frame. -/
structure Frames (related : Value → Value → Prop) (frame frame' : Frame) : Prop where
  slots : List.Forall₂ (Option.Rel related) frame.slots.toList frame'.slots.toList
  parent : frame.parent = frame'.parent

theorem Frames.imp {related related' : Value → Value → Prop} {frame frame' : Frame}
    (frames : Frames related frame frame')
    (weaken : ∀ {value value'}, related value value' → related' value value') :
    Frames related' frame frame' := by
  refine ⟨frames.slots.imp fun content content' options => ?_, frames.parent⟩
  cases options with
  | some values => exact .some (weaken values)
  | none => exact .none

variable {Code Code' : Type}

/-- Heaps with frames of the same numbers. -/
def Framewise (related : Value → Value → Prop) (heap : Heap Code) (heap' : Heap Code') : Prop :=
  List.Forall₂ (Frames related) heap.frames.toList heap'.frames.toList

section Addresses

variable {related : Value → Value → Prop} {heap : Heap Code} {heap' : Heap Code'}

theorem Framewise.frame (framewise : Framewise related heap heap') (index : Nat) :
    Option.Rel (Frames related) heap.frames[index]? heap'.frames[index]? := by
  rw [← Array.getElem?_toList, ← Array.getElem?_toList]
  exact getElem?_of_forall₂ framewise index

theorem Framewise.ancestor?_eq (framewise : Framewise related heap heap') (frame depth : Nat) :
    heap.ancestor? frame depth = heap'.ancestor? frame depth := by
  induction depth generalizing frame with
  | zero => rfl
  | succ depth inductionHypothesis =>
      have frames := framewise.frame frame
      rw [Heap.ancestor?, Heap.ancestor?]
      generalize heap.frames[frame]? = found at frames
      generalize heap'.frames[frame]? = found' at frames
      cases frames with
      | none => rfl
      | @some found found' frames =>
          obtain ⟨slots, parent⟩ := found
          obtain ⟨slots', parent'⟩ := found'
          obtain rfl : parent = parent' := frames.parent
          cases parent with
          | none => rfl
          | some parent => exact inductionHypothesis parent

theorem Framewise.slot? (framewise : Framewise related heap heap') (owner slot : Nat) :
    Option.Rel (Option.Rel related) (heap.slot? owner slot) (heap'.slot? owner slot) := by
  have frames := framewise.frame owner
  rw [Heap.slot?, Heap.slot?]
  generalize heap.frames[owner]? = found at frames
  generalize heap'.frames[owner]? = found' at frames
  cases frames with
  | none => exact .none
  | some frames =>
      rw [Option.bind_some, Option.bind_some, ← Array.getElem?_toList, ← Array.getElem?_toList]
      exact getElem?_of_forall₂ frames.slots slot

theorem Framewise.setSlot (framewise : Framewise related heap heap') (owner slot : Nat)
    {value value' : Value} (values : related value value') :
    Framewise related (heap.setSlot owner slot value) (heap'.setSlot owner slot value') := by
  have changes {frame frame' : Frame} (frames : Frames related frame frame') :
      Frames related { frame with slots := frame.slots.setIfInBounds slot (some value) }
        { frame' with slots := frame'.slots.setIfInBounds slot (some value') } := by
    refine ⟨?_, frames.parent⟩
    rw [Array.toList_setIfInBounds, Array.toList_setIfInBounds]
    exact set_of_forall₂ frames.slots slot (.some values)
  rw [Framewise, Heap.setSlot, Heap.setSlot, Array.toList_modify, Array.toList_modify]
  exact modify_of_forall₂ framewise changes owner

theorem Framewise.push (framewise : Framewise related heap heap') {frame frame' : Frame}
    (frames : Frames related frame frame') :
    Framewise related { heap with frames := heap.frames.push frame }
      { heap' with frames := heap'.frames.push frame' } := by
  show List.Forall₂ _ (heap.frames.push frame).toList (heap'.frames.push frame').toList
  rw [Array.toList_push, Array.toList_push]
  exact List.rel_append framewise (.cons frames .nil)

/-- Where only what is the same corresponds, the frames are the same. -/
theorem Framewise.frames_eq (framewise : Framewise related heap heap')
    (same : ∀ {value value'}, related value value' → value = value') :
    heap.frames = heap'.frames := by
  have contents {content content' : Option Value} (options : Option.Rel related content content') :
      content = content' := by
    cases options with
    | some values => rw [same values]
    | none => rfl
  refine Array.toList_inj.1 (List.forall₂_eq_eq_eq ▸ framewise.imp fun frame frame' frames => ?_)
  have slots : frame.slots = frame'.slots :=
    Array.toList_inj.1 (List.forall₂_eq_eq_eq ▸ frames.slots.imp fun _ _ => contents)
  obtain ⟨slots', parent⟩ := frame
  cases slots
  cases frames.parent
  rfl

end Addresses

/-- Memories that correspond keep frames in step, and are free to keep others so. -/
class Housing (c : Correspondence (Heap Code) (Heap Code')) : Prop where
  framewise {V : c.World} {memory : Memory (Heap Code)} {memory' : Memory (Heap Code')} :
    c.memories V memory memory' → Framewise (c.Values V) memory.heap memory'.heap
  reframe {V : c.World} {memory : Memory (Heap Code)} {memory' : Memory (Heap Code')}
    {frames frames' : Array Frame} : c.memories V memory memory' →
      List.Forall₂ (Frames (c.Values V)) frames.toList frames'.toList →
      c.memories V { memory with heap.frames := frames } { memory' with heap.frames := frames' }
  faults (fault : Fault) : c.faults fault fault

section Housing

variable {c : Correspondence (Heap Code) (Heap Code')} [Housing c] {V : c.World}
variable {memory : Memory (Heap Code)} {memory' : Memory (Heap Code')}

theorem Outcomes.refusal {α α' : Type} {A : α → α' → Prop} (fault : Fault) :
    c.Outcomes A (PointFree.refuse fault) (PointFree.refuse fault) :=
  .error (.ofFault (Housing.faults fault))

theorem Outcomes.reading (memories : c.memories V memory memory') (frame depth slot : Nat) :
    c.Outcomes (c.Values V) (memory.heap.reading frame depth slot)
      (memory'.heap.reading frame depth slot) := by
  have framewise := Housing.framewise memories
  rw [Heap.reading, Heap.reading, framewise.ancestor?_eq]
  cases memory'.heap.ancestor? frame depth with
  | none => exact Outcomes.refusal _
  | some owner =>
      have slots := framewise.slot? owner slot
      dsimp only
      generalize memory.heap.slot? owner slot = content at slots
      generalize memory'.heap.slot? owner slot = content' at slots
      cases slots with
      | none => exact Outcomes.refusal _
      | some contents =>
          cases contents with
          | none => exact Outcomes.refusal _
          | some values => exact .ok values

theorem Outcomes.writing (memories : c.memories V memory memory') (fresh : Bool)
    (frame depth slot : Nat) {value value' : Value} (values : c.Values V value value') :
    c.Outcomes
      (fun heap heap' => c.memories V { memory with heap := heap } { memory' with heap := heap' })
      (memory.heap.writing fresh frame depth slot value)
      (memory'.heap.writing fresh frame depth slot value') := by
  have framewise := Housing.framewise memories
  rw [Heap.writing, Heap.writing, framewise.ancestor?_eq]
  cases memory'.heap.ancestor? frame depth with
  | none => exact Outcomes.refusal _
  | some owner =>
      have slots := framewise.slot? owner slot
      dsimp only
      generalize memory.heap.slot? owner slot = content at slots
      generalize memory'.heap.slot? owner slot = content' at slots
      cases slots with
      | none => exact Outcomes.refusal _
      | some contents =>
          dsimp only
          rw [options_isNone_eq contents]
          split
          · exact Outcomes.refusal _
          · exact .ok (Housing.reframe memories (framewise.setSlot owner slot values))

instance : Framing c where
  load frame depth slot := by
    intro V later calling calling' _ memory memory' memories
    show c.Ends V c.Values (Heap.load frame depth slot calling memory)
      (Heap.load frame depth slot calling' memory')
    rw [Heap.load_eq, Heap.load_eq]
    exact .inr ⟨V, le_rfl, memories, Outcomes.reading memories frame depth slot⟩
  save fresh frame depth slot := by
    intro value value' values V later calling calling' _ memory memory' memories
    show c.Ends V c.Same (Heap.save fresh frame depth slot value calling memory)
      (Heap.save fresh frame depth slot value' calling' memory')
    have outcomes := Outcomes.writing memories fresh frame depth slot (values.mono later)
    rw [Heap.save_eq, Heap.save_eq]
    generalize memory.heap.writing fresh frame depth slot value = outcome at outcomes
    generalize memory'.heap.writing fresh frame depth slot value' = outcome' at outcomes
    cases outcomes with
    | ok written => exact .inr ⟨V, le_rfl, written, .ok rfl⟩
    | error failures => exact .inr ⟨V, le_rfl, memories, .error failures⟩
  newFrame parent := by
    intro slots slots' rows V later calling calling' _ memory memory' memories
    have framewise := Housing.framewise memories
    have frames : Frames (c.Values V) ⟨slots, parent⟩ ⟨slots', parent⟩ := ⟨rows.mono later, rfl⟩
    exact .inr ⟨V, le_rfl, Housing.reframe memories (framewise.push frames),
      .ok (List.Forall₂.length_eq framewise)⟩

end Housing

end PointFree.Stepping
