import PointFree.Routine

/-!
Contract: what a run can change.

A memory counts the functions made and the calls in progress, and has a heap for
the rest. The heap of a run holds a frame for every activation of a block, each
linked to the frame its block was made in, so that a function finds its variables
after the activation that made it has ended. It also holds the programs that have
been started, so that a function finds its block.
-/

namespace PointFree

structure Memory (H : Type) where
  heap : H
  nextStamp : Nat
  depth : Nat

/-- The variables of one activation. An empty slot has not been set. -/
structure Frame where
  slots : Array (Option Value)
  parent : Option Nat

structure Heap (Code : Type) where
  frames : Array Frame
  programs : Array Code

namespace Heap

variable {Code : Type}

/-- The frame so many levels out. -/
def ancestor? (heap : Heap Code) (frame : Nat) : (depth : Nat) → Option Nat
  | 0 => some frame
  | depth + 1 =>
      match heap.frames[frame]? with
      | some ⟨_, some parent⟩ => heap.ancestor? parent depth
      | _ => none

def slot? (heap : Heap Code) (frame slot : Nat) : Option (Option Value) :=
  heap.frames[frame]?.bind fun found => found.slots[slot]?

def setSlot (heap : Heap Code) (frame slot : Nat) (value : Value) : Heap Code :=
  { heap with
    frames := heap.frames.modify frame fun found =>
      { found with slots := found.slots.setIfInBounds slot (some value) } }

end Heap

/-- A program is a list of its blocks, made ready to run. -/
abbrev Store := Memory (Heap (List Routine))

namespace Store

def empty : Store :=
  ⟨⟨#[], #[]⟩, 0, 0⟩

def frames (store : Store) : Array Frame :=
  store.heap.frames

/-- The value of a slot that exists and is set. -/
def value? (store : Store) (frame slot : Nat) : Option Value :=
  (store.heap.slot? frame slot).join

end Store

end PointFree
