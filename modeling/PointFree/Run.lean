import PointFree.Collect
import PointFree.Store

/-!
Contract: the actions of an evaluation.

An effect can fail and can change the memory, and it keeps its changes when it
fails. An action is an effect that may call functions it meets: how they are
called is given to it, so that reading an element, which may take a call, can be
said before it is said what a call does. `PointFree.Function.Call` gives the
calls. What a heap has to offer to the code of blocks is said by `Activations`,
`Installed` and `Blocks`; a run is an action over frames.
-/

namespace PointFree

abbrev Effect (H : Type) := ExceptT Failure (StateM (Memory H))

/-- How a function is called: the right argument first, then the left. -/
abbrev Call (H : Type) := Function → Value → Option Value → Effect H Value

abbrev Action (H : Type) := ReaderT (Call H) (Effect H)

abbrev Run := Action (Heap (List Routine))

/-- More calls inside one another than any run can have in progress. -/
def callBudget : Nat := Nat.pow 2 64

namespace Action

variable {H α β : Type}

def ofOutcome (outcome : Outcome α) : Action H α :=
  fun _ memory => (outcome, memory)

def refuse (fault : Fault) : Action H α :=
  ofOutcome (PointFree.refuse fault)

/-- Calls a function that the action has met. -/
def call (function : Function) (right : Value) (left : Option Value) : Action H Value :=
  fun calling => calling function right left

/-- How the action ends, as a value. -/
def attempt (action : Action H α) : Action H (Outcome α) :=
  fun calling memory =>
    let ended := action calling memory
    (.ok ended.1, ended.2)

/-- A failure of the action is known to arise within `span`. -/
def located (span : Option Span) (action : Action H α) : Action H α :=
  fun calling memory =>
    let ended := action calling memory
    (Outcome.within span ended.1, ended.2)

/-- Holds one level of call depth while the action runs, however it ends. -/
def nested (limit : Nat) (action : Action H α) : Action H α :=
  fun calling memory =>
    if limit ≤ memory.depth then (PointFree.refuse (.callDepthExceeded limit), memory)
    else
      let ended := action calling { memory with depth := memory.depth + 1 }
      (ended.1, { ended.2 with depth := ended.2.depth - 1 })

/-- Ties a step to itself: a round of it is handed the next round, up to so many
inside one another. -/
def rounds (step : (α → Action H β) → α → Action H β) : Nat → α → Action H β
  | 0, _ => refuse (.callDepthExceeded callBudget)
  | remaining + 1, argument => step (rounds step remaining) argument

theorem rounds_eq_step (step : (α → Action H β) → α → Action H β) (limit : Nat) (argument : α)
    (positive : 0 < limit) :
    rounds step limit argument = step (rounds step (limit - 1)) argument := by
  cases limit with
  | zero => omega
  | succ remaining => rfl

/-- A new function. -/
def make (form : Form) : Action H Function :=
  fun _ memory =>
    (.ok (.mk memory.nextStamp form), { memory with nextStamp := memory.nextStamp + 1 })

end Action

/-- How a heap keeps the variables of activations. -/
class Activations (H : Type) where
  newFrame (slots : Array (Option Value)) (parent : Option Nat) : Action H Nat
  load (frame depth slot : Nat) : Action H Value
  /-- Sets a slot, which must have been set before unless it is `fresh`. -/
  save (fresh : Bool) (frame depth slot : Nat) (value : Value) : Action H Unit

/-- How a heap keeps the programs that have been started. -/
class Installed (H : Type) where
  install (program : List Routine) : Action H Nat
  routine (program block : Nat) : Action H Routine

/-- What it means to enter the block of a function that was made from one. -/
class Blocks (H : Type) where
  enter (program block frame : Nat) (this : Function) (right : Value) (left : Option Value) :
    Action H Value

namespace Heap

variable {Code : Type}

def newFrame (slots : Array (Option Value)) (parent : Option Nat) : Action (Heap Code) Nat :=
  fun _ memory =>
    (.ok memory.heap.frames.size,
      { memory with heap.frames := memory.heap.frames.push ⟨slots, parent⟩ })

def ancestor (frame depth : Nat) : Action (Heap Code) Nat :=
  fun _ memory =>
    match memory.heap.ancestor? frame depth with
    | some found => (.ok found, memory)
    | none => (PointFree.refuse (.noFrame depth), memory)

def load (frame depth slot : Nat) : Action (Heap Code) Value := do
  let owner ← ancestor frame depth
  let memory ← get
  match memory.heap.slot? owner slot with
  | some (some value) => return value
  | _ => Action.refuse (.unset depth slot)

def put (owner slot : Nat) (value : Value) : Action (Heap Code) Unit :=
  modify fun memory => { memory with heap := memory.heap.setSlot owner slot value }

def save (fresh : Bool) (frame depth slot : Nat) (value : Value) :
    Action (Heap Code) Unit := do
  let owner ← ancestor frame depth
  let memory ← get
  match memory.heap.slot? owner slot with
  | none => Action.refuse (.slotOutsideFrame slot)
  | some none =>
      if fresh then put owner slot value
      else Action.refuse (.updatedBeforeDefined depth slot)
  | some (some _) => put owner slot value

/-- Starts a program. -/
def install (program : Code) : Action (Heap Code) Nat :=
  fun _ memory =>
    (.ok memory.heap.programs.size,
      { memory with heap.programs := memory.heap.programs.push program })

/-- The code of a block; a function outlives no program that made it. -/
def routine (program block : Nat) : Action (Heap (List Routine)) Routine := do
  let memory ← get
  match memory.heap.programs[program]?.bind fun found => found[block]? with
  | some found => return found
  | none => Action.refuse .released

end Heap

instance {Code : Type} : Activations (Heap Code) :=
  ⟨Heap.newFrame, Heap.load, Heap.save⟩

instance : Installed (Heap (List Routine)) :=
  ⟨Heap.install, Heap.routine⟩

variable {H : Type}

instance : MonadLift Outcome (Action H) where
  monadLift := Action.ofOutcome

instance : LawfulMonadLift Outcome (Action H) where
  monadLift_pure _ := rfl
  monadLift_bind outcome _ := by
    cases outcome <;> rfl

/-- A collection that calls no function and leaves the store alone. -/
theorem collect_ofOutcome {α : Type} (item : Nat → Outcome α) (count : Nat) :
    collect (fun index => (Action.ofOutcome (item index) : Action H α)) count =
      Action.ofOutcome (collect item count) := by
  suffices general : ∀ (remaining index : Nat) (found : Array α),
      collectFrom (fun index => (Action.ofOutcome (item index) : Action H α)) remaining index
          found =
        Action.ofOutcome (collectFrom item remaining index found) from general count 0 #[]
  intro remaining
  induction remaining with
  | zero => exact fun _ _ => rfl
  | succ remaining inductionHypothesis =>
      intro index found
      rw [collectFrom, collectFrom]
      cases read : item index with
      | error reason => rfl
      | ok value => exact inductionHypothesis (index + 1) (found.push value)

namespace Run

export Action (ofOutcome make)

end Run

end PointFree
