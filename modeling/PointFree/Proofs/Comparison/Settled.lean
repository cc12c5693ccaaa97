import PointFree.Proofs.Comparison
import PointFree.Proofs.Compilation.Constants

/-!
Contract: what every run leaves as it was.

A program that is given data makes no pending elements. So a memory without any is left
without any by every run, whether the run succeeds or fails.

Every entry into a block gives back the level that it takes, however the block ends. So an
action that is handed calls of this kind leaves the depth of calls as it found it, and by
induction over the budget all calls are of this kind.
-/

namespace PointFree

open Correspondence Stepping

/-- A machine run twice in the same way, where nothing is pending. -/
def Comparison.plain : Comparison where
  limits limit limit' := limit = limit'
  depths depth depth' := depth = depth'
  pending := False

/-- Neither in the value nor in a function in it does an array hold a pending element. -/
def Value.IsFinished (value : Value) : Prop :=
  Comparison.plain.correspondence.Values () value value

/-- Nothing that a run may come across is pending. -/
structure Store.IsSettled (memory : Store) : Prop where
  frames : ∀ frame ∈ memory.heap.frames, ∀ value, some value ∈ frame.slots → value.IsFinished
  programs : ∀ program ∈ memory.heap.programs, ∀ routine ∈ program,
    routine.AllConstants Value.IsFinished

section Finished

variable {p : Comparison} {value value' : Value}

theorem Value.IsFinished.values (finished : value.IsFinished)
    (everywhere : ∀ span, p.spans span := by exact fun _ => trivial) :
    p.correspondence.Values () value value :=
  Values.carry (Comparison.plain.identifies.carries p.identifies False.elim fun _ => everywhere _)
    finished

theorem Value.IsFinished.of_isData (isData : value.IsData) : value.IsFinished :=
  Values.of_isData isData

theorem Value.isFinished_of_values (settled : ¬p.pending)
    (values : p.correspondence.Values () value value') : value.IsFinished := by
  cases values.eq p.identifies
  exact values.carry (p.identifies.carries Comparison.plain.identifies settled)

theorem Value.isFinished_standardFrom (stamp : Nat) :
    ∀ entry ∈ (Vocabulary.standardFrom stamp).entries, entry.2.IsFinished := by
  intro entry member
  obtain ⟨word, _, rfl⟩ := List.mem_map.1 (List.mem_toArray.1 member)
  exact .function (.mk rfl (.primitive _))

end Finished

namespace Comparison

variable {p : Comparison} {memory memory' : Store}

/-- A memory corresponds to itself when all that is in it does. -/
theorem memories_self (depths : p.depths memory.depth memory.depth)
    (frames : ∀ frame ∈ memory.heap.frames, ∀ value, some value ∈ frame.slots →
      p.correspondence.Values () value value)
    (programs : ∀ program ∈ memory.heap.programs, ∀ routine ∈ program,
      p.limits routine.limit routine.limit ∧
        (routine.AllConstants fun value => p.correspondence.Values () value value) ∧
        ∀ step ∈ routine.steps, p.spans step.span) :
    p.correspondence.memories () memory memory := by
  refine ⟨rfl, depths, ?_, ?_⟩
  · refine List.forall₂_same.2 fun program isProgram => List.forall₂_same.2 ?_
    intro routine member
    obtain ⟨limits, known, spanned⟩ :=
      programs program (Array.mem_toList_iff.1 isProgram) routine member
    exact ⟨rfl, limits, known, spanned⟩
  · refine List.forall₂_same.2 fun frame isFrame => ⟨List.forall₂_same.2 ?_, rfl⟩
    intro content member
    cases content with
    | none => exact .none
    | some value =>
        exact .some (frames frame (Array.mem_toList_iff.1 isFrame) value
          (Array.mem_toList_iff.1 member))

end Comparison

namespace Store

variable {p : Comparison} {memory memory' : Store}

theorem IsSettled.memories (settled : memory.IsSettled)
    (depths : p.depths memory.depth memory.depth)
    (limits : ∀ program ∈ memory.heap.programs, ∀ routine ∈ program,
      p.limits routine.limit routine.limit)
    (everywhere : ∀ span, p.spans span := by exact fun _ => trivial) :
    p.correspondence.memories () memory memory := by
  refine Comparison.memories_self depths ?_ ?_
  · exact fun frame isFrame value member =>
      (settled.frames frame isFrame value member).values everywhere
  · intro program isProgram routine member
    have known := settled.programs program isProgram routine member
    exact ⟨limits program isProgram routine member,
      known.imp fun finished => finished.values everywhere, fun _ _ => everywhere _⟩

theorem isSettled_of_memories (settled : ¬p.pending)
    (memories : p.correspondence.memories () memory memory') : memory.IsSettled := by
  have stores : p.Stores (p.correspondence.Values ()) memory memory' := memories
  constructor
  · intro frame isFrame value member
    obtain ⟨frame', _, frames⟩ :=
      exists_of_forall₂ stores.framewise (Array.mem_toList_iff.2 isFrame)
    obtain ⟨content', _, contents⟩ :=
      exists_of_forall₂ frames.slots (Array.mem_toList_iff.2 member)
    cases contents with
    | some values => exact Value.isFinished_of_values settled values
  · intro program isProgram routine member
    obtain ⟨program', _, routines⟩ :=
      exists_of_forall₂ stores.programs (Array.mem_toList_iff.2 isProgram)
    obtain ⟨routine', _, same⟩ := exists_of_forall₂ routines member
    exact same.known.imp (Value.isFinished_of_values settled)

end Store

end PointFree

namespace PointFree

open Correspondence

/-- However a call ends, as many calls are in progress after it as before it. -/
def KeepsDepth (calling : Call (Heap (List Routine))) : Prop :=
  ∀ (function : Function) (right : Value) (left : Option Value) (memory : Store),
    (calling function right left memory).2.depth = memory.depth

namespace Comparison

/-- A run compared with itself where so many calls are in progress. -/
def level (depth : Nat) : Comparison where
  limits limit limit' := limit = limit'
  depths first second := first = depth ∧ second = depth
  pending := True
  restricts calling calling' := calling = calling' ∧ KeepsDepth calling

variable {depth : Nat} {memory memory' : Store}

theorem memories_level (counted : memory.depth = depth) :
    (level depth).correspondence.memories () memory memory := by
  have everything := Values.refl (c := (level depth).correspondence) (W := ())
    (level depth).identifies trivial
  refine memories_self ⟨counted, counted⟩ (fun _ _ value _ => everything value) ?_
  exact fun _ _ routine _ => ⟨rfl, .of_forall everything routine, fun _ _ => trivial⟩

/-- A call that keeps the depth corresponds to itself at every depth. -/
theorem calls_level {calling : Call (Heap (List Routine))} (keeps : KeepsDepth calling) :
    (level depth).correspondence.Calls () calling calling := by
  refine ⟨fun _ _ _ function function' right right' left left' functions rights lefts memory memory'
    memories => ?_, rfl, keeps⟩
  cases functions.eq (level depth).identifies
  cases rights.eq (level depth).identifies
  cases Options.eq (Values.eq (level depth).identifies) lefts
  cases eq_of_memories (p := level depth) id (fun counted => counted.1.trans counted.2.symm)
    memories
  have counted : memory.depth = depth := (Stores.depths memories).1
  refine .inr ⟨(), le_rfl, memories_level ((keeps function right left memory).trans counted), ?_⟩
  cases (calling function right left memory).1 with
  | ok value => exact .ok (Values.refl (level depth).identifies trivial value)
  | error failure => exact .error ⟨rfl, rfl, trivial⟩

theorem descends_level (depth : Nat) : (level depth).Descends (level (depth + 1)) where
  callable := trivial
  enters :=
    ⟨id, fun counted => ⟨congrArg (· + 1) counted.1, congrArg (· + 1) counted.2⟩, id, id, id⟩
  leaves :=
    ⟨id, fun counted => ⟨congrArg (· - 1) counted.1, congrArg (· - 1) counted.2⟩, id, id, id⟩
  refused same counted _ := .inr ⟨same, counted.1.trans counted.2.symm⟩
  admitted same counted below := by
    refine ⟨?_, fun calls => ?_⟩
    · cases same
      exact counted.2.symm ▸ counted.1 ▸ below
    · obtain ⟨rfl, keeps⟩ := calls.2
      exact calls_level keeps

/-- What an action does of itself it does without losing a level. -/
theorem depth_of_actions {α : Type} {A : Unit → α → α → Prop} {action : Run α}
    (actions : (level memory.depth).correspondence.Actions () A action action)
    {calling : Call (Heap (List Routine))} (keeps : KeepsDepth calling) :
    (action calling memory).2.depth = memory.depth := by
  obtain ⟨_, _, memories, _⟩ :=
    (actions le_rfl (calls_level keeps) (memories_level rfl)).meets
  exact (Stores.depths memories).1

end Comparison

theorem keepsDepth_callAt (budget : Nat) : KeepsDepth (callAt budget) := by
  induction budget with
  | zero => exact fun _ _ _ _ => rfl
  | succ budget inductionHypothesis =>
      intro function right left memory
      have itself := (Comparison.level memory.depth).identifies
      have lefts : Options (Comparison.level memory.depth).correspondence.Values () left left := by
        cases left with
        | none => exact .none
        | some value => exact .some (Values.refl itself trivial value)
      have applied := (Functions.refl itself trivial function).apply
        (Comparison.descends_level memory.depth).enter .forward le_rfl
        (Values.refl itself trivial right) lefts
      exact Comparison.depth_of_actions applied inductionHypothesis

/-- However a run ends, as many calls are in progress after it as before it. -/
theorem Machine.depth_run (machine : Machine) (globals : Array Value) (memory : Store) :
    ((machine.run globals).perform memory).2.depth = memory.depth := by
  have everything := Values.refl (c := (Comparison.level memory.depth).correspondence) (W := ())
    (Comparison.level memory.depth).identifies trivial
  have runs : (Comparison.level memory.depth).correspondence.Actions ()
      (Pairs (Comparison.level memory.depth).correspondence.Values
        (Comparison.level memory.depth).correspondence.Same)
      (machine.run globals) (machine.run globals) := by
    refine Comparison.Actions.run trivial rfl (List.forall₂_same.2 fun routine _ => ?_)
      fun value _ => everything value
    exact ⟨rfl, rfl, .of_forall everything routine, fun _ _ => trivial⟩
  exact Comparison.depth_of_actions runs (keepsDepth_callAt callBudget)

end PointFree
