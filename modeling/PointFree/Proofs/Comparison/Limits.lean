import PointFree.Proofs.Comparison.Settled

/-!
Contract: a limit on the depth of calls only cuts runs short, and every run ends.

A run under a lower limit does the same as a run under a higher one, up to the first call
that it refuses. There it ends: nothing in a program goes on after a failed call where no
pending elements are about. Whatever happens, the level of every call is given back.

Between two entries into blocks a call follows the way its function was made and calls
nothing that it meets; an entry uses up a level of depth. So the calls that stand inside
one another are no more than the limit allows, and a run with a larger budget never finds
out what would happen to a call beyond the budget. Values in which nothing is pending are
gone through in one round each, as `PointFree.Proofs.Traversal` says.
-/

namespace PointFree

open Correspondence Stepping

/-! ### Machines of one program -/

def Machine.withLimit (limit : Nat) (machine : Machine) : Machine :=
  ⟨machine.top.withLimit limit, machine.others.map (Routine.withLimit limit), machine.externals⟩

namespace Comparison

theorem descends_plain : plain.Descends plain where
  callable := trivial
  enters := ⟨id, congrArg (· + 1), id, id, id⟩
  leaves := ⟨id, congrArg (· - 1), id, id, id⟩
  refused same counted _ := .inr ⟨same, counted⟩
  admitted same counted below := by
    cases same
    cases counted
    exact ⟨below, id⟩

end Comparison

variable {machine : Machine} {memory : Store} {globals : Array Value}

/-- Nothing is pending after a run that met with nothing pending, nor in its value. -/
theorem Machine.finished_run (settled : memory.IsSettled)
    (finished : ∀ routine ∈ machine.top :: machine.others, routine.AllConstants Value.IsFinished)
    (known : ∀ value ∈ globals, value.IsFinished) :
    Store.IsSettled ((machine.run globals).perform memory).2 ∧
      ∀ value frame, ((machine.run globals).perform memory).1 = .ok (value, frame) →
        value.IsFinished := by
  have runs : Comparison.plain.correspondence.Actions ()
      (Pairs Comparison.plain.correspondence.Values Comparison.plain.correspondence.Same)
      (machine.run globals) (machine.run globals) := by
    refine Comparison.Actions.run trivial rfl (List.forall₂_same.2 fun routine member => ?_) known
    exact ⟨rfl, rfl, finished routine member, fun _ _ => trivial⟩
  have memories : Comparison.plain.correspondence.memories () memory memory :=
    settled.memories rfl fun _ _ _ _ => rfl
  obtain ⟨_, _, after, outcomes⟩ :=
    (Actions.perform Comparison.descends_plain.enter runs memories).meets
  refine ⟨Store.isSettled_of_memories id after, fun value frame ended => ?_⟩
  rw [ended] at outcomes
  cases outcomes with
  | ok pairs => exact Value.isFinished_of_values id pairs.1

/-- Nothing has been started yet. -/
theorem Store.isSettled_start (stamp depth : Nat) : Store.IsSettled ⟨⟨#[], #[]⟩, stamp, depth⟩ :=
  ⟨nofun, nofun⟩

end PointFree

namespace PointFree

open Correspondence Stepping

namespace Comparison

/-- A run compared with itself inside a block, at one depth. -/
def within (bound depth : Nat) : Comparison where
  limits limit limit' := limit = limit' ∧ limit ≤ bound
  depths first second := first = depth ∧ second = depth
  pending := False

variable {bound depth : Nat} {calling calling' : Call (Heap (List Routine))}
variable {memory memory' : Store}

end Comparison

variable {machine : Machine} {globals : Array Value} {memory : Store} {bound : Nat}

end PointFree
