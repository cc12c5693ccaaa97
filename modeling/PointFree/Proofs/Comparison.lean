import PointFree.Proofs.Correspondence.Identity
import PointFree.Proofs.Stepping.Frames

/-!
Contract: the machine compared with itself.

Two runs of a machine may differ in the limit on the depth of calls and in how calls are
budgeted. Apart from that they do the same, so what corresponds is the same. A comparison
says in what the runs may differ and what is known of them besides. How deep calls are may
be described by one comparison around a call and by another one inside it.
-/

namespace PointFree

open Correspondence Stepping

def Routine.withLimit (limit : Nat) (routine : Routine) : Routine :=
  { routine with limit := limit }

structure Comparison extends Reliance (Heap (List Routine)) (Heap (List Routine)) where
  /-- The limits of one block in the two runs. -/
  limits : Nat → Nat → Prop
  /-- The depths of the two runs at one moment. -/
  depths : Nat → Nat → Prop

namespace Comparison

/-- One block in the two runs. -/
structure Routines (p : Comparison) (related : Value → Value → Prop)
    (routine routine' : Routine) : Prop where
  same : routine' = routine.withLimit routine'.limit
  limits : p.limits routine.limit routine'.limit
  known : routine.AllConstants fun value => related value value
  spanned : ∀ step ∈ routine.steps, p.spans step.span

structure Stores (p : Comparison) (related : Value → Value → Prop) (memory memory' : Store) :
    Prop where
  stamps : memory.nextStamp = memory'.nextStamp
  depths : p.depths memory.depth memory'.depth
  programs : List.Forall₂ (List.Forall₂ (p.Routines (related)))
    memory.heap.programs.toList memory'.heap.programs.toList
  framewise : Framewise (related) memory.heap memory'.heap

def correspondence (p : Comparison) :
    Correspondence (Heap (List Routine)) (Heap (List Routine)) :=
  .identity p.toReliance p.Stores fun stores =>
    ⟨stores.stamps, { stores with stamps := congrArg (· + 1) stores.stamps }⟩

variable {p q : Comparison} {memory memory' : Store}

theorem identifies (p : Comparison) : p.correspondence.Identifies :=
  identifies_identity

instance : Housing p.correspondence where
  framewise memories := Stores.framewise memories
  reframe memories frames :=
    have stores : p.Stores (p.correspondence.Values _) _ _ := memories
    { stores with framewise := frames }
  faults _ := rfl

theorem Routines.imp {related related' : Value → Value → Prop} {routine routine' : Routine}
    (routines : p.Routines related routine routine')
    (limits : ∀ {limit limit'}, p.limits limit limit' → q.limits limit limit')
    (spans : ∀ {span}, p.spans span → q.spans span)
    (weaken : ∀ {value}, related value value → related' value value) :
    q.Routines related' routine routine' :=
  ⟨routines.same, limits routines.limits, routines.known.imp weaken,
    fun step member => spans (routines.spanned step member)⟩

/-- Where limits and depths are the same, the memories are. -/
theorem eq_of_memories
    (limits : ∀ {limit limit'}, p.limits limit limit' → limit = limit')
    (depths : ∀ {depth depth'}, p.depths depth depth' → depth = depth')
    (memories : p.correspondence.memories () memory memory') : memory = memory' := by
  have stores : p.Stores (p.correspondence.Values ()) memory memory' := memories
  have programs : memory.heap.programs = memory'.heap.programs := by
    refine Array.toList_inj.1 (List.forall₂_eq_eq_eq ▸ stores.programs.imp fun _ _ routines => ?_)
    refine List.forall₂_eq_eq_eq ▸ routines.imp fun routine routine' same => ?_
    rw [same.same, ← limits same.limits]
    rfl
  have frames := stores.framewise.frames_eq (Values.eq p.identifies)
  obtain ⟨⟨_, _⟩, _, _⟩ := memory
  cases frames
  cases programs
  cases stores.stamps
  cases depths stores.depths
  rfl

/-! ### Running routines -/

/-- What is known of a routine in one memory is known of it in the other. -/
theorem Actions.routine (program block : Nat) :
    p.correspondence.Actions () (fun W => p.Routines (p.correspondence.Values W))
      (Installed.routine program block) (Installed.routine program block) := by
  intro V _ calling calling' _ memory memory' memories
  have stores : p.Stores (p.correspondence.Values V) memory memory' := memories
  show p.correspondence.Ends V _ (Heap.routine program block calling memory)
    (Heap.routine program block calling' memory')
  have found : Option.Rel (p.Routines (p.correspondence.Values V))
      (memory.heap.programs[program]?.bind fun found => found[block]?)
      (memory'.heap.programs[program]?.bind fun found => found[block]?) := by
    have programs := getElem?_of_forall₂ stores.programs program
    rw [Array.getElem?_toList, Array.getElem?_toList] at programs
    generalize memory.heap.programs[program]? = found at programs
    generalize memory'.heap.programs[program]? = found' at programs
    cases programs with
    | none => exact .none
    | some routines => exact getElem?_of_forall₂ routines block
  have first (calling : Call (Heap (List Routine))) (memory : Store) :
      (get : Run _) calling memory = (.ok memory, memory) := rfl
  rw [Heap.routine, Action.bind_of_ok (first ..), Action.bind_of_ok (first ..)]
  generalize (memory.heap.programs[program]?.bind fun found => found[block]?) = routine at found
  generalize (memory'.heap.programs[program]?.bind fun found => found[block]?) = routine' at found
  cases found with
  | none => exact .inr ⟨V, le_rfl, memories, .error (.ofFault rfl)⟩
  | some routines => exact .inr ⟨V, le_rfl, memories, .ok routines⟩

theorem Actions.execute (may : p.callable) {routine : Routine} (program frame : Nat)
    (known : routine.AllConstants fun value => p.correspondence.Values () value value)
    (spanned : ∀ step ∈ routine.steps, p.spans step.span) :
    p.correspondence.Actions () p.correspondence.Values (routine.run program frame)
      (routine.run program frame) :=
  Correspondence.Actions.steps may routine.index (Framing.abreast frame)
    (fun _ => p.identifies.blocks.2 ⟨rfl, rfl, rfl⟩) known spanned

/-- The activation of a block, once it has been entered. -/
theorem Actions.activation (may : p.callable) {routine : Routine} (program parent : Nat)
    (known : routine.AllConstants fun value => p.correspondence.Values () value value)
    (spanned : ∀ step ∈ routine.steps, p.spans step.span) {this this' : Function}
    {right right' : Value} {left left' : Option Value}
    (functions : p.correspondence.Functions () this this')
    (rights : p.correspondence.Values () right right')
    (lefts : Options p.correspondence.Values () left left') :
    p.correspondence.Actions () p.correspondence.Values
      (do
        let frame ← Activations.newFrame (routine.slots this right left) (some parent)
        routine.run program frame)
      (do
        let frame ← Activations.newFrame (routine.slots this' right' left') (some parent)
        routine.run program frame) := by
  refine Correspondence.Actions.bind
    (Framing.newFrame (some parent) (Rows.slots routine functions rights lefts)) ?_
  intro _ _ frame frame' same
  cases same
  exact Actions.execute may program frame known spanned

/-! ### Whole programs -/

theorem Actions.install {program program' : List Routine}
    (routines : List.Forall₂ (p.Routines (p.correspondence.Values ())) program program') :
    p.correspondence.Actions () p.correspondence.Same
      (Installed.install program : Action (Heap (List Routine)) Nat)
      (Installed.install program' : Action (Heap (List Routine)) Nat) := by
  intro V _ calling calling' _ memory memory' memories
  have stores : p.Stores (p.correspondence.Values V) memory memory' := memories
  refine .inr ⟨V, le_rfl, { stores with programs := ?_ }, .ok ?_⟩
  · show List.Forall₂ _ (memory.heap.programs.push _).toList (memory'.heap.programs.push _).toList
    rw [Array.toList_push, Array.toList_push]
    exact List.rel_append stores.programs (.cons routines .nil)
  · exact List.Forall₂.length_eq stores.programs

/-- Machines of one program run alike. -/
theorem Actions.run (may : p.callable) {machine machine' : Machine}
    (externals : machine.externals = machine'.externals)
    (routines : List.Forall₂ (p.Routines (p.correspondence.Values ()))
      (machine.top :: machine.others) (machine'.top :: machine'.others))
    {globals : Array Value} (known : ∀ value ∈ globals, p.correspondence.Values () value value) :
    p.correspondence.Actions () (Pairs p.correspondence.Values p.correspondence.Same)
      (machine.run globals) (machine'.run globals) := by
  obtain ⟨top, others⟩ := List.forall₂_cons.1 routines
  rw [Machine.run, Machine.run, externals]
  split
  · exact Correspondence.Actions.refuse rfl
  · refine Correspondence.Actions.bind (Actions.install routines) fun _ program _ same => ?_
    cases same
    have rows : Rows p.correspondence.Values () globals globals :=
      Lists.refl_of _ fun value member => known value (Array.mem_toList_iff.1 member)
    have slots := Rows.topSlots machine.top.frameSize rows
    rw [top.same]
    refine Correspondence.Actions.bind (Framing.newFrame none slots) fun _ frame _ same => ?_
    cases same
    refine Correspondence.Actions.bind (Actions.execute may program frame top.known top.spanned) ?_
    exact fun _ _ _ values => Correspondence.Actions.pure ⟨values, rfl⟩

/-! ### From one comparison to another -/

/-- What is known in one comparison is known in the other, once the depths have changed. -/
structure Transfers (p q : Comparison) (change : Nat → Nat) : Prop where
  limits {limit limit' : Nat} : p.limits limit limit' → q.limits limit limit'
  depths {depth depth' : Nat} : p.depths depth depth' → q.depths (change depth) (change depth')
  pending : p.pending → q.pending
  abandons {failure : Failure} : p.abandons failure → q.abandons failure
  spans {span : Option Span} : p.spans span → q.spans span

section Transfers

variable {change : Nat → Nat} (transfers : p.Transfers q change)

include transfers

theorem Transfers.carries : p.correspondence.Carries q.correspondence () () :=
  p.identifies.carries q.identifies transfers.pending transfers.spans

theorem Transfers.options {option option' : Option Value}
    (options : Options p.correspondence.Values () option option') :
    Options q.correspondence.Values () option option' := by
  cases options with
  | some values => exact .some (values.carry transfers.carries)
  | none => exact .none

theorem Transfers.memories (memories : p.correspondence.memories () memory memory') :
    q.correspondence.memories () { memory with depth := change memory.depth }
      { memory' with depth := change memory'.depth } := by
  have stores : p.Stores (p.correspondence.Values ()) memory memory' := memories
  refine ⟨stores.stamps, transfers.depths stores.depths, ?_, ?_⟩
  · refine stores.programs.imp fun _ _ routines => routines.imp fun _ _ routine => ?_
    exact routine.imp transfers.limits transfers.spans fun values => values.carry transfers.carries
  · exact stores.framewise.imp fun _ _ frames => frames.imp fun values =>
      values.carry transfers.carries

theorem Transfers.ends {ended ended' : Outcome Value × Store}
    (ends : p.correspondence.Ends () p.correspondence.Values ended ended') :
    q.correspondence.Ends () q.correspondence.Values
      (ended.1, { ended.2 with depth := change ended.2.depth })
      (ended'.1, { ended'.2 with depth := change ended'.2.depth }) := by
  obtain ⟨outcome, memory⟩ := ended
  obtain ⟨outcome', memory'⟩ := ended'
  obtain ⟨failure, failed, abandons⟩ | ⟨_, later, memories, outcomes⟩ := ends
  · exact .inl ⟨failure, failed, transfers.abandons abandons⟩
  · refine .inr ⟨(), le_rfl, transfers.memories memories, ?_⟩
    cases outcomes with
    | ok values => exact .ok (values.carry transfers.carries)
    | error failures => exact .error (failures.carry transfers.carries)

end Transfers

/-- What one comparison says around a call follows from what the other says inside it. -/
structure Descends (p q : Comparison) : Prop where
  callable : q.callable
  enters : p.Transfers q (· + 1)
  leaves : q.Transfers p (· - 1)
  /-- Where the first run refuses the call, it is abandoned or the second does the same. -/
  refused {limit limit' depth depth' : Nat} : p.limits limit limit' → p.depths depth depth' →
    limit ≤ depth → p.abandons (.ofFault (.callDepthExceeded limit)) ∨
      limit = limit' ∧ depth = depth'
  admitted {limit limit' depth depth' : Nat} : p.limits limit limit' → p.depths depth depth' →
    depth < limit → depth' < limit' ∧ ∀ {calling calling'},
      p.correspondence.Calls () calling calling' → q.correspondence.Calls () calling calling'

theorem Descends.invoke (descends : p.Descends q) {routine routine' : Routine}
    (routines : p.Routines (p.correspondence.Values ()) routine routine')
    (program parent : Nat) {this this' : Function} {right right' : Value}
    {left left' : Option Value} (functions : p.correspondence.Functions () this this')
    (rights : p.correspondence.Values () right right')
    (lefts : Options p.correspondence.Values () left left') :
    p.correspondence.Actions () p.correspondence.Values
      (routine.invoke program parent this right left)
      (routine'.invoke program parent this' right' left') := by
  intro _ _ calling calling' calls memory memory' memories
  have depths : p.depths memory.depth memory'.depth := Stores.depths memories
  rw [routines.same, Routine.invoke, Routine.invoke]
  by_cases reached : routine.limit ≤ memory.depth
  · rw [Action.nested_of_reached reached]
    obtain abandons | ⟨sameLimit, sameDepth⟩ := descends.refused routines.limits depths reached
    · exact .inl ⟨_, rfl, abandons⟩
    · have reached' : routine'.limit ≤ memory'.depth := sameLimit ▸ sameDepth ▸ reached
      rw [Routine.withLimit, Action.nested_of_reached reached']
      exact .inr ⟨(), le_rfl, memories,
        .error (.ofFault (congrArg Fault.callDepthExceeded sameLimit))⟩
  · have below := Nat.lt_of_not_le reached
    obtain ⟨below', inner⟩ := descends.admitted routines.limits depths below
    have carries := descends.enters.carries
    have body := Actions.activation descends.callable program parent
      (routines.known.imp fun values => values.carry carries)
      (fun step member => descends.enters.spans (routines.spanned step member))
      (functions.carry carries)
      (rights.carry carries) (descends.enters.options lefts)
    rw [Action.nested_of_below below, Routine.withLimit, Action.nested_of_below below']
    exact descends.leaves.ends (body le_rfl (inner calls) (descends.enters.memories memories))

theorem Descends.enter (descends : p.Descends q) : Enters p.correspondence := by
  intro _ stamp stamp' program block frame program' block' frame' same blocks _ _ right right' left
    left' rights lefts
  cases same
  obtain ⟨rfl, rfl, rfl⟩ := p.identifies.blocks.1 blocks
  rw [Installed.enter_eq, Installed.enter_eq]
  refine Correspondence.Actions.bind (Actions.routine program block) ?_
  intro _ _ routine routine' routines
  exact descends.invoke routines program frame (.mk rfl (.block blocks)) rights lefts

end Comparison

end PointFree
