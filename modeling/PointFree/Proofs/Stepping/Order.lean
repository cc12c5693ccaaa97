import PointFree.Proofs.Correspondence.Function
import PointFree.Proofs.Correspondence.Settled
import PointFree.Proofs.Stepping.Code
import PointFree.Proofs.Stepping.Frames

/-!
Contract: the machine and the interpreter in step.

Both have the same frames and the same blocks, and arrays hold nothing that still
takes a call. Functions are made in another order: the machine makes a function of an
operand of a train before it computes the next operand, the interpreter when all of
them are there. What lies between does not see the difference: a function that the machine
is ahead with is held until the interpreter has made its partner, and the two are linked
then. No frame and no function that the step between leaves behind can know of it.
-/

namespace PointFree.Stepping

open Correspondence

structure World where
  /-- The stamps of partners. -/
  links : List (Nat × Nat)
  /-- Stamps of functions that have no partner yet. -/
  held : List Nat
  libraries : List Library
  unique : ∀ first ∈ links, ∀ second ∈ links, first.1 = second.1 ↔ first.2 = second.2

/-- A held function finds no partner while it is held. -/
instance : Preorder World where
  le first second :=
    first.links ⊆ second.links ∧ first.held ⊆ second.held ∧
      first.libraries <+: second.libraries ∧
      ∀ link ∈ second.links, link.1 ∈ first.held → link ∈ first.links
  le_refl _ := ⟨List.Subset.refl _, List.Subset.refl _, List.prefix_rfl, fun _ member _ => member⟩
  le_trans _ _ _ first second :=
    ⟨List.Subset.trans first.1 second.1, List.Subset.trans first.2.1 second.2.1,
      first.2.2.1.trans second.2.2.1,
      fun link member isHeld =>
        first.2.2.2 link (second.2.2.2 link member (first.2.1 isHeld)) isHeld⟩

/-- Two functions become partners, and other functions are held from then on. -/
def World.link (W : World) (stamp stamp' : Nat) (held : List Nat)
    (fresh : ∀ link ∈ W.links, link.1 ≠ stamp ∧ link.2 ≠ stamp') : World where
  links := W.links ++ [(stamp, stamp')]
  held := held
  libraries := W.libraries
  unique := by
    intro first isFirst second isSecond
    obtain old | new := List.mem_append.1 isFirst
    · obtain old' | new' := List.mem_append.1 isSecond
      · exact W.unique first old second old'
      · cases List.mem_singleton.1 new'
        exact iff_of_false (fresh first old).1 (fresh first old).2
    · cases List.mem_singleton.1 new
      obtain old' | new' := List.mem_append.1 isSecond
      · exact iff_of_false (fresh second old').1.symm (fresh second old').2.symm
      · cases List.mem_singleton.1 new'
        exact iff_of_true rfl rfl

def World.hold (W : World) (stamp : Nat) : World :=
  { W with held := W.held ++ [stamp] }

def World.withLibrary (W : World) (library : Library) : World :=
  { W with libraries := W.libraries ++ [library] }

structure Stores (related : World → Value → Value → Prop) (W : World) (memory : Store)
    (memory' : Memory (Heap Bytecode)) : Prop where
  links : ∀ link ∈ W.links, link.1 < memory.nextStamp ∧ link.2 < memory'.nextStamp
  held : ∀ stamp ∈ W.held, stamp < memory.nextStamp
  depth : memory.depth = memory'.depth
  routines : memory.heap.programs.toList = W.libraries.map Library.routines
  codes : memory'.heap.programs.toList =
    W.libraries.map fun library => ⟨library.program, library.limit⟩
  vocabularies : ∀ library ∈ W.libraries, ∀ entry ∈ library.vocabulary.entries,
    related W entry.2 entry.2
  frames : List.Forall₂ (Frames (related W)) memory.heap.frames.toList memory'.heap.frames.toList

theorem Stores.fresh {related : World → Value → Value → Prop} {W : World} {memory : Store}
    {memory' : Memory (Heap Bytecode)} (stores : Stores related W memory memory') :
    ∀ link ∈ W.links, link.1 ≠ memory.nextStamp ∧ link.2 ≠ memory'.nextStamp :=
  fun link member =>
    ⟨Nat.ne_of_lt (stores.links link member).1, Nat.ne_of_lt (stores.links link member).2⟩

theorem World.le_link {W : World} {stamp stamp' : Nat}
    (fresh : ∀ link ∈ W.links, link.1 ≠ stamp ∧ link.2 ≠ stamp') (free : stamp ∉ W.held) :
    W ≤ W.link stamp stamp' W.held fresh := by
  refine ⟨List.subset_append_left .., List.Subset.refl _, List.prefix_rfl, ?_⟩
  intro link member isHeld
  obtain old | new := List.mem_append.1 member
  · exact old
  · cases List.mem_singleton.1 new
    exact absurd isHeld free

/-- The machine against the interpreter. -/
def stepping : Correspondence (Heap (List Routine)) (Heap Bytecode) where
  toWording := .literal
  World := World
  order := inferInstance
  stamps W stamp stamp' := (stamp, stamp') ∈ W.links
  blocks W program block frame program' block' frame' :=
    program = program' ∧ block = block' ∧ frame = frame' ∧
      ∃ library, W.libraries[program]? = some library ∧ block < library.tasks.length
  stores := Stores
  pending := False
  stamps_mono later link := later.1 link
  blocks_mono later blocks := by
    obtain ⟨sameProgram, sameBlock, sameFrame, library, isLibrary, inside⟩ := blocks
    exact ⟨sameProgram, sameBlock, sameFrame, library,
      getElem?_mono later.2.2.1 isLibrary, inside⟩
  stamps_unique {W _ _ _ _} first second := W.unique _ first _ second
  stores_fresh {related W memory memory'} mono stores := by
    have free : memory.nextStamp ∉ W.held := fun isHeld =>
      Nat.lt_irrefl _ (stores.held _ isHeld)
    have later := World.le_link stores.fresh free
    refine ⟨W.link memory.nextStamp memory'.nextStamp W.held stores.fresh, later,
      List.mem_append_right _ (.head _), ?_⟩
    refine { stores with links := ?_, held := ?_, vocabularies := ?_, frames := ?_ }
    · intro link member
      obtain old | new := List.mem_append.1 member
      · exact ⟨Nat.lt_succ_of_lt (stores.links link old).1,
          Nat.lt_succ_of_lt (stores.links link old).2⟩
      · cases List.mem_singleton.1 new
        exact ⟨Nat.lt_succ_self _, Nat.lt_succ_self _⟩
    · exact fun stamp isHeld => Nat.lt_succ_of_lt (stores.held stamp isHeld)
    · exact fun library member entry isEntry =>
        mono later (stores.vocabularies library member entry isEntry)
    · exact stores.frames.imp fun _ _ frames => frames.imp (mono later)
  blocks_text blocks := by
    obtain ⟨rfl, rfl, rfl, _⟩ := blocks
    exact Wording.literal.texts_refl _

instance : Housing stepping where
  framewise memories := Stores.frames memories
  reframe memories frames :=
    have stores : Stores stepping.Values _ _ _ := memories
    { stores with frames := frames }
  faults _ := rfl

instance : Counting stepping where
  depth memories := Stores.depth memories
  redepth change memories :=
    { memories with depth := congrArg change (Stores.depth memories) }

theorem World.le_hold (V : World) (stamp : Nat) : V ≤ V.hold stamp :=
  ⟨List.Subset.refl _, List.subset_append_left .., List.prefix_rfl, fun _ member _ => member⟩

/-- A held function finds its partner. -/
theorem World.le_release {V V' : World} {stamp stamp' : Nat} (later : V.hold stamp ≤ V')
    (fresh : ∀ link ∈ V'.links, link.1 ≠ stamp ∧ link.2 ≠ stamp') (free : stamp ∉ V.held) :
    V ≤ V'.link stamp stamp' V.held fresh := by
  obtain ⟨links, held, libraries, closed⟩ := later
  refine ⟨List.Subset.trans links (List.subset_append_left ..), List.Subset.refl _, libraries, ?_⟩
  intro link member isHeld
  obtain old | new := List.mem_append.1 member
  · exact closed link old (List.mem_append_left _ isHeld)
  · cases List.mem_singleton.1 new
    exact absurd isHeld free

theorem World.carries_link {V : World} {stamp stamp' : Nat} (held : List Nat)
    (fresh : ∀ link ∈ V.links, link.1 ≠ stamp ∧ link.2 ≠ stamp') :
    stepping.Carries stepping V (V.link stamp stamp' held fresh) :=
  .of_stamps (fun linked => List.mem_append_left _ linked) fun blocks => blocks

variable {V V' : World} {memory after : Store} {memory' after' : Memory (Heap Bytecode)}

/-- The machine has made a function that the interpreter has not. -/
theorem Stores.hold (memories : stepping.memories V memory memory') :
    stepping.memories (V.hold memory.nextStamp)
      { memory with nextStamp := memory.nextStamp + 1 } memory' := by
  have stores : Stores stepping.Values V memory memory' := memories
  have carries : stepping.Carries stepping V (V.hold memory.nextStamp) := .of_stamps id id
  refine { stores with links := ?_, held := ?_, vocabularies := ?_, frames := ?_ }
  · intro link member
    exact ⟨Nat.lt_succ_of_lt (stores.links link member).1, (stores.links link member).2⟩
  · intro stamp member
    obtain old | new := List.mem_append.1 member
    · exact Nat.lt_succ_of_lt (stores.held stamp old)
    · cases List.mem_singleton.1 new
      exact Nat.lt_succ_self _
  · intro library member entry isEntry
    exact (stores.vocabularies library member entry isEntry).carry carries
  · exact stores.frames.imp fun _ _ frames => frames.imp fun values => values.carry carries

/-- A function that the interpreter makes now is no partner of another. -/
theorem Stores.unlinked (memories : stepping.memories V memory memory')
    (later : V.hold memory.nextStamp ≤ V') (memories' : stepping.memories V' after after') :
    ∀ link ∈ V'.links, link.1 ≠ memory.nextStamp ∧ link.2 ≠ after'.nextStamp := by
  have stores : Stores stepping.Values V memory memory' := memories
  have stores' : Stores stepping.Values V' after after' := memories'
  obtain ⟨_, _, _, closed⟩ := later
  intro link member
  refine ⟨fun same => ?_, Nat.ne_of_lt (stores'.links link member).2⟩
  have isHeld : link.1 ∈ (V.hold memory.nextStamp).held :=
    List.mem_append_right _ (same ▸ .head _)
  exact (stores.fresh link (closed link member isHeld)).1 same

/-- The interpreter has made the function that was held. -/
theorem Stores.release {stamp : Nat} {held : List Nat}
    (memories : stepping.memories V' after after') (isHeld : stamp ∈ V'.held)
    (others : held ⊆ V'.held)
    (fresh : ∀ link ∈ V'.links, link.1 ≠ stamp ∧ link.2 ≠ after'.nextStamp) :
    stepping.memories (V'.link stamp after'.nextStamp held fresh) after
      { after' with nextStamp := after'.nextStamp + 1 } := by
  have stores : Stores stepping.Values V' after after' := memories
  have carries := World.carries_link held fresh
  refine { stores with links := ?_, held := ?_, vocabularies := ?_, frames := ?_ }
  · intro link member
    obtain old | new := List.mem_append.1 member
    · exact ⟨(stores.links link old).1, Nat.lt_succ_of_lt (stores.links link old).2⟩
    · cases List.mem_singleton.1 new
      exact ⟨stores.held stamp isHeld, Nat.lt_succ_self _⟩
  · exact fun other member => stores.held other (others member)
  · intro library member entry isEntry
    exact (stores.vocabularies library member entry isEntry).carry carries
  · exact stores.frames.imp fun _ _ frames => frames.imp fun values => values.carry carries

/-! ### Making functions later -/

section Later

variable {β β' γ γ' : Type} {A : stepping.World → γ → γ' → Prop}
variable {B : stepping.World → β → β' → Prop} {W : World} {content content' value value' : Value}
variable {action : Run β} {action' : Action (Heap Bytecode) β'}
variable (next : Function → β → Run γ) (next' : Function → β' → Action (Heap Bytecode) γ')

theorem constant_eq {H : Type} {text : String} {calling : Call H} {memory : Memory H}
    (written : content.text = (pure text : Action H String)) :
    Function.constant content calling memory =
      (.ok (.mk memory.nextStamp (.constant content text)),
        { memory with nextStamp := memory.nextStamp + 1 }) := by
  rw [Function.constant, written, pure_bind]
  rfl

theorem Actions.constantLater (values : stepping.Values W content content')
    (carried : ∀ ⦃V U result result'⦄, stepping.Carries stepping V U → B V result result' →
      B U result result')
    (actions : stepping.Actions W B action action')
    (rest : ∀ ⦃V⦄, W ≤ V → ∀ ⦃function function' result result'⦄,
      stepping.Functions V function function' → B V result result' →
      stepping.Actions V A (next function result) (next' function' result')) :
    stepping.Actions W A
      (do
        let function ← Function.constant content
        let result ← action
        next function result)
      (do
        let result ← action'
        let function ← Function.constant content'
        next' function result) := by
  intro V later calling calling' calls memory memory' memories
  obtain ⟨settled, settled'⟩ := values.isSettled id
  obtain ⟨text, written⟩ := settled.text (H := Heap (List Routine))
  obtain ⟨text', written'⟩ := settled'.text (H := Heap Bytecode)
  obtain ⟨_, _, _, texts⟩ := (values.text later calls memories).meets
  rw [written, written'] at texts
  obtain ⟨texts⟩ := texts
  have aside := World.le_hold V memory.nextStamp
  obtain ⟨T, during, between, outcomes⟩ :=
    (actions (le_trans later aside) (calls.mono aside) (Stores.hold memories)).meets
  rw [Action.bind_of_ok (constant_eq written)]
  generalize one : action calling _ = ended at outcomes between
  generalize two : action' calling' memory' = ended' at outcomes between
  obtain ⟨outcome, stored⟩ := ended
  obtain ⟨outcome', stored'⟩ := ended'
  cases outcomes with
  | error failures =>
      rw [Action.bind_of_error one, Action.bind_of_error two]
      exact .inr ⟨T, le_trans aside during, between, .error failures⟩
  | ok related =>
      rw [Action.bind_of_ok one, Action.bind_of_ok two, Action.bind_of_ok (constant_eq written')]
      have fresh := Stores.unlinked memories during between
      have free : memory.nextStamp ∉ V.held := fun isHeld =>
        Nat.lt_irrefl _ (Stores.held memories _ isHeld)
      have grown := World.le_release during fresh free
      have since := le_trans later grown
      have isHeld : memory.nextStamp ∈ T.held :=
        during.2.1 (List.mem_append_right _ (.head _))
      have others : V.held ⊆ T.held :=
        List.Subset.trans (List.subset_append_left ..) during.2.1
      have functions : stepping.Functions (T.link memory.nextStamp stored'.nextStamp V.held fresh)
          (.mk memory.nextStamp (.constant content text))
          (.mk stored'.nextStamp (.constant content' text')) :=
        .mk (List.mem_append_right _ (.head _)) (.constant (values.mono since) texts)
      exact (rest since functions (carried (World.carries_link V.held fresh) related) le_rfl
        (calls.mono grown) (Stores.release between isHeld others fresh)).back grown

/-- The function of a value is made before an action in the one and after it in the other. -/
theorem Actions.toFunctionLater (values : stepping.Values W value value')
    (carried : ∀ ⦃V U result result'⦄, stepping.Carries stepping V U → B V result result' →
      B U result result')
    (actions : stepping.Actions W B action action')
    (rest : ∀ ⦃V⦄, W ≤ V → ∀ ⦃function function' result result'⦄,
      stepping.Functions V function function' → B V result result' →
      stepping.Actions V A (next function result) (next' function' result')) :
    stepping.Actions W A
      (do
        let function ← value.toFunction
        let result ← action
        next function result)
      (do
        let result ← action'
        let function ← value'.toFunction
        next' function result) := by
  cases values with
  | number number =>
      exact Actions.constantLater next next' (.number number) carried actions rest
  | character letter =>
      exact Actions.constantLater next next' (.character letter) carried actions rest
  | array arrays => exact Actions.constantLater next next' (.array arrays) carried actions rest
  | function functions =>
      rw [Value.toFunction, pure_bind]
      refine Actions.bind actions fun later _ result' related => ?_
      rw [Value.toFunction, pure_bind]
      exact rest later (functions.mono later) related

end Later

/-! ### Trains -/

section Trains

variable {W : World} {right right' : Value} {middle left : Run Value}
variable {middle' left' : Action (Heap Bytecode) Value}

theorem Actions.atop (rights : stepping.Values W right right')
    (lefts : stepping.Actions W stepping.Values left left') :
    stepping.Actions W stepping.Values
      (do
        let inner ← right.toFunction
        let leftOperand ← left
        let outer ← leftOperand.toFunction
        let function ← Action.make (.atop outer inner)
        return .function function)
      (do
        let leftOperand ← left'
        let outer ← leftOperand.toFunction
        let inner ← right'.toFunction
        let function ← Action.make (.atop outer inner)
        return .function function) := by
  have outers := Actions.bind lefts fun _ _ _ firsts => firsts.toFunction
  have made := Actions.toFunctionLater (A := stepping.Values)
    (fun inner outer => do
      let function ← Action.make (.atop outer inner)
      return .function function)
    (fun inner outer => do
      let function ← Action.make (.atop outer inner)
      return .function function)
    rights (fun _ _ _ _ carries functions => functions.carry carries) outers
    fun _ _ _ _ _ _ inners outers => Actions.function (Actions.make (.atop outers inners))
  simpa only [bind_assoc] using made

/-- What a fork does after its right operand, but for that operand's function. -/
theorem Actions.operands (middles : stepping.Actions W stepping.Values middle middle')
    (lefts : stepping.Actions W stepping.Values left left') :
    stepping.Actions W (Pairs stepping.Functions stepping.Functions)
      (do
        let middleOperand ← middle
        let between ← middleOperand.toFunction
        let leftOperand ← left
        let before ← leftOperand.toFunction
        return (between, before))
      (do
        let middleOperand ← middle'
        let leftOperand ← left'
        let before ← leftOperand.toFunction
        let between ← middleOperand.toFunction
        return (between, before)) := by
  refine Actions.bind middles fun later _ _ seconds => ?_
  have befores := Actions.bind (lefts.mono later) fun _ _ _ firsts => firsts.toFunction
  have made := Actions.toFunctionLater (A := Pairs stepping.Functions stepping.Functions)
    (fun between before => pure (between, before)) (fun between before => pure (between, before))
    seconds (fun _ _ _ _ carries functions => functions.carry carries) befores
    fun _ _ _ _ _ _ betweens befores => Actions.pure ⟨betweens, befores⟩
  simpa only [bind_assoc] using made

theorem Actions.fork (rights : stepping.Values W right right')
    (middles : stepping.Actions W stepping.Values middle middle')
    (lefts : stepping.Actions W stepping.Values left left') :
    stepping.Actions W stepping.Values
      (do
        let after ← right.toFunction
        let middleOperand ← middle
        let between ← middleOperand.toFunction
        let leftOperand ← left
        let before ← leftOperand.toFunction
        let function ← Action.make (.fork before between after)
        return .function function)
      (do
        let middleOperand ← middle'
        let leftOperand ← left'
        let before ← leftOperand.toFunction
        let between ← middleOperand.toFunction
        let after ← right'.toFunction
        let function ← Action.make (.fork before between after)
        return .function function) := by
  have made := Actions.toFunctionLater (A := stepping.Values)
    (fun after pair => do
      let function ← Action.make (.fork pair.2 pair.1 after)
      return .function function)
    (fun after pair => do
      let function ← Action.make (.fork pair.2 pair.1 after)
      return .function function)
    rights (fun _ _ _ _ carries pairs => ⟨pairs.1.carry carries, pairs.2.carry carries⟩)
    (Actions.operands middles lefts)
    fun _ _ _ _ _ _ afters pairs =>
      Actions.function (Actions.make (.fork pairs.2 pairs.1 afters))
  simpa only [bind_assoc, pure_bind] using made

end Trains

end PointFree.Stepping
