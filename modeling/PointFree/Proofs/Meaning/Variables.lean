import PointFree.Proofs.Compilation.Loading
import PointFree.Proofs.Correspondence.Loop
import PointFree.Proofs.Heap
import PointFree.Proofs.Meaning.Evaluation

/-!
Contract: frames and environments, and the variables in them.

The machine and the evaluator make functions and activations in step, so functions
have the same stamps on both sides and the frame of an activation has the number of
its environment. A world records for each frame the scopes of its block and of the
blocks around it, and the programs and literals met so far. Frames correspond to
environments when their slots hold, in order, what the environment knows by name.

An address that a name was resolved to leads, from a frame outward, to the frame of
the environment in which the evaluator finds the name, and to a slot that holds what
the name means there. So reading and writing variables goes the same way.
-/

namespace PointFree

namespace Meaning

structure World where
  /-- For each frame the scope of its block and the scopes around it. -/
  chains : List (Scope × List Scope)
  libraries : List Library
  /-- Each literal with the program it belongs to. -/
  literals : List (Literal × Nat)

instance : Preorder World where
  le first second :=
    first.chains <+: second.chains ∧ first.libraries <+: second.libraries ∧
      first.literals <+: second.literals
  le_refl _ := ⟨List.prefix_rfl, List.prefix_rfl, List.prefix_rfl⟩
  le_trans _ _ _ first second :=
    ⟨first.1.trans second.1, first.2.1.trans second.2.1, first.2.2.trans second.2.2⟩

/-- The block of a started program and the literal it was compiled from, met in a
frame that has the scopes around the literal. -/
structure Partners (W : World) (program block frame number environment : Nat) : Prop where
  same : frame = environment
  known : ∃ library literal scope outer,
    W.libraries[program]? = some library ∧ W.literals[number]? = some (literal, program) ∧
    W.chains[frame]? = some (scope, outer) ∧
    library.tasks[block]? = some ⟨literal.body, scope :: outer, []⟩ ∧
    literal.limit = library.limit

theorem Partners.mono {W V : World} {program block frame number environment : Nat}
    (later : W ≤ V) (partners : Partners W program block frame number environment) :
    Partners V program block frame number environment := by
  obtain ⟨same, library, literal, scope, outer, isLibrary, isLiteral, isChain, isTask, limit⟩ :=
    partners
  exact ⟨same, library, literal, scope, outer, getElem?_mono later.2.1 isLibrary,
    getElem?_mono later.2.2 isLiteral, getElem?_mono later.1 isChain, isTask, limit⟩

/-- The frame around a frame, with the scopes around its block. -/
inductive Linked (W : World) (index : Nat) : Option Nat → List Scope → Prop where
  | top : Linked W index none []
  | inside {parent : Nat} {scope : Scope} {outer : List Scope} :
      parent < index → W.chains[parent]? = some (scope, outer) →
      Linked W index (some parent) (scope :: outer)

theorem Linked.mono {W V : World} {index : Nat} {parent : Option Nat} {outer : List Scope}
    (later : W ≤ V) (linked : Linked W index parent outer) : Linked V index parent outer := by
  cases linked with
  | top => exact .top
  | inside before chain => exact .inside before (getElem?_mono later.1 chain)

/-- A frame and an environment with the same variables. -/
structure Frames (related : Value → Value → Prop) (scope : Scope) (frame : Frame)
    (environment : Environment) : Prop where
  slots : List.Forall₂ (Option.Rel related) frame.slots.toList
    (environment.this :: environment.right :: environment.left ::
      environment.bindings.map Prod.snd)
  names : environment.names = scope
  distinct : scope.Nodup
  parent : frame.parent = environment.parent

/-- The same words with corresponding values. -/
def Vocabularies (related : Value → Value → Prop) (vocabulary vocabulary' : Vocabulary) : Prop :=
  List.Forall₂ (fun entry entry' => entry.1 = entry'.1 ∧ related entry.2 entry'.2)
    vocabulary.entries.toList vocabulary'.entries.toList

structure Stores (related : World → Value → Value → Prop) (W : World)
    (memory : Memory (Heap (List Routine))) (memory' : Memory Lexical) : Prop where
  stamps : memory.nextStamp = memory'.nextStamp
  depth : memory.depth = memory'.depth
  programs : memory.heap.programs.toList = W.libraries.map Library.routines
  literals : memory'.heap.literals.toList = W.literals.map Prod.fst
  vocabularies : ∀ (number : Nat) (literal : Literal) (program : Nat),
    W.literals[number]? = some (literal, program) →
      ∃ library, W.libraries[program]? = some library ∧
        Vocabularies (related W) library.vocabulary literal.vocabulary
  frames : memory.heap.frames.size = W.chains.length
  environments : memory'.heap.environments.size = W.chains.length
  frame : ∀ (index : Nat) (scope : Scope) (outer : List Scope),
    W.chains[index]? = some (scope, outer) →
      ∃ frame environment, memory.heap.frames[index]? = some frame ∧
        memory'.heap.environments[index]? = some environment ∧
        Frames (related W) scope frame environment ∧ Linked W index frame.parent outer

/-- The machine, on any heap that keeps frames, against the evaluator. Texts may differ,
because a block has a number in the one and none in the other; failures are of one kind,
and the machine never misses a variable. -/
def lexical (H : Type) [Activations H] [Installed H] [Framed H] : Correspondence H Lexical where
  World := World
  order := inferInstance
  stamps _ stamp stamp' := stamp = stamp'
  blocks W program block frame number _ environment :=
    Partners W program block frame number environment
  stores related W memory memory' :=
    Stores related W (memory.map Framed.core) memory' ∧ Framed.IsTidy memory.heap
  texts _ _ := True
  faults fault fault' := fault.kind = fault'.kind ∧ fault.isAddressing = false
  pending := True
  stamps_mono _ same := same
  blocks_mono := Partners.mono
  stamps_unique first second := by rw [first, second]
  stores_fresh {related W memory memory'} _ stores := by
    obtain ⟨stores, tidy⟩ := stores
    exact ⟨W, le_rfl, stores.stamps, { stores with stamps := congrArg (· + 1) stores.stamps }, tidy⟩
  texts_refl _ := trivial
  texts_append _ _ := trivial
  blocks_text _ := trivial
  faults_refl _ inside := ⟨rfl, inside⟩
  faults_noInverse _ := ⟨rfl, rfl⟩
  faults_asserted _ := ⟨rfl, rfl⟩
  faults_kind faults := faults.1

end Meaning

/-! ### Addresses -/

namespace Scope

theorem slot?_eq_some {scope : Scope} {name : String} {slot : Nat}
    (found : scope.slot? name = some slot) :
    ∃ index : Nat, slot = index + reservedSlots ∧ scope[index]? = some name := by
  obtain ⟨index, isIndex, rfl⟩ := Option.map_eq_some_iff.1 found
  obtain ⟨inside, here, _⟩ := List.idxOf?_eq_some_iff.1 isIndex
  exact ⟨index, rfl, List.getElem?_eq_some_iff.2 ⟨inside, here⟩⟩

theorem not_mem_of_slot?_eq_none {scope : Scope} {name : String}
    (missing : scope.slot? name = none) : name ∉ scope :=
  List.idxOf?_eq_none_iff.1 (Option.map_eq_none_iff.1 missing)

/-- A name means a variable of its own block, or what it means around the block. -/
theorem resolve?_cons_eq_some {name : String} {scope : Scope} {outer : List Scope}
    {depth slot : Nat} (resolves : resolve? name (scope :: outer) = some (depth, slot)) :
    (depth = 0 ∧ ∃ index : Nat, slot = index + reservedSlots ∧ scope[index]? = some name) ∨
      name ∉ scope ∧ ∃ further, depth = further + 1 ∧
        resolve? name outer = some (further, slot) := by
  rw [resolve?] at resolves
  split at resolves
  · next found =>
      cases resolves
      exact .inl ⟨rfl, slot?_eq_some found⟩
  · next missing =>
      obtain ⟨⟨further, _⟩, around, same⟩ := Option.map_eq_some_iff.1 resolves
      cases same
      exact .inr ⟨not_mem_of_slot?_eq_none missing, further, rfl, around⟩

end Scope

namespace Environment

theorem lookup_of_getElem? {bindings : List (String × Option Value)} {index : Nat} {name : String}
    {content : Option Value} (distinct : (bindings.map Prod.fst).Nodup)
    (here : bindings[index]? = some (name, content)) : bindings.lookup name = some content := by
  induction bindings generalizing index with
  | nil => cases here
  | cons first rest inductionHypothesis =>
      rw [List.map_cons, List.nodup_cons] at distinct
      cases index with
      | zero =>
          cases here
          exact List.lookup_cons_self
      | succ index =>
          have later : name ∈ rest.map Prod.fst :=
            List.mem_map.2 ⟨_, List.mem_of_getElem? here, rfl⟩
          have different : (name == first.1) = false :=
            beq_eq_false_iff_ne.2 fun same => distinct.1 (same ▸ later)
          rw [List.lookup_cons, different]
          exact inductionHypothesis distinct.2 here

/-- The names with their values, one of them with a new value. -/
theorem map_snd_bind {bindings : List (String × Option Value)} {index : Nat} {name : String}
    (distinct : (bindings.map Prod.fst).Nodup)
    (here : (bindings.map Prod.fst)[index]? = some name) (value : Value) :
    (bindings.map fun binding =>
      if binding.1 = name then (name, some value) else binding).map Prod.snd =
        (bindings.map Prod.snd).set index (some value) := by
  induction bindings generalizing index with
  | nil => rfl
  | cons first rest inductionHypothesis =>
      rw [List.map_cons, List.nodup_cons] at distinct
      cases index with
      | zero =>
          cases here
          rw [List.map_cons, List.map_cons, if_pos rfl, List.map_cons, List.set_cons_zero]
          refine congrArg (some value :: ·) (congrArg (List.map Prod.snd) ?_)
          refine (List.map_congr_left fun binding member => ?_).trans (List.map_id rest)
          exact if_neg fun (same : binding.1 = first.1) =>
            distinct.1 (same ▸ List.mem_map_of_mem member)
      | succ index =>
          have later : name ∈ rest.map Prod.fst := List.mem_of_getElem? here
          have different : ¬first.1 = name := fun same => distinct.1 (same ▸ later)
          rw [List.map_cons, List.map_cons, if_neg different,
            List.map_cons, List.set_cons_succ, inductionHypothesis distinct.2 here]

theorem names_bind (environment : Environment) (name : String) (value : Value) :
    (environment.bind name value).names = environment.names := by
  rw [names, names, bind, List.map_map]
  refine List.map_congr_left fun binding _ => ?_
  dsimp only [Function.comp_apply]
  split
  · next same => exact same.symm
  · rfl

end Environment

/-! ### Steps of the actions -/

namespace Lexical

variable {memory : Memory Lexical} {calling : Call Lexical} {declared : List String}
variable {environment owner : Nat} {name : String}

theorem readImplicit_eq (variant : Implicit) :
    readImplicit environment variant calling memory =
      ((memory.heap.implicit? environment variant).elim (refuse (.unset 0 0)) .ok, memory) := by
  have first : (get : Action Lexical _) calling memory = (.ok memory, memory) := rfl
  rw [readImplicit, Action.bind_of_ok first]
  cases memory.heap.implicit? environment variant with
  | none => rfl
  | some value => rfl

theorem visible_of_visible?
    (isOwner : memory.heap.visible? declared environment name = some owner) :
    visible declared environment name calling memory = (.ok owner, memory) := by
  have first : (get : Action Lexical _) calling memory = (.ok memory, memory) := rfl
  rw [visible, Action.bind_of_ok first, isOwner]
  rfl

theorem read_of_visible? (isOwner : memory.heap.visible? declared environment name = some owner) :
    read declared environment name calling memory =
      ((memory.heap.value? owner name).elim (refuse (.unset 0 0)) .ok, memory) := by
  rw [read, Action.bind_of_ok (visible_of_visible? isOwner)]
  have second : (get : Action Lexical _) calling memory = (.ok memory, memory) := rfl
  rw [Action.bind_of_ok second]
  cases memory.heap.value? owner name with
  | none => rfl
  | some value => rfl

theorem write_of_visible? (fresh : Bool) {value : Value}
    (isOwner : memory.heap.visible? declared environment name = some owner) :
    write fresh declared environment name value calling memory =
      if !fresh && (memory.heap.value? owner name).isNone then
        (refuse (.updatedBeforeDefined 0 0), memory)
      else (.ok (), { memory with heap := memory.heap.bind owner name value }) := by
  rw [write, Action.bind_of_ok (visible_of_visible? isOwner)]
  have second : (get : Action Lexical _) calling memory = (.ok memory, memory) := rfl
  rw [Action.bind_of_ok second]
  split
  · rfl
  · rfl

theorem visible_of_invisible
    (nowhere : memory.heap.visible? declared environment name = none) :
    visible declared environment name calling memory = (refuse (.notDefined name), memory) := by
  have first : (get : Action Lexical _) calling memory = (.ok memory, memory) := rfl
  rw [visible, Action.bind_of_ok first, nowhere]
  rfl

theorem read_of_invisible (nowhere : memory.heap.visible? declared environment name = none) :
    read declared environment name calling memory = (refuse (.notDefined name), memory) :=
  Action.bind_of_error (visible_of_invisible nowhere)

theorem write_of_invisible (fresh : Bool) {value : Value}
    (nowhere : memory.heap.visible? declared environment name = none) :
    write fresh declared environment name value calling memory =
      (refuse (.notDefined name), memory) :=
  Action.bind_of_error (visible_of_invisible nowhere)

theorem literal_of_getElem? {number : Nat} {found : Literal}
    (isLiteral : memory.heap.literals[number]? = some found) :
    literal number calling memory = (.ok found, memory) := by
  have first : (get : Action Lexical _) calling memory = (.ok memory, memory) := rfl
  rw [literal, Action.bind_of_ok first, isLiteral]
  rfl

end Lexical

namespace Meaning

variable {memory : Memory (Heap (List Routine))} {memory' : Memory Lexical} {V : World}
variable {related : World → Value → Value → Prop}

/-- Where an address and a name both lead. -/
structure Owner (V : World) (memory : Memory (Heap (List Routine))) (frame depth slot : Nat)
    (name : String) (owner : Nat) : Prop where
  ancestor : memory.heap.ancestor? frame depth = some owner
  holds : ∃ scope outer, V.chains[owner]? = some (scope, outer) ∧
    ∃ index : Nat, slot = index + reservedSlots ∧ scope[index]? = some name

theorem Owner.outward {frame parent depth slot owner : Nat} {name : String} {found : Frame}
    (isFrame : memory.heap.frames[frame]? = some found) (isParent : found.parent = some parent)
    (further : Owner V memory parent depth slot name owner) :
    Owner V memory frame (depth + 1) slot name owner := by
  refine ⟨?_, further.holds⟩
  obtain ⟨slots, _⟩ := found
  cases isParent
  rw [Heap.ancestor?, isFrame]
  exact further.ancestor

theorem Stores.owner (stores : Stores related V memory memory') {name : String}
    {frame depth slot : Nat} {scope : Scope} {outer : List Scope}
    (chain : V.chains[frame]? = some (scope, outer))
    (resolves : Scope.resolve? name (scope :: outer) = some (depth, slot)) :
    ∃ owner, memory'.heap.owner? name frame = some owner ∧
      Owner V memory frame depth slot name owner := by
  induction outer generalizing frame scope depth with
  | nil =>
      obtain ⟨found, environment, _, isEnvironment, frames, _⟩ := stores.frame _ _ _ chain
      obtain ⟨rfl, index, rfl, here⟩ | ⟨_, _, _, missing⟩ := Scope.resolve?_cons_eq_some resolves
      · refine ⟨frame, ?_, rfl, scope, [], chain, index, rfl, here⟩
        rw [Lexical.owner?, isEnvironment]
        exact if_pos (frames.names ▸ List.mem_of_getElem? here)
      · cases missing
  | cons next outer inductionHypothesis =>
      obtain ⟨found, environment, isFrame, isEnvironment, frames, linked⟩ :=
        stores.frame _ _ _ chain
      obtain ⟨rfl, index, rfl, here⟩ | ⟨missing, further, rfl, around⟩ :=
        Scope.resolve?_cons_eq_some resolves
      · refine ⟨frame, ?_, rfl, scope, next :: outer, chain, index, rfl, here⟩
        rw [Lexical.owner?, isEnvironment]
        exact if_pos (frames.names ▸ List.mem_of_getElem? here)
      · generalize isParent : found.parent = parent at linked
        cases linked with
        | @inside parent _ _ before parentChain =>
            obtain ⟨owner, owns, isOwner⟩ := inductionHypothesis parentChain around
            refine ⟨owner, ?_, isOwner.outward isFrame isParent⟩
            rw [Lexical.owner?, isEnvironment]
            dsimp only
            rw [if_neg (frames.names ▸ missing), ← frames.parent, isParent]
            exact (if_pos before).trans owns

/-- The same for a name in a block of which only some declarations count. -/
theorem Stores.visible (stores : Stores related V memory memory') {name : String}
    {frame depth slot : Nat} {declared scope : Scope} {outer : List Scope}
    (chain : V.chains[frame]? = some (scope, outer)) (counts : declared <+: scope)
    (resolves : Scope.resolve? name (declared :: outer) = some (depth, slot)) :
    ∃ owner, memory'.heap.visible? declared frame name = some owner ∧
      Owner V memory frame depth slot name owner := by
  obtain ⟨found, environment, isFrame, isEnvironment, frames, linked⟩ := stores.frame _ _ _ chain
  obtain ⟨rfl, index, rfl, here⟩ | ⟨missing, further, rfl, around⟩ :=
    Scope.resolve?_cons_eq_some resolves
  · refine ⟨frame, if_pos (List.mem_of_getElem? here), rfl, scope, outer, chain, index, rfl, ?_⟩
    exact getElem?_mono counts here
  · generalize isParent : found.parent = parent at linked
    cases linked with
    | top => cases around
    | @inside parent _ _ before parentChain =>
        obtain ⟨owner, owns, isOwner⟩ := stores.owner parentChain around
        refine ⟨owner, ?_, isOwner.outward isFrame isParent⟩
        rw [Lexical.visible?, if_neg missing, isEnvironment, Option.bind_some, ← frames.parent,
          isParent]
        exact owns

/-! ### Contents -/

open Correspondence

/-- The slot and the name hold values that correspond, if they hold any. -/
theorem Owner.content {frame depth slot owner : Nat} {name : String}
    (stores : Stores related V memory memory')
    (isOwner : Owner V memory frame depth slot name owner) :
    ∃ content, memory.heap.slot? owner slot = some content ∧
      Option.Rel (related V) content (memory'.heap.value? owner name) := by
  obtain ⟨_, scope, outer, chain, index, rfl, here⟩ := isOwner
  obtain ⟨found, environment, isFrame, isEnvironment, frames, _⟩ :=
    stores.frame _ _ _ chain
  rw [← frames.names, Environment.names, List.getElem?_map] at here
  obtain ⟨⟨word, content'⟩, isBinding, rfl⟩ := Option.map_eq_some_iff.1 here
  have distinct : environment.names.Nodup := by
    rw [frames.names]
    exact frames.distinct
  have named : memory'.heap.value? owner word = content' := by
    rw [Lexical.value?, isEnvironment, Option.bind_some, Environment.value?,
      Environment.lookup_of_getElem? distinct isBinding]
    rfl
  have related := getElem?_of_forall₂ frames.slots (index + reservedSlots)
  have isContent : (environment.this :: environment.right :: environment.left ::
      environment.bindings.map Prod.snd)[index + reservedSlots]? = some content' := by
    show (environment.bindings.map Prod.snd)[index]? = some content'
    rw [List.getElem?_map, isBinding]
    rfl
  rw [isContent] at related
  generalize isSlot : found.slots.toList[index + reservedSlots]? = slot at related
  cases related with
  | @some content _ related =>
      refine ⟨content, ?_, named ▸ related⟩
      rw [Heap.slot?, isFrame, Option.bind_some, ← Array.getElem?_toList, isSlot]

/-- One variable of a frame and of its environment changes. -/
theorem Frames.bind {related : Value → Value → Prop} {scope : Scope} {frame : Frame}
    {environment : Environment} (frames : Frames related scope frame environment) {index : Nat}
    {name : String} (here : scope[index]? = some name) {value value' : Value}
    (values : related value value') :
    Frames related scope
      { frame with slots := frame.slots.setIfInBounds (index + reservedSlots) (some value) }
      (environment.bind name value') where
  slots := by
    have distinct : environment.names.Nodup := by
      rw [frames.names]
      exact frames.distinct
    rw [← frames.names] at here
    have changed := Environment.map_snd_bind distinct here value'
    rw [Environment.bind, Array.toList_setIfInBounds, changed]
    exact set_of_forall₂ frames.slots (index + reservedSlots) (.some values)
  names := (environment.names_bind name value').trans frames.names
  distinct := frames.distinct
  parent := frames.parent

theorem Owner.store {frame depth slot owner : Nat} {name : String}
    (stores : Stores related V memory memory')
    (isOwner : Owner V memory frame depth slot name owner) {value value' : Value}
    (values : related V value value') :
    Stores related V { memory with heap := memory.heap.setSlot owner slot value }
      { memory' with heap := memory'.heap.bind owner name value' } := by
  obtain ⟨_, scope, outer, chain, index, rfl, here⟩ := isOwner
  refine { stores with frames := ?_, environments := ?_, frame := ?_ }
  · exact (Array.size_modify ..).trans stores.frames
  · exact (Array.size_modify ..).trans stores.environments
  · intro place scope' outer' chain'
    obtain ⟨found, environment, isFrame, isEnvironment, frames, linked⟩ :=
      stores.frame _ _ _ chain'
    dsimp only [Heap.setSlot, Lexical.bind]
    rw [Array.getElem?_modify, Array.getElem?_modify, isFrame, isEnvironment]
    split
    · next same =>
        cases same
        cases chain.symm.trans chain'
        exact ⟨_, _, rfl, rfl, frames.bind here values, linked⟩
    · exact ⟨found, environment, rfl, rfl, frames, linked⟩

/-! ### Access -/

section Access

variable {H : Type} [Activations H] [Installed H] [Framed H] {W : World} {name : String}
variable {frame depth slot : Nat} {declared scope : Scope} {outer : List Scope}

theorem Owner.reaches {store : Store} {owner : Nat} {content : Option Value}
    (isOwner : Owner V store frame depth slot name owner)
    (isSlot : store.heap.slot? owner slot = some content) :
    store.heap.Reaches frame depth slot :=
  ⟨owner, content, isOwner.ancestor, isSlot⟩

/-- An evaluation that leaves its frames and programs like those of another memory. -/
theorem Ends.of_leaving {α α' : Type} {A : World → α → α' → Prop} {W V : World}
    {ended : Outcome α × Memory H} {ended' : Outcome α' × Memory Lexical} {outcome : Outcome α}
    {store : Store} (leaves : Memory.leaving Framed.core ended = (outcome, store))
    (tidy : Framed.IsTidy ended.2.heap) (later : W ≤ V)
    (stores : Stores (lexical H).Values V store ended'.2)
    (outcomes : (lexical H).Outcomes (A V) outcome ended'.1) :
    (lexical H).Ends W A ended ended' := by
  cases leaves
  exact .inr ⟨V, later, ⟨stores, tidy⟩, outcomes⟩

theorem Actions.load (chain : W.chains[frame]? = some (scope, outer)) (counts : declared <+: scope)
    (resolves : Scope.resolve? name (declared :: outer) = some (depth, slot)) :
    (lexical H).Actions W (lexical H).Values (Activations.load frame depth slot)
      (Lexical.read declared frame name) := by
  intro V later calling calling' _ memory memory' ⟨stores, tidy⟩
  obtain ⟨owner, isVisible, isOwner⟩ :=
    stores.visible (getElem?_mono later.1 chain) counts resolves
  obtain ⟨content, isSlot, options⟩ := isOwner.content stores
  rw [Lexical.read_of_visible? isVisible]
  refine Ends.of_leaving (Framed.load_of_slot? isOwner.ancestor isSlot)
    (Framed.load_tidy tidy (isOwner.reaches isSlot)) le_rfl stores ?_
  generalize memory'.heap.value? owner name = content' at options
  cases options with
  | none => exact .error (.ofFault ⟨rfl, rfl⟩)
  | some values => exact .ok values

theorem Actions.save (fresh : Bool) (chain : W.chains[frame]? = some (scope, outer))
    (counts : declared <+: scope)
    (resolves : Scope.resolve? name (declared :: outer) = some (depth, slot))
    {value value' : Value} (values : (lexical H).Values W value value') :
    (lexical H).Actions W (lexical H).Same (Activations.save fresh frame depth slot value)
      (Lexical.write fresh declared frame name value') := by
  intro V later calling calling' _ memory memory' ⟨stores, tidy⟩
  obtain ⟨owner, isVisible, isOwner⟩ :=
    stores.visible (getElem?_mono later.1 chain) counts resolves
  obtain ⟨content, isSlot, options⟩ := isOwner.content stores
  have saved : Memory.leaving Framed.core
      (Activations.save fresh frame depth slot value calling memory) = _ :=
    Framed.save_of_slot? fresh isOwner.ancestor isSlot
  have written : Lexical.write fresh declared frame name value' calling' memory' = _ :=
    Lexical.write_of_visible? fresh isVisible
  have tidy : Framed.IsTidy
      (Activations.save fresh frame depth slot value calling memory).2.heap :=
    Framed.save_tidy tidy (isOwner.reaches isSlot)
  rw [← options_isNone_eq options] at written
  split at saved
  · next refused =>
      rw [if_pos refused] at written
      rw [written]
      exact Ends.of_leaving saved tidy le_rfl stores (.error (.ofFault ⟨rfl, rfl⟩))
  · next changed =>
      rw [if_neg changed] at written
      rw [written]
      exact Ends.of_leaving saved tidy le_rfl (isOwner.store stores (values.mono later)) (.ok rfl)

theorem Actions.readImplicit (variant : Implicit)
    (chain : W.chains[frame]? = some (scope, outer)) :
    (lexical H).Actions W (lexical H).Values (Activations.load frame 0 variant.slot)
      (Lexical.readImplicit frame variant) := by
  intro V later calling calling' _ memory memory' ⟨stores, tidy⟩
  obtain ⟨found, environment, isFrame, isEnvironment, frames, _⟩ :=
    stores.frame _ _ _ (getElem?_mono later.1 chain)
  have related := getElem?_of_forall₂ frames.slots variant.slot
  have isContent : (environment.this :: environment.right :: environment.left ::
      environment.bindings.map Prod.snd)[variant.slot]? = some (environment.implicit? variant) := by
    cases variant with
    | this => rfl
    | right => rfl
    | left => rfl
  rw [isContent] at related
  generalize isPlace : found.slots.toList[variant.slot]? = place at related
  cases related with
  | @some content _ options =>
      have isSlot : (Framed.core memory.heap).slot? frame variant.slot = some content := by
        rw [Heap.slot?, show (Framed.core memory.heap).frames[frame]? = some found from isFrame,
          Option.bind_some, ← Array.getElem?_toList, isPlace]
      have isImplicit : memory'.heap.implicit? frame variant = environment.implicit? variant := by
        rw [Lexical.implicit?, isEnvironment, Option.bind_some]
      rw [Lexical.readImplicit_eq, isImplicit]
      refine Ends.of_leaving (Framed.load_of_slot? rfl isSlot)
        (Framed.load_tidy tidy ⟨frame, content, rfl, isSlot⟩) le_rfl stores ?_
      generalize environment.implicit? variant = content' at options
      cases options with
      | none => exact .error (.ofFault ⟨rfl, rfl⟩)
      | some values => exact .ok values

end Access

end Meaning

end PointFree
