import PointFree.Proofs.Acceptance
import PointFree.Proofs.Allotment.References

/-!
Contract: every variable of a compiled program has a slot of its own.

The bodies of a program are numbered level by level: the whole program first, then the
function literals in it in the order in which they are reached, then those in these. A
compiled program has its blocks under these numbers, and each of them was compiled from its
body with the names of the blocks around it.

A reference means a variable by its name and by where it stands: a name that its body has
declared by then, or else the one of the nearest block around that declares the name at all.
Addresses say how many blocks to go out and name a slot there. So two addresses anywhere in
the code lead to the same slot of the same block exactly if the references that they stem
from mean the same variable.
-/

namespace PointFree

/-! ### Which body has which number -/

/-- A body with the blocks around it and their numbers, the innermost first. -/
structure Nesting where
  body : Block
  around : List (Nat × Block)

namespace Nesting

/-- The function literals that stand in a body of this number, but in no other one of them. -/
def literals (number : Nat) (nesting : Nesting) : List Nesting :=
  nesting.body.bodies.map (⟨·, (number, nesting.body) :: nesting.around⟩)

/-- Bodies from a number on. What stands in a body comes after all that waits already. -/
def queue : (budget number : Nat) → List Nesting → List Nesting
  | 0, _, _ => []
  | _ + 1, _, [] => []
  | budget + 1, number, nesting :: waiting =>
      nesting :: queue budget (number + 1) (waiting ++ nesting.literals number)

end Nesting

/-- The bodies of a program in the order of their numbers. -/
def Block.nestings (whole : Block) : List Nesting :=
  Nesting.queue (whole.literals + 1) 0 [⟨whole, []⟩]

namespace Nesting

/-! ### Numbers of the blocks around a body -/

/-- Every block around a body has its number in the list. -/
def IsNumbered (all : List Nesting) : List (Nat × Block) → Prop
  | [] => True
  | (number, body) :: around => all[number]? = some ⟨body, around⟩ ∧ IsNumbered all around

theorem IsNumbered.mono {all more : List Nesting} (grows : all <+: more)
    {around : List (Nat × Block)} (numbered : IsNumbered all around) :
    IsNumbered more around := by
  induction around with
  | nil => trivial
  | cons first around inductionHypothesis =>
      exact ⟨getElem?_mono grows numbered.1, inductionHypothesis numbered.2⟩

theorem isNumbered_queue {budget : Nat} {done waiting : List Nesting}
    (numbered : ∀ nesting ∈ done ++ waiting, IsNumbered done nesting.around) :
    ∀ nesting ∈ done ++ queue budget done.length waiting,
      IsNumbered (done ++ queue budget done.length waiting) nesting.around := by
  have ended : ∀ nesting ∈ done ++ [], IsNumbered (done ++ []) nesting.around := by
    rw [List.append_nil]
    exact fun nesting member => numbered nesting (List.mem_append_left _ member)
  induction budget generalizing done waiting with
  | zero => exact ended
  | succ budget inductionHypothesis =>
      cases waiting with
      | nil => exact ended
      | cons nesting waiting =>
          have grows : done <+: done ++ [nesting] := List.prefix_append ..
          have later : ∀ next ∈ done ++ [nesting] ++
              (waiting ++ nesting.literals done.length),
              IsNumbered (done ++ [nesting]) next.around := by
            intro next member
            rw [List.append_assoc, List.singleton_append, ← List.cons_append,
              ← List.append_assoc] at member
            obtain old | new := List.mem_append.1 member
            · exact (numbered next old).mono grows
            · obtain ⟨inner, _, rfl⟩ := List.mem_map.1 new
              exact ⟨List.getElem?_concat_length, (numbered nesting (by simp)).mono grows⟩
          have whole : done ++ queue (budget + 1) done.length (nesting :: waiting) =
              done ++ [nesting] ++ queue budget (done ++ [nesting]).length
                (waiting ++ nesting.literals done.length) := by
            rw [queue, List.length_append, List.length_singleton, List.append_assoc,
              List.singleton_append]
          rw [whole]
          exact inductionHypothesis later fun next member => by
            rw [List.append_nil] at member ⊢
            exact later next (List.mem_append_left _ member)

/-! ### Tasks -/

/-- What is to be compiled for a body. -/
def task (externals : List String) (nesting : Nesting) : Task :=
  Block.task externals (nesting.around.map Prod.snd) nesting.body

theorem literals_task (externals : List String) (number : Nat) (nesting : Nesting) :
    (nesting.task externals).literals = (nesting.literals number).map (task externals) := by
  rw [Task.literals, literals, List.map_map]
  rfl

end Nesting

/-- The names that a body declares, with those from outside if it is the whole program. -/
def Nesting.names (externals : List String) (nesting : Nesting) : Scope :=
  Block.given externals (nesting.around.map Prod.snd) ++ nesting.body.declares

theorem Block.isNumbered_nestings {whole : Block} {nesting : Nesting}
    (member : nesting ∈ whole.nestings) :
    Nesting.IsNumbered whole.nestings nesting.around := by
  have start : ∀ nesting ∈ [] ++ [(⟨whole, []⟩ : Nesting)],
      Nesting.IsNumbered [] nesting.around :=
    List.forall_mem_singleton.2 trivial
  exact @Nesting.isNumbered_queue (whole.literals + 1) [] _ start nesting member

/-! ### Compiled programs -/

section Compiled

variable {vocabulary : Vocabulary} {externals : List String}

/-- One task leaves those of the literals in its block. -/
theorem Assembly.perform_literals {assembly after : Assembly} {task : Task} {new : List Task}
    {whole : Scope} (performed : assembly.perform vocabulary task = .ok (after, new, whole)) :
    new = task.literals := by
  obtain ⟨located, between, bodies, emits, lays, _, rfl⟩ := Assembly.perform_eq_ok performed
  obtain ⟨placed, _, rfl⟩ := Laid.foldlM lays
  rw [List.nil_append, Block.bodies_of_emit emits, Block.scope_of_emit emits]
  rfl

/-- The work queue takes the bodies in the order of their numbers. -/
theorem Assembled.performAll_queue {budget : Nat} {assembly final : Assembly}
    {done waiting : List Nesting}
    (assembled : Assembled vocabulary assembly (done.map (Nesting.task externals))
      (waiting.map (Nesting.task externals)))
    (enough : literalsOf (waiting.map Nesting.body) ≤ budget)
    (performed : Assembly.performAll vocabulary budget assembly
      (waiting.map (Nesting.task externals)) = .ok final) :
    Assembled vocabulary final
      ((done ++ Nesting.queue budget done.length waiting).map (Nesting.task externals)) [] := by
  induction budget generalizing assembly done waiting with
  | zero =>
      cases waiting with
      | nil =>
          cases performed
          rwa [Nesting.queue, List.append_nil]
      | cons nesting waiting => simp [literalsOf] at enough
  | succ budget inductionHypothesis =>
      cases waiting with
      | nil =>
          cases performed
          rwa [Nesting.queue, List.append_nil]
      | cons nesting waiting =>
          obtain ⟨⟨after, new, whole⟩, first, performed⟩ := Outcome.bind_eq_ok.1 performed
          obtain ⟨kept, located, emits, mentions⟩ := assembled.perform first
          have isNew : new = (nesting.literals done.length).map (Nesting.task externals) :=
            (Assembly.perform_literals first).trans (nesting.literals_task externals done.length)
          have counted : literalsOf ((nesting.literals done.length).map Nesting.body) =
              nesting.body.literals := by
            rw [Nesting.literals, List.map_map]
            refine (congrArg literalsOf (List.map_id _)).trans ?_
            exact Block.bodies_of_emit emits ▸ Block.literals_of_emit emits
          have fewer : literalsOf ((waiting ++ nesting.literals done.length).map Nesting.body) ≤
              budget := by
            rw [List.map_append, literalsOf_append, counted]
            rw [List.map_cons, literalsOf, List.map_cons, List.sum_cons] at enough
            rw [literalsOf]
            omega
          rw [isNew, ← List.map_append] at performed kept
          rw [← List.map_singleton, ← List.map_append] at kept
          have ended := inductionHypothesis kept fewer performed
          rwa [List.length_append, List.length_singleton, List.append_assoc] at ended

/-- A compiled program is put together from its bodies in the order of their numbers. -/
theorem Block.compile_nestings {block : Block} {program : Program}
    (compiled : block.compile vocabulary externals = .ok program) :
    program.IsCompiled vocabulary (block.nestings.map (Nesting.task externals)) ∧
      program.globals = Scope.addresses (externals ++ block.declares) ∧ externals.Nodup := by
  obtain ⟨scope, declared, compiled⟩ := Outcome.bind_eq_ok.1 compiled
  obtain ⟨same, distinct⟩ := Scope.declareAll_eq_ok declared
  obtain rfl : externals = scope := same.symm
  obtain ⟨⟨after, new, whole⟩, first, compiled⟩ := Outcome.bind_eq_ok.1 compiled
  obtain ⟨assembly, performed, done⟩ := Outcome.bind_eq_ok.1 compiled
  cases done
  have start : Assembled vocabulary (.start vocabulary)
      (([] : List Nesting).map (Nesting.task externals))
      ([(⟨block, []⟩ : Nesting)].map (Nesting.task externals)) :=
    Assembled.start vocabulary ⟨block, [], externals⟩
  have all : Assembly.performAll vocabulary (block.literals + 1) (.start vocabulary)
      ([(⟨block, []⟩ : Nesting)].map (Nesting.task externals)) = .ok assembly :=
    Outcome.bind_eq_ok.2 ⟨_, first, performed⟩
  have ended := start.performAll_queue (Nat.le_refl _) all
  obtain ⟨located, _, _, emits, _⟩ := Assembly.perform_eq_ok first
  exact ⟨ended.isCompiled _ _, congrArg Scope.addresses (Block.scope_of_emit emits),
    distinct .nil⟩

end Compiled

/-! ### What references mean -/

/-- A variable of a block: a name that the block declares or begins with, or what every block
has without defining it. -/
structure Declaration where
  block : Nat
  mention : Mention
deriving DecidableEq

/-- The nearest block around that declares a name. -/
def Nesting.declaring? (externals : List String) (word : String) :
    List (Nat × Block) → Option Nat
  | [] => none
  | (number, body) :: around =>
      if word ∈ Nesting.names externals ⟨body, around⟩ then some number
      else declaring? externals word around

/-- The variable that is meant in a body of this number. -/
def Reference.declaration? (externals : List String) (number : Nat)
    (around : List (Nat × Block)) : Reference → Option Declaration
  | ⟨declared, .name word⟩ =>
      if word ∈ declared then some ⟨number, .name word⟩
      else (Nesting.declaring? externals word around).map (⟨·, .name word⟩)
  | ⟨_, .implicit variant⟩ => some ⟨number, .implicit variant⟩

/-- The references in a body, in the order in which they are evaluated. -/
def Nesting.references (externals : List String) (nesting : Nesting) : List Reference :=
  Statement.references (Block.given externals (nesting.around.map Prod.snd))
    nesting.body.statements

/-- Where an address leads from a body of this number: the number of a block, and a slot. -/
def Nesting.locate? (number : Nat) (nesting : Nesting) (address : Nat × Nat) :
    Option (Nat × Nat) :=
  ((number :: nesting.around.map Prod.fst)[address.1]?).map (·, address.2)

/-- The address at some place of a block's code leads to the location, and the reference that
stands at this place in the body means the variable. -/
def Program.Refers (program : Program) (whole : Block) (externals : List String)
    (number place : Nat) (location : Nat × Nat) (declaration : Declaration) : Prop :=
  ∃ nesting address reference, whole.nestings[number]? = some nesting ∧
    (program.addresses number)[place]? = some address ∧
    (nesting.references externals)[place]? = some reference ∧
    nesting.locate? number address = some location ∧
    reference.declaration? externals number nesting.around = some declaration

/-! ### Slots of variables -/

/-- The slot is the one that the variable has in its block. -/
def Declaration.IsAt (all : List Nesting) (externals : List String) (slot : Nat) :
    Declaration → Prop
  | ⟨block, .name word⟩ => ∃ nesting, ∃ index : Nat, all[block]? = some nesting ∧
      (nesting.names externals)[index]? = some word ∧ slot = index + reservedSlots
  | ⟨_, .implicit variant⟩ => slot = variant.slot

section Slots

variable {all : List Nesting} {externals : List String}

theorem Implicit.slot_injective {first second : Implicit} (same : first.slot = second.slot) :
    first = second := by
  cases first <;> cases second <;> first | rfl | cases same

/-- Variables are told apart by their blocks and slots. -/
theorem Declaration.IsAt.eq_iff
    (distinct : ∀ nesting ∈ all, (nesting.names externals).Nodup)
    {first second : Declaration} {slot slot' : Nat} (here : first.IsAt all externals slot)
    (there : second.IsAt all externals slot') :
    (first.block, slot) = (second.block, slot') ↔ first = second := by
  obtain ⟨block, mention⟩ := first
  obtain ⟨block', mention'⟩ := second
  rw [Prod.mk.injEq, Declaration.mk.injEq]
  refine and_congr_right ?_
  rintro rfl
  cases mention with
  | implicit variant =>
      have low := variant.slot_reserved
      cases mention' with
      | implicit variant' =>
          rw [here, there, Mention.implicit.injEq]
          exact ⟨Implicit.slot_injective, congrArg Implicit.slot⟩
      | name word =>
          obtain ⟨_, index, _, _, isSlot⟩ := there
          have isLow : slot = variant.slot := here
          exact iff_of_false (by rw [isLow]; omega) nofun
  | name word =>
      obtain ⟨nesting, index, isNesting, isWord, rfl⟩ := here
      cases mention' with
      | implicit variant =>
          have low := variant.slot_reserved
          have isLow : slot' = variant.slot := there
          exact iff_of_false (by rw [isLow]; omega) nofun
      | name word' =>
          obtain ⟨nesting', index', isNesting', isWord', rfl⟩ := there
          obtain rfl : nesting = nesting' :=
            Option.some.inj (isNesting.symm.trans isNesting')
          rw [Mention.name.injEq, Nat.add_right_cancel_iff]
          constructor
          · rintro rfl
            exact Option.some.inj (isWord.symm.trans isWord')
          · rintro rfl
            have inside := (List.getElem?_eq_some_iff.1 isWord).1
            have names := distinct nesting (List.mem_of_getElem? isNesting)
            exact (List.getElem?_inj inside names).1 (isWord.trans isWord'.symm)

/-- An address found among the blocks around leads to the nearest one that declares the name. -/
theorem Nesting.declaring_of_resolve {word : String} {around : List (Nat × Block)}
    (numbered : Nesting.IsNumbered all around) {depth slot : Nat}
    (resolves : Scope.resolve? word (Block.scopes externals (around.map Prod.snd)) =
      some (depth, slot)) :
    ∃ block, Nesting.declaring? externals word around = some block ∧
      (around.map Prod.fst)[depth]? = some block ∧
      Declaration.IsAt all externals slot ⟨block, .name word⟩ := by
  induction around generalizing depth with
  | nil => cases resolves
  | cons first around inductionHypothesis =>
      obtain ⟨number, body⟩ := first
      have outward : Scope.resolve? word (Nesting.names externals ⟨body, around⟩ ::
          Block.scopes externals (around.map Prod.snd)) = some (depth, slot) := resolves
      rw [Nesting.declaring?]
      obtain ⟨rfl, index, rfl, isWord⟩ | ⟨other, further, rfl, outside⟩ :=
        Scope.resolve?_cons_eq_some outward
      · rw [if_pos (List.mem_of_getElem? isWord)]
        exact ⟨number, rfl, rfl, ⟨body, around⟩, index, numbered.1, isWord, rfl⟩
      · rw [if_neg other]
        exact inductionHypothesis numbered.2 outside

/-- The address of a reference leads to the slot of the variable that the reference means. -/
theorem Reference.leads {number : Nat} {nesting : Nesting} (isNesting : all[number]? = some nesting)
    (numbered : Nesting.IsNumbered all nesting.around) {reference : Reference}
    (early : reference.declared <+: nesting.names externals) {address : Nat × Nat}
    (found : reference.address? (Block.scopes externals (nesting.around.map Prod.snd)) =
      some address) :
    ∃ declaration,
      reference.declaration? externals number nesting.around = some declaration ∧
      nesting.locate? number address = some (declaration.block, address.2) ∧
      declaration.IsAt all externals address.2 := by
  obtain ⟨declared, mention⟩ := reference
  cases mention with
  | implicit variant =>
      cases found
      exact ⟨_, rfl, rfl, rfl⟩
  | name word =>
      obtain ⟨depth, slot⟩ := address
      rw [Reference.declaration?]
      obtain ⟨rfl, index, rfl, isWord⟩ | ⟨other, further, rfl, outside⟩ :=
        Scope.resolve?_cons_eq_some found
      · rw [if_pos (List.mem_of_getElem? isWord)]
        exact ⟨_, rfl, rfl, nesting, index, isNesting, getElem?_mono early isWord, rfl⟩
      · obtain ⟨block, isDeclaring, isBlock, isAt⟩ :=
          Nesting.declaring_of_resolve numbered outside
        rw [if_neg other, isDeclaring]
        refine ⟨_, rfl, ?_, isAt⟩
        rw [Nesting.locate?, List.getElem?_cons_succ, isBlock]
        rfl

end Slots

/-! ### Compiled programs -/

theorem Statement.declared_of_references {statements : List Statement} {declared : List String}
    {reference : Reference} (member : reference ∈ Statement.references declared statements) :
    reference.declared <+: declared ++ Statement.declaredBy statements := by
  induction statements generalizing declared with
  | nil => cases member
  | cons statement rest inductionHypothesis =>
      rw [Statement.declaredBy, List.flatMap_cons, ← List.append_assoc]
      obtain here | later := List.mem_append.1 member
      · obtain operand | stored := List.mem_append.1 here
        · obtain ⟨mention, _, rfl⟩ := List.mem_map.1 operand
          rw [List.append_assoc]
          exact List.prefix_append ..
        · obtain ⟨word, _, rfl⟩ := List.mem_map.1 stored
          exact List.prefix_append ..
      · exact inductionHypothesis later

theorem Scope.addresses_eq_zipIdx (scope : Scope) :
    scope.addresses = scope.zipIdx reservedSlots := by
  refine Eq.trans ?_ List.zipIdx_eq_map_add.symm
  exact List.map_congr_left fun entry _ => Prod.ext rfl (Nat.add_comm entry.2 reservedSlots)

section Compiled

variable {program : Program} {vocabulary : Vocabulary} {externals : List String} {whole : Block}

/-- What is known of the block of a body, and of the addresses in its code. -/
theorem Program.IsCompiled.allots
    (compiled : program.IsCompiled vocabulary (whole.nestings.map (Nesting.task externals)))
    (distinct : externals.Nodup) {number : Nat} {nesting : Nesting}
    (isNesting : whole.nestings[number]? = some nesting) :
    (program.blocks[number]?).map BlockEntry.frameSize =
        some (reservedSlots + (nesting.names externals).length) ∧
      (nesting.names externals).Nodup ∧
      (program.addresses number).map some = (nesting.references externals).map
        (Reference.address? (Block.scopes externals (nesting.around.map Prod.snd))) := by
  have inside : number < program.blocks.length := by
    rw [compiled.blocks, List.length_map]
    exact (List.getElem?_eq_some_iff.1 isNesting).1
  have isEntry := List.getElem?_eq_getElem inside
  obtain ⟨task, scope, placed, steps, isTask, holds⟩ := compiled.holds number _ isEntry
  rw [List.getElem?_map, isNesting] at isTask
  cases isTask
  have isScope : scope = nesting.names externals := holds.lowers.scope_eq
  have given : (Block.given externals (nesting.around.map Prod.snd)).Nodup := by
    rw [Block.given]
    split
    · exact distinct
    · exact .nil
  refine ⟨?_, isScope ▸ holds.lowers.nodup given, ?_⟩
  · rw [isEntry, Option.map_some, holds.frameSize, isScope, Scope.frameSize, Nat.add_comm]
  · have code : program.addresses number = addressesIn (placed.map Prod.fst) := by
      rw [Program.addresses, isEntry]
      dsimp only
      rw [holds.reading, Reading.instructions_ofList holds.lowers.isReturning]
    rw [code]
    exact holds.lowers.reach

/-- Every address in the code of a body's block stems from a reference in the body, which
means a variable, and leads to the slot of this variable. -/
theorem Program.refers_of_address {program : Program} {whole : Block} {externals : List String}
    {number place : Nat} {nesting : Nesting} {address : Nat × Nat}
    (isNesting : whole.nestings[number]? = some nesting)
    (addresses : (program.addresses number).map some = (nesting.references externals).map
      (Reference.address? (Block.scopes externals (nesting.around.map Prod.snd))))
    (isAddress : (program.addresses number)[place]? = some address) :
    ∃ location declaration, program.Refers whole externals number place location declaration ∧
      location.1 = declaration.block ∧ declaration.IsAt whole.nestings externals location.2 := by
  have found := congrArg (·[place]?) addresses
  simp only [List.getElem?_map, isAddress, Option.map_some] at found
  obtain ⟨reference, isReference, leads⟩ := Option.map_eq_some_iff.1 found.symm
  have early := Statement.declared_of_references (List.mem_of_getElem? isReference)
  have numbered := Block.isNumbered_nestings (List.mem_of_getElem? isNesting)
  obtain ⟨declaration, means, locates, isAt⟩ :=
    Reference.leads isNesting numbered early leads
  exact ⟨_, declaration, ⟨nesting, address, reference, isNesting, isAddress, isReference, locates,
    means⟩, rfl, isAt⟩

theorem Program.Refers.unique {program : Program} {whole : Block} {externals : List String}
    {number place : Nat} {location location' : Nat × Nat} {declaration declaration' : Declaration}
    (refers : program.Refers whole externals number place location declaration)
    (refers' : program.Refers whole externals number place location' declaration') :
    location = location' ∧ declaration = declaration' := by
  obtain ⟨nesting, address, reference, isNesting, isAddress, isReference, locates, means⟩ := refers
  obtain ⟨_, _, _, isNesting', isAddress', isReference', locates', means'⟩ := refers'
  cases isNesting.symm.trans isNesting'
  cases isAddress.symm.trans isAddress'
  cases isReference.symm.trans isReference'
  exact ⟨Option.some.inj (locates.symm.trans locates'),
    Option.some.inj (means.symm.trans means')⟩

end Compiled

/-- The slots of a compiled program. Those of the top level are listed in order, the names from
outside first; each block has one for every name that it declares, besides the reserved ones;
and of all addresses in the code, each of which stems from a reference in the tree, two lead
to the same slot exactly if their references mean the same variable. -/
theorem Block.compile_allots (block : Block) (vocabulary : Vocabulary) (externals : List String)
    (program : Program) (compiled : block.compile vocabulary externals = .ok program) :
    program.globals = (externals ++ block.declares).zipIdx reservedSlots ∧
    program.blocks.length = block.nestings.length ∧
    (∀ (number : Nat) (nesting : Nesting), block.nestings[number]? = some nesting →
      (program.blocks[number]?).map BlockEntry.frameSize =
        some (reservedSlots + (nesting.names externals).length) ∧
      (nesting.names externals).Nodup ∧
      (program.addresses number).length = (nesting.references externals).length ∧
      ∀ place < (program.addresses number).length, ∃ location declaration,
        program.Refers block externals number place location declaration) ∧
    ∀ (number number' place place' : Nat) (location location' : Nat × Nat)
      (declaration declaration' : Declaration),
      program.Refers block externals number place location declaration →
      program.Refers block externals number' place' location' declaration' →
      (location = location' ↔ declaration = declaration') := by
  obtain ⟨isCompiled, globals, distinct⟩ := Block.compile_nestings compiled
  have names : ∀ nesting ∈ block.nestings, (nesting.names externals).Nodup := by
    intro nesting member
    obtain ⟨number, isNesting⟩ := List.mem_iff_getElem?.1 member
    exact (isCompiled.allots distinct isNesting).2.1
  refine ⟨?globals, ?blocks, ?sizes, ?apart⟩
  case globals => rw [globals, Scope.addresses_eq_zipIdx]
  case blocks => rw [isCompiled.blocks, List.length_map]
  case sizes =>
    intro number nesting isNesting
    obtain ⟨frameSize, distinct, addresses⟩ := isCompiled.allots distinct isNesting
    have length := congrArg List.length addresses
    rw [List.length_map, List.length_map] at length
    refine ⟨frameSize, distinct, length, fun place inside => ?_⟩
    obtain ⟨location, declaration, refers, _⟩ := Program.refers_of_address isNesting addresses
      (List.getElem?_eq_getElem inside)
    exact ⟨location, declaration, refers⟩
  case apart =>
    -- the slot of a reference is that of the variable it means, wherever the reference stands
    have stands {number place : Nat} {location : Nat × Nat} {declaration : Declaration}
        (refers : program.Refers block externals number place location declaration) :
        location.1 = declaration.block ∧
          declaration.IsAt block.nestings externals location.2 := by
      obtain ⟨nesting, address, _, isNesting, isAddress, _⟩ := id refers
      obtain ⟨_, _, refers', isBlock, isAt⟩ := Program.refers_of_address isNesting
        (isCompiled.allots distinct isNesting).2.2 isAddress
      obtain ⟨rfl, rfl⟩ := refers.unique refers'
      exact ⟨isBlock, isAt⟩
    intro number number' place place' location location' declaration declaration' refers refers'
    obtain ⟨isBlock, isAt⟩ := stands refers
    obtain ⟨isBlock', isAt'⟩ := stands refers'
    obtain ⟨_, slot⟩ := location
    obtain ⟨_, slot'⟩ := location'
    cases isBlock
    cases isBlock'
    exact isAt.eq_iff names isAt'

/-- A block in which a name means two variables: the inner body declares it anew after it has
read the one outside. -/
def shadowingBlock : Block :=
  let inner : Block := .mk [
    .mk (.expression (.callBoth (.primitive "+") (.name "A") (.name "B"))) none]
  let outer : Block := .mk [
    .mk (.define (.name "B") (.name "A")) none,
    .mk (.define (.name "A") (.implicit .right)) none,
    .mk (.expression (.block inner)) none]
  .mk [
    .mk (.define (.name "A") (.name "G")) none,
    .mk (.expression (.block outer)) none]

theorem shadowingBlock_isOk : (shadowingBlock.compile (.standardFrom 0) ["G"]).isOk = true := by
  decide +kernel

theorem Block.compile_allots_shadowingBlock :
    ∃ program, shadowingBlock.compile (.standardFrom 0) ["G"] = .ok program ∧
      program.globals = [("G", 3), ("A", 4)] ∧ program.blocks.length = 3 ∧
      ∀ (number number' place place' : Nat) (location location' : Nat × Nat)
        (declaration declaration' : Declaration),
        program.Refers shadowingBlock ["G"] number place location declaration →
        program.Refers shadowingBlock ["G"] number' place' location' declaration' →
        (location = location' ↔ declaration = declaration') := by
  obtain ⟨program, compiled⟩ := Outcome.exists_of_isOk shadowingBlock_isOk
  obtain ⟨globals, blocks, _, apart⟩ :=
    Block.compile_allots shadowingBlock (.standardFrom 0) ["G"] program compiled
  exact ⟨program, compiled, globals, blocks, apart⟩

end PointFree
