import PointFree.Proofs.Correspondence.Routine
import PointFree.Proofs.Heap

/-!
Contract: what a run does does not depend on numbers.

Functions, frames and programs are known by the numbers they got when they were made, and
nothing but the order of making decides these. Two memories in which the same things have
different numbers are therefore as good as each other. A memory may also hold things that
have no partner in the other: nothing leads to them from what has one.
-/

namespace PointFree

namespace Renumbering

open Correspondence

/-- What has a number in a memory. -/
inductive Kind where
  | function
  | frame
  | program

/-- Which numbers stand for one thing. -/
structure World where
  partners : Kind → Nat → Nat → Prop
  unique {kind : Kind} {first first' second second' : Nat} :
    partners kind first first' → partners kind second second' → (first = second ↔ first' = second')

instance : Preorder World where
  le first second := ∀ kind item item', first.partners kind item item' →
    second.partners kind item item'
  le_refl _ _ _ _ := id
  le_trans _ _ _ first second kind item item' partners :=
    second kind item item' (first kind item item' partners)

/-- Two things that have no partners become partners of each other. -/
def World.link (W : World) (kind : Kind) (item item' : Nat)
    (fresh : ∀ other other', W.partners kind other other' → other ≠ item ∧ other' ≠ item') :
    World where
  partners sort other other' :=
    W.partners sort other other' ∨ sort = kind ∧ other = item ∧ other' = item'
  unique := by
    rintro sort first first' second second' (old | ⟨rfl, rfl, rfl⟩) (old' | ⟨new, rfl, rfl⟩)
    · exact W.unique old old'
    · subst new
      exact iff_of_false (fresh _ _ old).1 (fresh _ _ old).2
    · exact iff_of_false (fresh _ _ old').1.symm (fresh _ _ old').2.symm
    · exact iff_of_true rfl rfl

section Linking

variable {W : World} {kind : Kind} {item item' : Nat}
variable {fresh : ∀ other other', W.partners kind other other' → other ≠ item ∧ other' ≠ item'}

theorem World.le_link : W ≤ W.link kind item item' fresh :=
  fun _ _ _ => .inl

theorem World.partners_link : (W.link kind item item' fresh).partners kind item item' :=
  .inr ⟨rfl, rfl, rfl⟩

end Linking

/-! ### Memories -/

/-- The same thing under both numbers. -/
inductive Twins (related : Value → Value → Prop) (W : World) (memory memory' : Store) :
    Kind → Nat → Nat → Prop where
  | function {stamp stamp' : Nat} :
      stamp < memory.nextStamp → stamp' < memory'.nextStamp →
      Twins related W memory memory' .function stamp stamp'
  | frame {index index' : Nat} {found found' : Frame} :
      memory.heap.frames[index]? = some found → memory'.heap.frames[index']? = some found' →
      List.Forall₂ (Option.Rel related) found.slots.toList found'.slots.toList →
      Option.Rel (W.partners .frame) found.parent found'.parent →
      Twins related W memory memory' .frame index index'
  | program {index index' : Nat} {routines : List Routine} :
      memory.heap.programs[index]? = some routines →
      memory'.heap.programs[index']? = some routines →
      (∀ routine ∈ routines, routine.AllConstants fun value => related value value) →
      Twins related W memory memory' .program index index'

structure Stores (related : World → Value → Value → Prop) (W : World) (memory memory' : Store) :
    Prop where
  depth : memory.depth = memory'.depth
  twins {kind : Kind} {item item' : Nat} :
    W.partners kind item item' → Twins (related W) W memory memory' kind item item'

/-- The later memory has everything as it was in the earlier one. -/
structure Keeps (before after : Store) : Prop where
  stamps : before.nextStamp ≤ after.nextStamp
  frames {index : Nat} {found : Frame} :
    before.heap.frames[index]? = some found → after.heap.frames[index]? = some found
  programs {index : Nat} {routines : List Routine} :
    before.heap.programs[index]? = some routines → after.heap.programs[index]? = some routines

section Stores

variable {related : World → Value → Value → Prop} {W V : World}
variable {memory memory' after after' : Store} {kind : Kind} {item item' : Nat}

theorem Keeps.refl (memory : Store) : Keeps memory memory :=
  ⟨Nat.le_refl _, id, id⟩

theorem getElem?_push_of_some {α : Type} {all : Array α} {index : Nat} {found : α} (added : α)
    (isFound : all[index]? = some found) : (all.push added)[index]? = some found := by
  have inside := (Array.getElem?_eq_some_iff.1 isFound).1
  rw [Array.getElem?_push_lt inside, ← Array.getElem?_eq_getElem inside, isFound]

theorem Twins.keep {related : Value → Value → Prop}
    (twins : Twins related W memory memory' kind item item') (keeps : Keeps memory after)
    (keeps' : Keeps memory' after') : Twins related W after after' kind item item' := by
  cases twins with
  | function inside inside' =>
      exact .function (Nat.lt_of_lt_of_le inside keeps.stamps)
        (Nat.lt_of_lt_of_le inside' keeps'.stamps)
  | frame isFrame isFrame' slots parents =>
      exact .frame (keeps.frames isFrame) (keeps'.frames isFrame') slots parents
  | program isProgram isProgram' known =>
      exact .program (keeps.programs isProgram) (keeps'.programs isProgram') known

theorem Twins.mono
    (grows : ∀ {W V value value'}, W ≤ V → related W value value' → related V value value')
    (later : W ≤ V) (twins : Twins (related W) W memory memory' kind item item') :
    Twins (related V) V memory memory' kind item item' := by
  cases twins with
  | function inside inside' => exact .function inside inside'
  | frame isFrame isFrame' slots parents =>
      refine .frame isFrame isFrame' (slots.imp fun _ _ options => ?_) ?_
      · cases options with
        | none => exact .none
        | some values => exact .some (grows later values)
      · generalize Frame.parent _ = parent at parents
        generalize Frame.parent _ = parent' at parents
        cases parents with
        | none => exact .none
        | some partners => exact .some (later _ _ _ partners)
  | program isProgram isProgram' known =>
      exact .program isProgram isProgram' fun routine member =>
        (known routine member).imp (grows later)

theorem Stores.keep (stores : Stores related W memory memory') (keeps : Keeps memory after)
    (keeps' : Keeps memory' after') (depth : after.depth = after'.depth) :
    Stores related W after after' :=
  ⟨depth, fun partners => (stores.twins partners).keep keeps keeps'⟩

theorem Stores.link (stores : Stores related W memory memory')
    (grows : ∀ {W V value value'}, W ≤ V → related W value value' → related V value value')
    {fresh}
    (twins : Twins (related (W.link kind item item' fresh)) (W.link kind item item' fresh)
      memory memory' kind item item') :
    Stores related (W.link kind item item' fresh) memory memory' where
  depth := stores.depth
  twins := by
    rintro sort other other' (old | ⟨rfl, rfl, rfl⟩)
    · exact (stores.twins old).mono grows World.le_link
    · exact twins

/-- Things that are made now are not known yet. -/
theorem Stores.fresh_function (stores : Stores related W memory memory') (stamp stamp' : Nat)
    (partners : W.partners .function stamp stamp') :
    stamp ≠ memory.nextStamp ∧ stamp' ≠ memory'.nextStamp := by
  cases stores.twins partners with
  | function inside inside' => exact ⟨Nat.ne_of_lt inside, Nat.ne_of_lt inside'⟩

theorem Stores.fresh_frame (stores : Stores related W memory memory') (frame frame' : Nat)
    (partners : W.partners .frame frame frame') :
    frame ≠ memory.heap.frames.size ∧ frame' ≠ memory'.heap.frames.size := by
  cases stores.twins partners with
  | frame isFrame isFrame' =>
      exact ⟨Nat.ne_of_lt (Array.getElem?_eq_some_iff.1 isFrame).1,
        Nat.ne_of_lt (Array.getElem?_eq_some_iff.1 isFrame').1⟩

theorem Stores.fresh_program (stores : Stores related W memory memory') (program program' : Nat)
    (partners : W.partners .program program program') :
    program ≠ memory.heap.programs.size ∧ program' ≠ memory'.heap.programs.size := by
  cases stores.twins partners with
  | program isProgram isProgram' =>
      exact ⟨Nat.ne_of_lt (Array.getElem?_eq_some_iff.1 isProgram).1,
        Nat.ne_of_lt (Array.getElem?_eq_some_iff.1 isProgram').1⟩

end Stores

end Renumbering

open Renumbering in
/-- Two runs that differ in numbers alone. -/
def renumbering : Correspondence (Heap (List Routine)) (Heap (List Routine)) where
  toWording := .literal
  World := World
  order := inferInstance
  stamps W := W.partners .function
  blocks W program block frame program' block' frame' :=
    W.partners .program program program' ∧ block = block' ∧ W.partners .frame frame frame'
  stores := Stores
  pending := True
  stamps_mono later := later _ _ _
  blocks_mono later blocks := ⟨later _ _ _ blocks.1, blocks.2.1, later _ _ _ blocks.2.2⟩
  stamps_unique := World.unique _
  stores_fresh {related W memory memory'} grows stores := by
    have since : Stores related W { memory with nextStamp := memory.nextStamp + 1 }
        { memory' with nextStamp := memory'.nextStamp + 1 } :=
      stores.keep ⟨Nat.le_succ _, id, id⟩ ⟨Nat.le_succ _, id, id⟩ stores.depth
    exact ⟨W.link .function memory.nextStamp memory'.nextStamp stores.fresh_function,
      World.le_link, World.partners_link,
      since.link grows (.function (Nat.lt_succ_self _) (Nat.lt_succ_self _))⟩
  blocks_text blocks := by
    obtain ⟨_, rfl, _⟩ := blocks
    exact Wording.literal.texts_refl _

namespace Renumbering

open Correspondence

/-! ### Frames -/

section Frames

variable {related : World → Value → Value → Prop} {W : World} {memory memory' : Store}
variable {frame frame' : Nat}

theorem Stores.ancestor? (stores : Stores related W memory memory')
    (partners : W.partners .frame frame frame') (depth : Nat) :
    Option.Rel (W.partners .frame) (memory.heap.ancestor? frame depth)
      (memory'.heap.ancestor? frame' depth) := by
  induction depth generalizing frame frame' with
  | zero => exact .some partners
  | succ depth inductionHypothesis =>
      cases stores.twins partners with
      | @frame _ _ found found' isFrame isFrame' _ parents =>
          obtain ⟨slots, parent⟩ := found
          obtain ⟨slots', parent'⟩ := found'
          rw [Heap.ancestor?, Heap.ancestor?, isFrame, isFrame']
          cases parents with
          | none => exact .none
          | some around => exact inductionHypothesis around

theorem Stores.slot? (stores : Stores related W memory memory')
    (partners : W.partners .frame frame frame') (slot : Nat) :
    Option.Rel (Option.Rel (related W)) (memory.heap.slot? frame slot)
      (memory'.heap.slot? frame' slot) := by
  cases stores.twins partners with
  | frame isFrame isFrame' slots =>
      rw [Heap.slot?, Heap.slot?, isFrame, isFrame', Option.bind_some, Option.bind_some,
        ← Array.getElem?_toList, ← Array.getElem?_toList]
      exact getElem?_of_forall₂ slots slot

theorem Stores.setSlot (stores : Stores related W memory memory')
    (partners : W.partners .frame frame frame') (slot : Nat) {value value' : Value}
    (values : related W value value') :
    Stores related W { memory with heap := memory.heap.setSlot frame slot value }
      { memory' with heap := memory'.heap.setSlot frame' slot value' } where
  depth := stores.depth
  twins {kind item item'} others := by
    cases stores.twins others with
    | function inside inside' => exact .function inside inside'
    | program isProgram isProgram' known => exact .program isProgram isProgram' known
    | @frame _ _ found found' isFrame isFrame' slots parents =>
        have modified : (memory.heap.setSlot frame slot value).frames[item]? =
            _ := Array.getElem?_modify
        have modified' : (memory'.heap.setSlot frame' slot value').frames[item']? =
            _ := Array.getElem?_modify
        rw [isFrame] at modified
        rw [isFrame'] at modified'
        by_cases same : frame = item
        · rw [if_pos same] at modified
          rw [if_pos ((W.unique partners others).1 same)] at modified'
          refine .frame modified modified' ?_ parents
          rw [Array.toList_setIfInBounds, Array.toList_setIfInBounds]
          exact set_of_forall₂ slots slot (.some values)
        · rw [if_neg same] at modified
          rw [if_neg fun same' => same ((W.unique partners others).2 same')] at modified'
          exact .frame modified modified' slots parents

end Frames

section Access

variable {W : World} {memory memory' : Store} {frame frame' : Nat}

theorem Stores.reading (stores : Stores renumbering.Values W memory memory')
    (partners : W.partners .frame frame frame') (depth slot : Nat) :
    renumbering.Outcomes (renumbering.Values W) (memory.heap.reading frame depth slot)
      (memory'.heap.reading frame' depth slot) := by
  have owners := stores.ancestor? partners depth
  rw [Heap.reading, Heap.reading]
  generalize memory.heap.ancestor? frame depth = owner at owners
  generalize memory'.heap.ancestor? frame' depth = owner' at owners
  cases owners with
  | none => exact .error (.ofFault rfl)
  | @some owner owner' owners =>
      have contents := stores.slot? owners slot
      dsimp only
      generalize memory.heap.slot? owner slot = content at contents
      generalize memory'.heap.slot? owner' slot = content' at contents
      cases contents with
      | none => exact .error (.ofFault rfl)
      | some contents =>
          cases contents with
          | none => exact .error (.ofFault rfl)
          | some values => exact .ok values

theorem Stores.writing (stores : Stores renumbering.Values W memory memory')
    (partners : W.partners .frame frame frame') (fresh : Bool) (depth slot : Nat)
    {value value' : Value} (values : renumbering.Values W value value') :
    renumbering.Outcomes
      (fun heap heap' => Stores renumbering.Values W { memory with heap := heap }
        { memory' with heap := heap' })
      (memory.heap.writing fresh frame depth slot value)
      (memory'.heap.writing fresh frame' depth slot value') := by
  have owners := stores.ancestor? partners depth
  rw [Heap.writing, Heap.writing]
  generalize memory.heap.ancestor? frame depth = owner at owners
  generalize memory'.heap.ancestor? frame' depth = owner' at owners
  cases owners with
  | none => exact .error (.ofFault rfl)
  | @some owner owner' owners =>
      have contents := stores.slot? owners slot
      dsimp only
      generalize memory.heap.slot? owner slot = content at contents
      generalize memory'.heap.slot? owner' slot = content' at contents
      cases contents with
      | none => exact .error (.ofFault rfl)
      | @some content content' contents =>
          have alike : content.isNone = content'.isNone := options_isNone_eq contents
          dsimp only
          rw [alike]
          split
          · exact .error (.ofFault rfl)
          · exact .ok (stores.setSlot owners slot values)

/-- Frames that are partners lead to partners. -/
theorem abreast (partners : W.partners .frame frame frame') :
    renumbering.Abreast W frame frame' where
  load depth slot := by
    intro V later calling calling' _ memory memory' stores
    have outcomes := Stores.reading stores (later _ _ _ partners) depth slot
    show renumbering.Ends V renumbering.Values (Heap.load frame depth slot calling memory)
      (Heap.load frame' depth slot calling' memory')
    rw [Heap.load_eq, Heap.load_eq]
    exact .inr ⟨V, le_rfl, stores, outcomes⟩
  save fresh depth slot V value value' after values := by
    intro U later calling calling' _ memory memory' stores
    have outcomes := Stores.writing stores (later _ _ _ (after _ _ _ partners)) fresh depth slot
      (values.mono later)
    show renumbering.Ends U renumbering.Same (Heap.save fresh frame depth slot value calling memory)
      (Heap.save fresh frame' depth slot value' calling' memory')
    rw [Heap.save_eq, Heap.save_eq]
    generalize memory.heap.writing fresh frame depth slot value = written at outcomes
    generalize memory'.heap.writing fresh frame' depth slot value' = written' at outcomes
    cases outcomes with
    | error failures => exact .inr ⟨U, le_rfl, stores, .error failures⟩
    | ok written => exact .inr ⟨U, le_rfl, written, .ok rfl⟩

end Access

/-! ### Activations -/

/-- Numbers that stand for one thing. -/
def Partners (kind : Kind) (W : renumbering.World) : Nat → Nat → Prop :=
  World.partners W kind

instance (kind : Kind) : Lasting (Partners kind) := ⟨fun later => later kind _ _⟩

instance : Counting renumbering where
  depth := Stores.depth
  redepth change stores :=
    ⟨congrArg change (Stores.depth stores), fun partners =>
      (Stores.twins stores partners).keep ⟨Nat.le_refl _, id, id⟩ ⟨Nat.le_refl _, id, id⟩⟩

section Activating

variable {W : renumbering.World}

theorem newFrame {slots slots' : Array (Option Value)} {parent parent' : Option Nat}
    (rows : Rows (Options renumbering.Values) W slots slots')
    (parents : Options (Partners .frame) W parent parent') :
    renumbering.Actions W (Partners .frame) (Activations.newFrame slots parent)
      (Activations.newFrame slots' parent') := by
  intro V later calling calling' _ memory memory' stores
  have counted : memory.depth = memory'.depth := Stores.depth stores
  have since : Stores renumbering.Values V
      { memory with heap.frames := memory.heap.frames.push ⟨slots, parent⟩ }
      { memory' with heap.frames := memory'.heap.frames.push ⟨slots', parent'⟩ } :=
    Stores.keep stores ⟨Nat.le_refl _, getElem?_push_of_some _, id⟩
      ⟨Nat.le_refl _, getElem?_push_of_some _, id⟩ counted
  have after : V ≤ World.link V .frame memory.heap.frames.size memory'.heap.frames.size
      (Stores.fresh_frame stores) := World.le_link
  refine .inr ⟨_, after,
    since.link (fun grows values => Values.mono (c := renumbering) grows values) ?_,
    .ok World.partners_link⟩
  exact .frame Array.getElem?_push_size Array.getElem?_push_size
    (Rows.mono (le_trans later after) rows) (Options.mono (le_trans later after) parents)

theorem install {routines : List Routine}
    (known : ∀ routine ∈ routines,
      routine.AllConstants fun value => renumbering.Values W value value) :
    renumbering.Actions W (Partners .program) (Installed.install routines)
      (Installed.install routines) := by
  intro V later calling calling' _ memory memory' stores
  have counted : memory.depth = memory'.depth := Stores.depth stores
  have since : Stores renumbering.Values V
      { memory with heap.programs := memory.heap.programs.push routines }
      { memory' with heap.programs := memory'.heap.programs.push routines } :=
    Stores.keep stores ⟨Nat.le_refl _, id, getElem?_push_of_some _⟩
      ⟨Nat.le_refl _, id, getElem?_push_of_some _⟩ counted
  have after : V ≤ World.link V .program memory.heap.programs.size memory'.heap.programs.size
      (Stores.fresh_program stores) := World.le_link
  refine .inr ⟨_, after,
    since.link (fun grows values => Values.mono (c := renumbering) grows values) ?_,
    .ok World.partners_link⟩
  exact .program Array.getElem?_push_size Array.getElem?_push_size fun routine member =>
    (known routine member).imp (Values.mono (le_trans later after))

/-- A routine whose constants are known in a world. -/
def Routines (W : renumbering.World) (routine routine' : Routine) : Prop :=
  routine = routine' ∧ routine.AllConstants fun value => renumbering.Values W value value

theorem routine {program program' : Nat} (partners : Partners .program W program program')
    (block : Nat) :
    renumbering.Actions W Routines (Installed.routine program block)
      (Installed.routine program' block) := by
  intro V later calling calling' _ memory memory' stores
  cases Stores.twins stores (later _ _ _ partners) with
  | @program _ _ routines isProgram isProgram' known =>
      show renumbering.Ends V Routines (Heap.routine program block calling memory)
        (Heap.routine program' block calling' memory')
      cases isRoutine : routines[block]? with
      | some found =>
          rw [Heap.routine_of_getElem? isProgram isRoutine,
            Heap.routine_of_getElem? isProgram' isRoutine]
          exact .inr ⟨V, le_rfl, stores, .ok ⟨rfl, known found (List.mem_of_getElem? isRoutine)⟩⟩
      | none =>
          rw [Heap.routine_of_missing isProgram isRoutine,
            Heap.routine_of_missing isProgram' isRoutine]
          exact .inr ⟨V, le_rfl, stores, .error (.ofFault rfl)⟩

/-- A routine goes the same way in frames that are partners. -/
theorem execute {program program' frame frame' : Nat} {routine : Routine}
    (programs : Partners .program W program program') (frames : Partners .frame W frame frame')
    (known : routine.AllConstants fun value => renumbering.Values W value value) :
    renumbering.Actions W renumbering.Values (routine.run program frame)
      (routine.run program' frame') :=
  Actions.steps trivial routine.index (abreast frames) (fun _ => ⟨programs, rfl, frames⟩) known

end Activating

theorem enters : Enters renumbering := by
  intro W stamp stamp' program block frame program' block' frame' stamps blocks V later right right'
    left left' rights lefts
  obtain ⟨programs, rfl, frames⟩ := renumbering.blocks_mono later blocks
  rw [Installed.enter_eq, Installed.enter_eq]
  refine Actions.bind (routine programs block) fun after found _ same => ?_
  obtain ⟨rfl, known⟩ := same
  have functions : renumbering.Functions _ (.mk stamp (.block program block frame))
      (.mk stamp' (.block program' block frame')) :=
    .mk (renumbering.stamps_mono (le_trans later after) stamps)
      (.block (renumbering.blocks_mono (le_trans later after) blocks))
  have slots := Rows.slots found functions (rights.mono after) (lefts.mono after)
  refine Actions.nested found.limit (Actions.bind (newFrame slots ?_) ?_)
  · exact .some (after _ _ _ frames)
  · intro U further inner inner' inners
    have since := le_trans after further
    exact execute (since _ _ _ programs) inners (known.imp (Values.mono further))

/-- A machine runs the same way wherever it is run. -/
theorem run {W : renumbering.World} {machine : Machine}
    (known : ∀ routine ∈ machine.top :: machine.others,
      routine.AllConstants fun value => renumbering.Values W value value)
    {globals globals' : Array Value} (rows : Rows renumbering.Values W globals globals') :
    renumbering.Actions W (Pairs renumbering.Values (Partners .frame)) (machine.run globals)
      (machine.run globals') := by
  rw [Machine.run, Machine.run, rows.size_eq]
  split
  · exact Actions.refuse rfl
  · refine Actions.bind (install known) fun first program program' programs => ?_
    have slots := Rows.topSlots machine.top.frameSize (rows.mono first)
    refine Actions.bind (newFrame slots .none) fun second frame frame' frames => ?_
    have constants := (known machine.top (.head _)).imp (Values.mono (le_trans first second))
    refine Actions.bind (execute (second _ _ _ programs) frames constants) ?_
    exact fun third _ _ values => Actions.pure ⟨values, third _ _ _ frames⟩

end Renumbering

end PointFree
