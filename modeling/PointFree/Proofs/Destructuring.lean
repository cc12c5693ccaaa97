import PointFree.Proofs.Arrangement.Cells
import PointFree.Proofs.Heap
import PointFree.Proofs.Views.Laziness

/-!
Contract: storing a value at a place.

A value is taken apart along the place, into the major cells of arrays, and each part goes to the
slot that stands where the part does. Whether or not this succeeds, no other slot is changed; and it
succeeds where the value comes apart as the place does and all slots may be set. Between two slots
arrays are read, so the elements of the value must give the same whenever they are read, and reading
them must leave the frames alone.
-/

namespace PointFree

variable {Code : Type}

/-! ### Frames that change in some slots -/

/-- The frames are the same but for the slots that are named. -/
structure Frame.ChangesIn (named : Nat → Prop) (before after : Frame) : Prop where
  parent : after.parent = before.parent
  others : ∀ slot, ¬named slot → after.slots[slot]? = before.slots[slot]?

namespace Heap

/-- Every frame is still there, and the same but for the slots that are named. -/
def ChangesIn (named : Nat → Nat → Prop) (before after : Heap Code) : Prop :=
  ∀ (index : Nat) (frame : Frame), before.frames[index]? = some frame →
    ∃ frame' : Frame, after.frames[index]? = some frame' ∧ frame.ChangesIn (named index) frame'

/-- The first frames are there, each around frames that come later only. -/
structure IsChained (count : Nat) (heap : Heap Code) : Prop where
  there : count ≤ heap.frames.size
  earlier : ∀ index < count, ∀ (frame : Frame) (parent : Nat), heap.frames[index]? = some frame →
    frame.parent = some parent → parent < index

section Changes

variable {named named' : Nat → Nat → Prop} {before between after heap : Heap Code}
variable {count frame depth depth' owner owner' slot : Nat}

theorem ChangesIn.of_grows (grows : before.frames.toList <+: after.frames.toList) :
    before.ChangesIn named after := by
  intro index frame isFrame
  obtain ⟨more, whole⟩ := grows
  rw [← Array.getElem?_toList] at isFrame
  refine ⟨frame, ?_, rfl, fun _ _ => rfl⟩
  rw [← Array.getElem?_toList, ← whole,
    List.getElem?_append_left (List.getElem?_eq_some_iff.1 isFrame).1]
  exact isFrame

theorem ChangesIn.refl (heap : Heap Code) : heap.ChangesIn named heap :=
  .of_grows List.prefix_rfl

theorem ChangesIn.trans (first : before.ChangesIn named between)
    (second : between.ChangesIn named after) : before.ChangesIn named after := by
  intro index frame isFrame
  obtain ⟨frame', isFrame', parent, others⟩ := first index frame isFrame
  obtain ⟨frame'', isFrame'', parent', others'⟩ := second index frame' isFrame'
  exact ⟨frame'', isFrame'', parent'.trans parent, fun slot unnamed =>
    (others' slot unnamed).trans (others slot unnamed)⟩

theorem ChangesIn.mono (changes : before.ChangesIn named after)
    (within : ∀ owner slot, named owner slot → named' owner slot) :
    before.ChangesIn named' after := by
  intro index frame isFrame
  obtain ⟨frame', isFrame', parent, others⟩ := changes index frame isFrame
  exact ⟨frame', isFrame', parent, fun slot unnamed =>
    others slot fun isNamed => unnamed (within index slot isNamed)⟩

theorem ChangesIn.slot?_eq (changes : before.ChangesIn named after)
    (inside : owner < before.frames.size) (unnamed : ¬named owner slot) :
    after.slot? owner slot = before.slot? owner slot := by
  have isFrame := Array.getElem?_eq_getElem inside
  obtain ⟨frame', isFrame', _, others⟩ := changes owner _ isFrame
  rw [slot?, slot?, isFrame, isFrame']
  exact others slot unnamed

theorem changesIn_setSlot (heap : Heap Code) (owner slot : Nat) (value : Value) :
    heap.ChangesIn (fun frame place => frame = owner ∧ place = slot)
      (heap.setSlot owner slot value) := by
  intro index frame isFrame
  rw [setSlot, Array.getElem?_modify, isFrame]
  split
  · next same =>
      refine ⟨_, rfl, rfl, fun place unnamed => ?_⟩
      exact Array.getElem?_setIfInBounds_ne fun here => unnamed ⟨same.symm, here.symm⟩
  · exact ⟨frame, rfl, rfl, fun _ _ => rfl⟩

theorem slot?_setSlot {content : Option Value} (isSlot : heap.slot? owner slot = some content)
    (value : Value) : (heap.setSlot owner slot value).slot? owner slot = some (some value) := by
  obtain ⟨frame, isFrame, isContent⟩ := Option.bind_eq_some_iff.1 isSlot
  rw [slot?, setSlot, Array.getElem?_modify, if_pos rfl, isFrame]
  exact Array.getElem?_setIfInBounds_self_of_lt (Array.getElem?_eq_some_iff.1 isContent).1

/-! ### Addresses -/

theorem ChangesIn.isChained (changes : before.ChangesIn named after)
    (chained : before.IsChained count) : after.IsChained count where
  there := by
    refine Nat.le_of_not_lt fun short => ?_
    have inside := Nat.lt_of_lt_of_le short chained.there
    obtain ⟨frame', isFrame', _⟩ := changes _ _ (Array.getElem?_eq_getElem inside)
    exact absurd (Array.getElem?_eq_some_iff.1 isFrame').1 (Nat.lt_irrefl _)
  earlier index inside frame' parent isFrame' isParent := by
    have isFrame := Array.getElem?_eq_getElem (Nat.lt_of_lt_of_le inside chained.there)
    obtain ⟨found, isFound, same, _⟩ := changes index _ isFrame
    cases isFrame'.symm.trans isFound
    exact chained.earlier index inside _ parent isFrame (same.symm.trans isParent)

/-- An address leads to the same frame as before. -/
theorem ChangesIn.ancestor?_eq (changes : before.ChangesIn named after)
    (chained : before.IsChained count) (inside : frame < count) (depth : Nat) :
    after.ancestor? frame depth = before.ancestor? frame depth := by
  induction depth generalizing frame with
  | zero => rfl
  | succ depth inductionHypothesis =>
      obtain ⟨⟨slots, outer⟩, isFrame⟩ : ∃ found, before.frames[frame]? = some found :=
        ⟨_, Array.getElem?_eq_getElem (Nat.lt_of_lt_of_le inside chained.there)⟩
      obtain ⟨⟨slots', outer'⟩, isFrame', parent, _⟩ := changes frame _ isFrame
      obtain rfl : outer' = outer := parent
      rw [ancestor?, ancestor?, isFrame', isFrame]
      cases outer' with
      | none => rfl
      | some outer =>
          have earlier := chained.earlier frame inside _ outer isFrame rfl
          exact inductionHypothesis (Nat.lt_trans earlier inside)

/-- Each step outward leads to an earlier frame. -/
theorem IsChained.ancestor?_add_le (chained : heap.IsChained count) (inside : frame < count)
    (isOwner : heap.ancestor? frame depth = some owner) : owner + depth ≤ frame := by
  induction depth generalizing frame with
  | zero =>
      cases isOwner
      exact Nat.le_refl _
  | succ depth inductionHypothesis =>
      rw [ancestor?] at isOwner
      split at isOwner
      · next slots outer isFrame =>
          have earlier := chained.earlier frame inside _ outer isFrame rfl
          have further := inductionHypothesis (Nat.lt_trans earlier inside) isOwner
          omega
      · cases isOwner

/-- A frame is found at one depth only. -/
theorem IsChained.depth_eq (chained : heap.IsChained count) (inside : frame < count)
    (isOwner : heap.ancestor? frame depth = some owner)
    (isOwner' : heap.ancestor? frame depth' = some owner) : depth = depth' := by
  induction depth generalizing frame depth' with
  | zero =>
      cases isOwner
      have near := chained.ancestor?_add_le inside isOwner'
      omega
  | succ depth inductionHypothesis =>
      cases depth' with
      | zero =>
          cases isOwner'
          have near := chained.ancestor?_add_le inside isOwner
          omega
      | succ depth' =>
          rw [ancestor?] at isOwner isOwner'
          split at isOwner
          · next slots outer isFrame =>
              rw [isFrame] at isOwner'
              have earlier := chained.earlier frame inside _ outer isFrame rfl
              rw [inductionHypothesis (Nat.lt_trans earlier inside) isOwner isOwner']
          · cases isOwner

/-! ### Slots that are named -/

/-- The address leads to a slot that may be set. -/
def IsOpen (heap : Heap Code) (fresh : Bool) (frame : Nat) (address : Nat × Nat) : Prop :=
  ∃ owner content, heap.ancestor? frame address.1 = some owner ∧
    heap.slot? owner address.2 = some content ∧ (fresh = false → content.isSome)

/-- The address leads to a slot that holds the value. -/
def Holds (heap : Heap Code) (frame : Nat) (address : Nat × Nat) (value : Value) : Prop :=
  ∃ owner, heap.ancestor? frame address.1 = some owner ∧
    heap.slot? owner address.2 = some (some value)

/-- One of the addresses leads to the slot. -/
def Names (heap : Heap Code) (frame : Nat) (addresses : List (Nat × Nat)) (owner slot : Nat) :
    Prop :=
  ∃ depth, (depth, slot) ∈ addresses ∧ heap.ancestor? frame depth = some owner

end Changes

section Named

variable {before after heap : Heap Code} {named : Nat → Nat → Prop} {fresh : Bool}
variable {count frame depth slot owner : Nat} {value : Value} {address : Nat × Nat}
variable {addresses others : List (Nat × Nat)}

theorem Names.append_left (isNamed : heap.Names frame addresses owner slot) :
    heap.Names frame (addresses ++ others) owner slot := by
  obtain ⟨depth, member, isOwner⟩ := isNamed
  exact ⟨depth, List.mem_append_left _ member, isOwner⟩

theorem Names.append_right (isNamed : heap.Names frame others owner slot) :
    heap.Names frame (addresses ++ others) owner slot := by
  obtain ⟨depth, member, isOwner⟩ := isNamed
  exact ⟨depth, List.mem_append_right _ member, isOwner⟩

/-- An address that is not among the addresses leads to a slot that they do not name. -/
theorem IsChained.not_names (chained : heap.IsChained count) (inside : frame < count)
    (isOwner : heap.ancestor? frame depth = some owner) (other : (depth, slot) ∉ addresses) :
    ¬heap.Names frame addresses owner slot := by
  rintro ⟨depth', member, isOwner'⟩
  rw [chained.depth_eq inside isOwner' isOwner] at member
  exact other member

theorem ChangesIn.names_iff (changes : before.ChangesIn named after)
    (chained : before.IsChained count) (inside : frame < count) :
    after.Names frame addresses owner slot ↔ before.Names frame addresses owner slot := by
  simp only [Names, changes.ancestor?_eq chained inside]

theorem IsChained.owner_lt (chained : heap.IsChained count) (inside : frame < count)
    (isOwner : heap.ancestor? frame depth = some owner) : owner < heap.frames.size := by
  have near := chained.ancestor?_add_le inside isOwner
  have there := chained.there
  omega

/-- What is held at an address that is not named stays there. -/
theorem Holds.of_changes (holds : before.Holds frame address value)
    (changes : before.ChangesIn (before.Names frame addresses) after)
    (chained : before.IsChained count) (inside : frame < count) (other : address ∉ addresses) :
    after.Holds frame address value := by
  obtain ⟨owner, isOwner, isSlot⟩ := holds
  refine ⟨owner, (changes.ancestor?_eq chained inside _).trans isOwner, ?_⟩
  rw [changes.slot?_eq (chained.owner_lt inside isOwner)
    (chained.not_names inside isOwner other)]
  exact isSlot

/-- Whether a slot that is not named may be set stays the same. -/
theorem isOpen_iff_of_changes (changes : before.ChangesIn (before.Names frame addresses) after)
    (chained : before.IsChained count) (inside : frame < count) (other : address ∉ addresses) :
    after.IsOpen fresh frame address ↔ before.IsOpen fresh frame address := by
  simp only [IsOpen, changes.ancestor?_eq chained inside]
  refine exists_congr fun owner => exists_congr fun content => and_congr_right fun isOwner => ?_
  rw [changes.slot?_eq (chained.owner_lt inside isOwner) (chained.not_names inside isOwner other)]

variable {memory : Memory (Heap Code)} (calling : Call (Heap Code))

theorem save_of_isOpen (isOpen : memory.heap.IsOpen fresh frame (depth, slot)) (value : Value) :
    ∃ owner content, memory.heap.ancestor? frame depth = some owner ∧
      memory.heap.slot? owner slot = some content ∧
      save fresh frame depth slot value calling memory =
        (.ok (), { memory with heap := memory.heap.setSlot owner slot value }) := by
  obtain ⟨owner, content, isOwner, isSlot, mayBeSet⟩ := isOpen
  refine ⟨owner, content, isOwner, isSlot, ?_⟩
  rw [save_of_slot? fresh isOwner isSlot, if_neg]
  rw [Bool.and_eq_true, Bool.not_eq_true', Option.isNone_iff_eq_none]
  rintro ⟨stale, rfl⟩
  exact absurd (mayBeSet stale) Bool.false_ne_true

theorem save_of_not_isOpen (closed : ¬memory.heap.IsOpen fresh frame (depth, slot))
    (value : Value) :
    ∃ failure, save fresh frame depth slot value calling memory = (.error failure, memory) := by
  rw [save_eq, writing]
  cases isOwner : memory.heap.ancestor? frame depth with
  | none => exact ⟨_, rfl⟩
  | some owner =>
      dsimp only
      cases isSlot : memory.heap.slot? owner slot with
      | none => exact ⟨_, rfl⟩
      | some content =>
          have unset : (!fresh && content.isNone) = true := by
            by_contra mayBeSet
            refine closed ⟨owner, content, isOwner, isSlot, fun stale => ?_⟩
            simpa [stale, Option.isSome_iff_ne_none] using mayBeSet
          dsimp only
          rw [if_pos unset]
          exact ⟨_, rfl⟩

end Named

end Heap

/-! ### Values that give the same whenever they are read -/

/-- From every memory held to, the action ends with the result at such a memory, and leaves the
frames that were there. -/
def Action.ReadsAs {α : Type} (calling : Call (Heap Code)) (held : Memory (Heap Code) → Prop)
    (action : Action (Heap Code) α) (result : α) : Prop :=
  ∀ frames : List Frame, action.EndsWith calling
    (fun memory => held memory ∧ frames <+: memory.heap.frames.toList) result

section Reading

variable {calling : Call (Heap Code)} {held : Memory (Heap Code) → Prop}

theorem Action.readsAs_pure {α : Type} (result : α) :
    (pure result : Action (Heap Code) α).ReadsAs calling held result :=
  fun _ => endsWith_pure result

theorem Action.ReadsAs.run {α : Type} {action : Action (Heap Code) α} {result : α}
    (reads : action.ReadsAs calling held result) {memory : Memory (Heap Code)}
    (holds : held memory) : ∃ after, action calling memory = (.ok result, after) ∧ held after ∧
      memory.heap.frames.toList <+: after.heap.frames.toList :=
  reads memory.heap.frames.toList memory ⟨holds, List.prefix_rfl⟩

/-- Every element, however deep inside, gives the same whenever it is read. -/
inductive Value.IsSteady (calling : Call (Heap Code)) (held : Memory (Heap Code) → Prop) :
    Value → Prop where
  | flat {value : Value} : value.isArray = false → IsSteady calling held value
  | array {items : ShapedArray} (values : Nat → Value) : items.IsMade calling →
      (∀ index < items.count, (items.pick index).ReadsAs calling held (values index)) →
      (∀ index < items.count, IsSteady calling held (values index)) →
      IsSteady calling held (.array items)

namespace ShapedArray

variable {items : ShapedArray} {values : Nat → Value} {place : Nat}

/-- A major cell is an element or an array of elements, and gives the same whenever it is read. -/
theorem IsMade.cellAt_readsAs (made : items.IsMade calling) (ranked : items.rank ≠ 0)
    (reads : ∀ index < items.count, (items.pick index).ReadsAs calling held (values index))
    (steady : ∀ index < items.count, (values index).IsSteady calling held)
    (inside : place < items.length) :
    ∃ cell, (items.cellAt [place]).ReadsAs calling held cell ∧ cell.IsSteady calling held := by
  obtain ⟨cell, selected⟩ := made.exists_majorCell ranked inside
  have taken : (items.cellAt [place] : Action (Heap Code) Value) = Value.ofCell cell := by
    rw [cellAt, selected]
    rfl
  have size : cell.count = items.shape.cellSize := by
    rw [count, made.shape_majorCell selected, Shape.cellSize]
  rw [taken, Value.ofCell]
  split
  · next none =>
      have single : 0 < cell.count := by
        rw [count, List.length_eq_zero_iff.1 none]
        exact Nat.one_pos
      rw [made.pick_majorCell ranked selected single]
      have below := cell_lt ranked inside (size ▸ single)
      exact ⟨_, reads _ below, steady _ below⟩
  · next some =>
      refine ⟨_, Action.readsAs_pure _,
        .array (fun offset => values (place * items.shape.cellSize + offset))
          (.selectRank made selected) (fun offset within => ?_) fun offset within => ?_⟩
      · rw [made.pick_majorCell ranked selected within]
        exact reads _ (cell_lt ranked inside (size ▸ within))
      · exact steady _ (cell_lt ranked inside (size ▸ within))

theorem IsMade.majorCells_readsAs (made : items.IsMade calling)
    (reads : ∀ index < items.count, (items.pick index).ReadsAs calling held (values index))
    (steady : ∀ index < items.count, (values index).IsSteady calling held) :
    ∃ cells, items.majorCells.ReadsAs calling held cells ∧
      ∀ cell ∈ cells, cell.IsSteady calling held := by
  by_cases scalar : items.rank = 0
  · have single : 0 < items.count := by
      rw [count, List.length_eq_zero_iff.1 scalar]
      exact Nat.one_pos
    refine ⟨#[values 0], ?_, by simpa using steady 0 single⟩
    rw [ShapedArray.majorCells, if_pos scalar]
    exact fun frames => (reads 0 single frames).bind (Action.endsWith_pure _)
  · by_cases none : items.isEmpty = true
    · refine ⟨#[], ?_, by simp⟩
      rw [ShapedArray.majorCells, if_neg scalar, if_pos none]
      exact Action.readsAs_pure _
    · have : Nonempty Value := ⟨.nil⟩
      have each (place : Nat) (inside : place < items.length) :=
        made.cellAt_readsAs scalar reads steady inside
      choose! cell isRead isSteady using each
      refine ⟨(Array.range items.length).map cell, ?_, ?_⟩
      · rw [ShapedArray.majorCells, if_neg scalar, if_neg none]
        exact fun frames => Action.endsWith_collect fun place inside => isRead place inside frames
      · intro content member
        obtain ⟨place, inside, rfl⟩ := Array.mem_map.1 member
        exact isSteady place (by simpa using inside)

end ShapedArray

end Reading

/-! ### Places and their parts -/

mutual

/-- The depth and the slot of every slot of the place, in order. -/
def Place.addresses : Place → List (Nat × Nat)
  | .slot depth position => [(depth, position)]
  | .list places => Place.addressesAll places
termination_by structural place => place

def Place.addressesAll : List Place → List (Nat × Nat)
  | [] => []
  | place :: places => place.addresses ++ Place.addressesAll places
termination_by structural places => places

end

/-- A part of a value, with the address of the slot that it goes to. -/
abbrev Part := (Nat × Nat) × Value

mutual

/-- The value comes apart as the place does: where the place is a list, it is an array with as many
major cells, each of which comes apart as the place it goes to. -/
inductive Place.Takes (calling : Call (Heap Code)) (held : Memory (Heap Code) → Prop) :
    Place → Value → List Part → Prop where
  | slot (depth position : Nat) (value : Value) :
      Takes calling held (.slot depth position) value [((depth, position), value)]
  | list {places : List Place} {items : ShapedArray} {cells : Array Value} {parts : List Part} :
      items.majorCells.ReadsAs calling held cells →
      TakesEach calling held places cells.toList parts →
      Takes calling held (.list places) (.array items) parts

inductive Place.TakesEach (calling : Call (Heap Code)) (held : Memory (Heap Code) → Prop) :
    List Place → List Value → List Part → Prop where
  | nil : TakesEach calling held [] [] []
  | cons {place : Place} {places : List Place} {value : Value} {values : List Value}
      {parts more : List Part} :
      Takes calling held place value parts → TakesEach calling held places values more →
      TakesEach calling held (place :: places) (value :: values) (parts ++ more)

end

section Storing

variable {calling : Call (Heap Code)} {held : Memory (Heap Code) → Prop}

mutual

theorem Place.Takes.addresses_eq : ∀ {place : Place} {value : Value} {parts : List Part},
    place.Takes calling held value parts → parts.map Prod.fst = place.addresses
  | _, _, _, .slot _ _ _ => rfl
  | _, _, _, .list _ each => each.addresses_eq

theorem Place.TakesEach.addresses_eq : ∀ {places : List Place} {values : List Value}
    {parts : List Part}, Place.TakesEach calling held places values parts →
      parts.map Prod.fst = Place.addressesAll places
  | _, _, _, .nil => rfl
  | _, _, _, .cons first rest => by
      rw [List.map_append, first.addresses_eq, rest.addresses_eq]
      rfl

end

theorem Place.TakesEach.length_eq {places : List Place} {values : List Value} {parts : List Part}
    (takes : Place.TakesEach calling held places values parts) : values.length = places.length := by
  induction takes using Place.TakesEach.rec (motive_1 := fun _ _ _ _ => True) with
  | nil => rfl
  | cons _ _ _ inductionHypothesis => exact congrArg (· + 1) inductionHypothesis
  | slot => trivial
  | list => trivial

variable {fresh : Bool} {count frame : Nat} {memory : Memory (Heap Code)}

/-- What is kept while parts of a value are stored: whatever is set in a slot that is named, it
does not matter to what is read. -/
def SavesKeep (held : Memory (Heap Code) → Prop) (frame : Nat) (addresses : List (Nat × Nat)) :
    Prop :=
  ∀ memory owner slot value, held memory → memory.heap.Names frame addresses owner slot →
    held { memory with heap := memory.heap.setSlot owner slot value }

/-- How storing ends: only slots at the addresses are changed; on success the value comes apart and
each slot holds its part, and it succeeds where the value comes apart and all slots may be set. -/
structure Saved (held : Memory (Heap Code) → Prop) (fresh : Bool) (frame : Nat)
    (addresses : List (Nat × Nat)) (takes : List Part → Prop) (memory : Memory (Heap Code))
    (ended : Outcome Unit × Memory (Heap Code)) : Prop where
  changes : memory.heap.ChangesIn (memory.heap.Names frame addresses) ended.2.heap
  stored : ended.1 = .ok () → held ended.2 ∧
    (∃ parts, takes parts ∧ ∀ part ∈ parts, ended.2.heap.Holds frame part.1 part.2) ∧
    ∀ address ∈ addresses, memory.heap.IsOpen fresh frame address
  succeeds : (∃ parts, takes parts) →
    (∀ address ∈ addresses, memory.heap.IsOpen fresh frame address) → ended.1 = .ok ()

variable {addresses others : List (Nat × Nat)} {takes takes' : List Part → Prop}
variable {between : Memory (Heap Code)} {ended : Outcome Unit × Memory (Heap Code)}

theorem SavesKeep.mono (keep : SavesKeep held frame others)
    (within : ∀ address ∈ addresses, address ∈ others) : SavesKeep held frame addresses := by
  rintro memory owner slot value holds ⟨depth, member, isOwner⟩
  exact keep memory owner slot value holds ⟨depth, within _ member, isOwner⟩

/-- Frames that have been added on the way change nothing. -/
theorem Saved.of_grows (saved : Saved held fresh frame addresses takes between ended)
    (grows : memory.heap.frames.toList <+: between.heap.frames.toList)
    (chained : memory.heap.IsChained count) (inside : frame < count) :
    Saved held fresh frame addresses takes memory ended := by
  have added : memory.heap.ChangesIn (memory.heap.Names frame []) between.heap := .of_grows grows
  have opens (address : Nat × Nat) :
      between.heap.IsOpen fresh frame address ↔ memory.heap.IsOpen fresh frame address :=
    Heap.isOpen_iff_of_changes added chained inside List.not_mem_nil
  refine ⟨(Heap.ChangesIn.of_grows grows).trans (saved.changes.mono fun owner slot isNamed => ?_),
    fun succeeds => ?_, fun apart allOpen => ?_⟩
  · exact (added.names_iff chained inside).1 isNamed
  · obtain ⟨kept, parts, allOpen⟩ := saved.stored succeeds
    exact ⟨kept, parts, fun address member => (opens address).1 (allOpen address member)⟩
  · exact saved.succeeds apart fun address member => (opens address).2 (allOpen address member)

/-- A value that does not come apart may be refused. -/
theorem Saved.refused {failure : Failure} (whole : ∀ parts, ¬takes parts) :
    Saved held fresh frame addresses takes memory (.error failure, memory) :=
  ⟨.refl _, nofun, fun ⟨parts, apart⟩ => absurd apart (whole parts)⟩

theorem Saved.of_iff (saved : Saved held fresh frame addresses takes memory ended)
    (same : ∀ parts, takes parts ↔ takes' parts) :
    Saved held fresh frame addresses takes' memory ended :=
  (funext fun parts => propext (same parts) : takes = takes') ▸ saved

/-- One slot. -/
theorem Heap.saved_save (holds : held memory) (chained : memory.heap.IsChained count)
    (inside : frame < count) {depth slot : Nat}
    (keep : SavesKeep held frame [(depth, slot)]) (value : Value) :
    Saved held fresh frame [(depth, slot)] (Place.Takes calling held (.slot depth slot) value)
      memory (save fresh frame depth slot value calling memory) := by
  by_cases isOpen : memory.heap.IsOpen fresh frame (depth, slot)
  · obtain ⟨owner, content, isOwner, isSlot, saved⟩ :=
      save_of_isOpen calling isOpen value
    have isNamed : memory.heap.Names frame [(depth, slot)] owner slot :=
      ⟨depth, List.mem_singleton_self _, isOwner⟩
    have changes := changesIn_setSlot memory.heap owner slot value
    rw [saved]
    refine ⟨changes.mono ?_, fun _ => ⟨keep memory owner slot value holds isNamed,
      ⟨_, .slot depth slot value, ?_⟩, List.forall_mem_singleton.2 isOpen⟩, fun _ _ => rfl⟩
    · rintro _ _ ⟨rfl, rfl⟩
      exact isNamed
    · refine List.forall_mem_singleton.2 ⟨owner, ?_, slot?_setSlot isSlot value⟩
      exact (changes.ancestor?_eq chained inside depth).trans isOwner
  · obtain ⟨failure, saved⟩ := save_of_not_isOpen calling isOpen value
    rw [saved]
    exact ⟨.refl _, nofun, fun _ allOpen => absurd (allOpen _ (List.mem_singleton_self _)) isOpen⟩

/-- One slot after the other. -/
theorem Saved.bind {action next : Action (Heap Code) Unit}
    (first : Saved held fresh frame addresses takes memory (action calling memory))
    (second : ∀ between, held between → between.heap.IsChained count →
      Saved held fresh frame others takes' between (next calling between))
    (chained : memory.heap.IsChained count) (inside : frame < count)
    (distinct : (addresses ++ others).Nodup)
    (named : ∀ parts, takes parts → parts.map Prod.fst = addresses) :
    Saved held fresh frame (addresses ++ others)
      (fun parts => ∃ before after, takes before ∧ takes' after ∧ parts = before ++ after) memory
      ((action >>= fun _ => next) calling memory) := by
  obtain ⟨_, _, disjoint⟩ := List.nodup_append.1 distinct
  rcases began : action calling memory with ⟨failure | _, between⟩
  · rw [began] at first
    rw [Action.bind_of_error began]
    refine ⟨first.changes.mono fun _ _ => .append_left, nofun, fun apart allOpen => ?_⟩
    obtain ⟨_, before, _, isBefore, _⟩ := apart
    exact first.succeeds ⟨before, isBefore⟩ fun address member =>
      allOpen address (List.mem_append_left _ member)
  · rw [began] at first
    rw [Action.bind_of_ok began]
    obtain ⟨kept, ⟨before, isBefore, holds⟩, firstOpen⟩ := first.stored rfl
    have second := second between kept (first.changes.isChained chained)
    have names (owner slot : Nat) : between.heap.Names frame others owner slot ↔
        memory.heap.Names frame others owner slot := first.changes.names_iff chained inside
    have opens (address : Nat × Nat) (member : address ∈ others) :
        between.heap.IsOpen fresh frame address ↔ memory.heap.IsOpen fresh frame address :=
      Heap.isOpen_iff_of_changes first.changes chained inside fun other =>
        disjoint address other address member rfl
    refine ⟨?_, fun succeeds => ?_, fun apart allOpen => ?_⟩
    · refine (first.changes.mono fun _ _ => .append_left).trans (second.changes.mono ?_)
      exact fun owner slot isNamed => .append_right ((names owner slot).1 isNamed)
    · obtain ⟨keptAfter, ⟨after, isAfter, holdsAfter⟩, secondOpen⟩ := second.stored succeeds
      refine ⟨keptAfter, ⟨before ++ after, ⟨before, after, isBefore, isAfter, rfl⟩, ?_⟩, ?_⟩
      · refine List.forall_mem_append.2 ⟨fun part member => ?_, holdsAfter⟩
        have address : part.1 ∈ addresses := named before isBefore ▸ List.mem_map_of_mem member
        refine (holds part member).of_changes second.changes (first.changes.isChained chained)
          inside fun other => disjoint _ address _ other rfl
      · exact List.forall_mem_append.2 ⟨firstOpen, fun address member =>
          (opens address member).1 (secondOpen address member)⟩
    · obtain ⟨_, _, after, _, isAfter, _⟩ := apart
      exact second.succeeds ⟨after, isAfter⟩ fun address member =>
        (opens address member).2 (allOpen address (List.mem_append_right _ member))

/-- A list of places, where storing the cells at them ends so. -/
theorem Place.list_ends {places : List Place} {value : Value} (steady : value.IsSteady calling held)
    (holds : held memory) (chained : memory.heap.IsChained count) (inside : frame < count)
    (each : ∀ (cells : List Value) (between : Memory (Heap Code)),
      (∀ cell ∈ cells, cell.IsSteady calling held) → cells.length = places.length → held between →
      between.heap.IsChained count → Saved held fresh frame addresses
        (Place.TakesEach calling held places cells) between
        (Place.saveEach fresh frame places cells calling between)) :
    Saved held fresh frame addresses ((Place.list places).Takes calling held value) memory
      ((Place.list places).save fresh frame value calling memory) := by
  cases steady with
  | flat flat =>
      have whole : ∀ parts, ¬(Place.list places).Takes calling held value parts := by
        rintro parts ⟨⟩
        cases flat
      cases value with
      | array items => cases flat
      | number amount => exact .refused whole
      | character letter => exact .refused whole
      | function contents => exact .refused whole
  | @array items values made reads inner =>
      obtain ⟨cells, isRead, cellsSteady⟩ := made.majorCells_readsAs reads inner
      obtain ⟨between, read, kept, grows⟩ := isRead.run holds
      have grown : memory.heap.ChangesIn (fun _ _ => False) between.heap := .of_grows grows
      -- From a memory held to, the cells can be read in one way only.
      have takes_iff (parts : List Part) : Place.TakesEach calling held places cells.toList parts ↔
          (Place.list places).Takes calling held (.array items) parts := by
        refine ⟨.list isRead, fun takes => ?_⟩
        cases takes with
        | list isRead' each =>
            obtain ⟨_, read', _⟩ := isRead'.run holds
            cases read.symm.trans read'
            exact each
      rw [Place.save, Action.bind_of_ok read]
      refine Saved.of_grows (.of_iff ?_ takes_iff) grows chained inside
      split
      · next length =>
          exact each _ between (fun cell member => cellsSteady cell (Array.mem_toList_iff.1 member))
            length kept (grown.isChained chained)
      · next length => exact .refused fun parts each => length each.length_eq

mutual

/-- A place, by what is stored at the places of a list one after the other. -/
theorem Place.save_ends (fresh : Bool) : ∀ (place : Place) {value : Value}
    {memory : Memory (Heap Code)}, value.IsSteady calling held → held memory →
    memory.heap.IsChained count → frame < count → place.addresses.Nodup →
    SavesKeep held frame place.addresses →
    Saved held fresh frame place.addresses (place.Takes calling held value) memory
      (place.save fresh frame value calling memory)
  | .slot _ _, value, _, _, holds, chained, inside, _, keep =>
      Heap.saved_save holds chained inside keep value
  | .list places, _, _, steady, holds, chained, inside, distinct, keep =>
      Place.list_ends steady holds chained inside fun _ _ cells length kept later =>
        Place.saveEach_ends fresh places cells length kept later inside distinct keep

theorem Place.saveEach_ends (fresh : Bool) : ∀ (places : List Place) {values : List Value}
    {memory : Memory (Heap Code)}, (∀ value ∈ values, value.IsSteady calling held) →
    values.length = places.length → held memory → memory.heap.IsChained count → frame < count →
    (Place.addressesAll places).Nodup → SavesKeep held frame (Place.addressesAll places) →
    Saved held fresh frame (Place.addressesAll places) (Place.TakesEach calling held places values)
      memory (Place.saveEach fresh frame places values calling memory)
  | [], [], memory, _, _, holds, _, _, _, _ =>
      ⟨.refl _, fun _ => ⟨holds, ⟨[], .nil, nofun⟩, nofun⟩, fun _ _ => rfl⟩
  | place :: places, value :: values, memory, steady, length, holds, chained, inside, distinct,
      keep => by
      obtain ⟨first, rest⟩ := List.forall_mem_cons.1 steady
      obtain ⟨distinctFirst, distinctRest, _⟩ := List.nodup_append.1 distinct
      have begins := Place.save_ends fresh place first holds chained inside distinctFirst
        (keep.mono fun _ => List.mem_append_left _)
      have each := begins.bind (fun between kept later => Place.saveEach_ends fresh places rest
        (Nat.succ.inj length) kept later inside distinctRest
        (keep.mono fun _ => List.mem_append_right _)) chained inside distinct
        fun _ takes => takes.addresses_eq
      refine each.of_iff fun parts => ⟨?_, fun takes => ?_⟩
      · rintro ⟨before, after, isBefore, isAfter, rfl⟩
        exact .cons isBefore isAfter
      · cases takes with
        | cons isBefore isAfter => exact ⟨_, _, isBefore, isAfter, rfl⟩

end

/-- A value whose elements give the same whenever they are read, and whose reading leaves the frames
alone, is stored at a place of distinct slots. No slot that the place does not name is changed,
whether or not it succeeds; on success each slot that it names holds the part of the value that
stands there; and it succeeds just where the value comes apart as the place does and every slot that
it names is there and, unless it is defined anew, set. -/
theorem Place.save_stores (fresh : Bool) {place : Place} {value : Value}
    (steady : value.IsSteady calling held) (distinct : place.addresses.Nodup)
    (chained : memory.heap.IsChained memory.heap.frames.size)
    (inside : frame < memory.heap.frames.size) (holds : held memory)
    (keep : SavesKeep held frame place.addresses) :
    ∃ outcome after, place.save fresh frame value calling memory = (outcome, after) ∧
      (∀ owner slot, owner < memory.heap.frames.size →
        ¬memory.heap.Names frame place.addresses owner slot →
        after.heap.slot? owner slot = memory.heap.slot? owner slot) ∧
      (outcome = .ok () → ∃ parts, place.Takes calling held value parts ∧
        ∀ part ∈ parts, after.heap.Holds frame part.1 part.2) ∧
      (outcome = .ok () ↔ (∃ parts, place.Takes calling held value parts) ∧
        ∀ address ∈ place.addresses, memory.heap.IsOpen fresh frame address) := by
  have ends := Place.save_ends fresh place steady holds chained inside distinct keep
  refine ⟨_, _, rfl, fun owner slot there unnamed => ends.changes.slot?_eq there unnamed,
    fun succeeds => (ends.stored succeeds).2.1, fun succeeds => ?_, fun apart => ?_⟩
  · obtain ⟨_, ⟨parts, takes, _⟩, allOpen⟩ := ends.stored succeeds
    exact ⟨⟨parts, takes⟩, allOpen⟩
  · exact ends.succeeds apart.1 apart.2

theorem Value.isSteady_list {elements : Array Value}
    (steady : ∀ element ∈ elements, element.IsSteady calling held) :
    (Value.list elements).IsSteady calling held := by
  refine .array (fun index => elements.getD index .nil) (.list elements)
    (fun index inside frames => ShapedArray.hasValues_list elements index inside) ?_
  intro index inside
  rw [ShapedArray.count_list] at inside
  rw [Array.getD_eq_getD_getElem?, Array.getElem?_eq_getElem inside]
  exact steady _ (Array.getElem_mem inside)

end Storing

/-! ### A pair and a pair inside it -/

namespace Nested

open ShapedArray (Tally.calls)

/-- The first slot is in the frame outside. -/
def place : Place :=
  .list [.slot 1 0, .list [.slot 0 0, .slot 0 1]]

def value : Value :=
  .list #[.character 'a', .list #[.character 'b', .character 'c']]

def store : Store :=
  ⟨⟨#[⟨#[none, some (.number 0.0)], none⟩, ⟨#[none, none, none], some 0⟩], #[]⟩, 0, 0⟩

theorem value_isSteady : value.IsSteady Tally.calls fun _ => True := by
  refine Value.isSteady_list fun element member => ?_
  rcases Array.mem_toList_iff.2 member with _ | ⟨_, _ | ⟨_, ⟨⟩⟩⟩
  · exact .flat rfl
  · refine Value.isSteady_list fun element member => ?_
    rcases Array.mem_toList_iff.2 member with _ | ⟨_, _ | ⟨_, ⟨⟩⟩⟩
    · exact .flat rfl
    · exact .flat rfl

theorem store_isChained : store.heap.IsChained 2 := by
  refine ⟨Nat.le_refl _, fun index inside frame parent isFrame isParent => ?_⟩
  obtain rfl | rfl : index = 0 ∨ index = 1 := by omega
  · cases isFrame
    cases isParent
  · cases isFrame
    cases isParent
    exact Nat.one_pos

end Nested

open Nested ShapedArray in
theorem Place.save_stores_nested :
    value.IsSteady Tally.calls (fun _ => True) ∧ place.addresses.Nodup ∧
    store.heap.IsChained store.heap.frames.size ∧
    ∃ outcome after, place.save true 1 value Tally.calls store = (outcome, after) ∧
      (∀ owner slot, owner < store.heap.frames.size →
        ¬store.heap.Names 1 place.addresses owner slot →
        after.heap.slot? owner slot = store.heap.slot? owner slot) ∧
      (outcome = .ok () → ∃ parts, place.Takes Tally.calls (fun _ => True) value parts ∧
        ∀ part ∈ parts, after.heap.Holds 1 part.1 part.2) ∧
      (outcome = .ok () ↔ (∃ parts, place.Takes Tally.calls (fun _ => True) value parts) ∧
        ∀ address ∈ place.addresses, store.heap.IsOpen true 1 address) :=
  ⟨value_isSteady, by decide, store_isChained,
    Place.save_stores true value_isSteady (by decide) store_isChained (by decide) trivial
      fun _ _ _ _ _ _ => trivial⟩

/-! ### A slot that is changed by reading -/

namespace Tallied

open ShapedArray Tally

/-- One slot, in the frame in which the zip keeps its count in another. -/
def place : Place :=
  .list [.slot 0 0]

/-- Whether the count is one once the zip has been stored. -/
def counted (ended : Outcome Unit × Store) : Bool :=
  match ended.1, ended.2.heap.slot? 0 3 with
  | .ok _, some (some (.number amount)) => amount == 1.0
  | _, _ => false

end Tallied

open ShapedArray Tally in
/-- A zip that counts how often it is read can be read and is stored, and a slot that the place does
not name is changed. -/
theorem Place.save_changes_others :
    count.IsMade calls ∧ (∃ value later, count.pick 0 calls store = (.ok value, later)) ∧
    Tallied.place.addresses.Nodup ∧ store.heap.IsChained store.heap.frames.size ∧
    ¬store.heap.Names 0 Tallied.place.addresses 0 3 ∧
    ∃ after, Tallied.place.save true 0 (.array count) calls store = (.ok (), after) ∧
      after.heap.slot? 0 3 ≠ store.heap.slot? 0 3 := by
  have picked : (count.pick 0 calls store).1.isOk = true := by
    decide +kernel
  have counted : Tallied.counted (Tallied.place.save true 0 (.array count) calls store) = true := by
    decide +kernel
  have chained : store.heap.IsChained store.heap.frames.size := by
    refine ⟨Nat.le_refl _, fun index inside frame parent isFrame isParent => ?_⟩
    obtain rfl : index = 0 := Nat.lt_one_iff.1 inside
    cases isFrame
    cases isParent
  have unnamed : ¬store.heap.Names 0 Tallied.place.addresses 0 3 := by
    rintro ⟨depth, member, _⟩
    cases List.mem_singleton.1 member
  refine ⟨count_made, ?_, by decide, chained, unnamed, ?_⟩
  · rcases ended : count.pick 0 calls store with ⟨failure | value, later⟩
    · rw [ended] at picked
      cases picked
    · exact ⟨value, later, rfl⟩
  · rcases ended : Tallied.place.save true 0 (.array count) calls store with ⟨failure | _, after⟩
    · rw [ended] at counted
      cases counted
    · refine ⟨after, rfl, fun same => ?_⟩
      rw [ended] at counted
      have zero : Tallied.counted (.ok (), store) = true := by
        rw [Tallied.counted, ← same]
        exact counted
      exact absurd zero (by decide +kernel)

end PointFree
