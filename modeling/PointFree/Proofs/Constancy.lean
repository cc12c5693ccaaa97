import PointFree.Proofs.Settling
import PointFree.Proofs.Views.Making

/-!
Contract: readings that always give the same.

An action ends with a result if it gives this result from every memory that is held to, and leaves
such a memory again. An array has values if reading each of its elements ends with one; what else a
reading does to the memory is left open. A copy of an array has its shape and its fill, and reading
an element of the copy ends like reading the element of the array, whatever that is: a copy of an
array that cannot be read cannot be read either.
-/

namespace PointFree

variable {H α β : Type}

namespace Action

/-- From every memory held to, the action succeeds with the result, at such a memory. -/
def EndsWith (calling : Call H) (held : Memory H → Prop) (action : Action H α) (result : α) :
    Prop :=
  ∀ memory, held memory → ∃ after, action calling memory = (.ok result, after) ∧ held after

/-- From every memory held to, the action fails with a failure of the kind. -/
def FailsAs (calling : Call H) (held : Memory H → Prop) (action : Action H α) (kind : FaultKind) :
    Prop :=
  ∀ memory, held memory → ∃ failure after,
    action calling memory = (.error failure, after) ∧ failure.kind = kind

/-- From every memory held to, the action ends like the other one, and at such a memory if the
other one does. -/
def EndsLike (calling : Call H) (held : Memory H → Prop) (action action' : Action H α) : Prop :=
  ∀ memory, held memory → (action calling memory).1 = (action' calling memory).1 ∧
    (held (action' calling memory).2 → held (action calling memory).2)

variable {calling : Call H} {held : Memory H → Prop} {action action' action'' : Action H α}
variable {result : α} {result' : β} {next : α → Action H β} {kind : FaultKind}

theorem endsWith_pure (result : α) : (pure result : Action H α).EndsWith calling held result :=
  fun memory holds => ⟨memory, rfl, holds⟩

theorem failsAs_refuse (fault : Fault) :
    (refuse fault : Action H α).FailsAs calling held fault.kind :=
  fun memory _ => ⟨_, memory, rfl, rfl⟩

theorem EndsWith.bind (first : action.EndsWith calling held result)
    (second : (next result).EndsWith calling held result') :
    (action >>= next).EndsWith calling held result' := by
  intro memory holds
  obtain ⟨between, ended, kept⟩ := first memory holds
  rw [bind_of_ok ended]
  exact second between kept

theorem EndsWith.bind_fails (first : action.EndsWith calling held result)
    (second : (next result).FailsAs calling held kind) :
    (action >>= next).FailsAs calling held kind := by
  intro memory holds
  obtain ⟨between, ended, kept⟩ := first memory holds
  rw [bind_of_ok ended]
  exact second between kept

theorem FailsAs.bind (first : action.FailsAs calling held kind) :
    (action >>= next).FailsAs calling held kind := by
  intro memory holds
  obtain ⟨failure, after, ended, isKind⟩ := first memory holds
  exact ⟨failure, after, bind_of_error ended, isKind⟩

theorem EndsWith.settles (ends : action.EndsWith calling held result) :
    action.Settles calling held Eq (some result) := by
  intro memory holds
  obtain ⟨after, ended, kept⟩ := ends memory holds
  rw [ended]
  exact ⟨kept, .ok rfl⟩

/-- An action that settles ends with the one result that fits. -/
theorem EndsWith.of_settles {fits : β → α → Prop} {foretold : β}
    (settles : action.Settles calling held fits (some foretold))
    (only : ∀ found, fits foretold found → found = result) :
    action.EndsWith calling held result := by
  intro memory holds
  obtain ⟨found, after, ended, kept, agrees⟩ := settles.ok holds
  rw [only found agrees] at ended
  exact ⟨after, ended, kept⟩

/-! ### Actions that end alike -/

theorem EndsLike.refl (action : Action H α) : action.EndsLike calling held action :=
  fun _ _ => ⟨rfl, id⟩

theorem EndsLike.trans (first : action.EndsLike calling held action')
    (second : action'.EndsLike calling held action'') : action.EndsLike calling held action'' := by
  intro memory holds
  obtain ⟨same, keeps⟩ := first memory holds
  obtain ⟨same', keeps'⟩ := second memory holds
  exact ⟨same.trans same', fun kept => keeps (keeps' kept)⟩

/-- Two actions that end with one result end alike. -/
theorem EndsWith.endsLike (ends : action.EndsWith calling held result)
    (ends' : action'.EndsWith calling held result) : action.EndsLike calling held action' := by
  intro memory holds
  obtain ⟨after, ended, kept⟩ := ends memory holds
  obtain ⟨after', ended', _⟩ := ends' memory holds
  rw [ended, ended']
  exact ⟨rfl, fun _ => kept⟩

theorem EndsWith.of_like (ends : action'.EndsWith calling held result)
    (alike : action.EndsLike calling held action') : action.EndsWith calling held result := by
  intro memory holds
  obtain ⟨after, ended, kept⟩ := ends memory holds
  obtain ⟨same, keeps⟩ := alike memory holds
  rw [ended] at same keeps
  exact ⟨(action calling memory).2, Prod.ext same rfl, keeps kept⟩

/-! ### Collections -/

/-- A collection of actions that end with results ends with all of them. -/
theorem endsWith_collect {item : Nat → Action H α} {value : Nat → α} {count : Nat}
    (items : ∀ index < count, (item index).EndsWith calling held (value index)) :
    (collect item count).EndsWith calling held ((Array.range count).map value) := by
  -- That an action ends with a result is that it settles as foretold, with equal results.
  have settles := Settles.collect_range fun index inside => (items index inside).settles
  refine .of_settles settles fun found same => ?_
  rw [List.forall₂_eq_eq_eq] at same
  rw [← Array.toList_inj, ← same, Array.toList_map, Array.toList_range]

theorem FailsAs.collectFrom {item : Nat → Action H α} {remaining index : Nat} {found : Array α}
    (items : ∀ place, index ≤ place → place < index + remaining →
      (∃ value, (item place).EndsWith calling held value) ∨
        (item place).FailsAs calling held kind)
    {place : Nat} (above : index ≤ place) (below : place < index + remaining)
    (fails : (item place).FailsAs calling held kind) :
    (PointFree.collectFrom item remaining index found).FailsAs calling held kind := by
  induction remaining generalizing index found with
  | zero => omega
  | succ remaining inductionHypothesis =>
      by_cases here : index = place
      · subst here
        exact fails.bind
      · rcases items index (Nat.le_refl _) (by omega) with ⟨value, ends⟩ | first
        · refine ends.bind_fails (inductionHypothesis ?_ (by omega) (by omega))
          exact fun place above below => items place (by omega) (by omega)
        · exact first.bind

/-- A collection in which all that fails fails alike, and something does, fails like that. -/
theorem FailsAs.collect {item : Nat → Action H α} {count index : Nat}
    (items : ∀ index < count, (∃ value, (item index).EndsWith calling held value) ∨
      (item index).FailsAs calling held kind)
    (inside : index < count) (fails : (item index).FailsAs calling held kind) :
    (PointFree.collect item count).FailsAs calling held kind :=
  FailsAs.collectFrom (fun place _ below => items place (by omega)) (Nat.zero_le _) (by omega) fails

end Action

namespace ShapedArray

variable {calling : Call H} {held : Memory H → Prop}
variable {array copy copy' copy'' original : ShapedArray} {values : Nat → Value}

/-- Reading the element at an index ends with the value. -/
def HasValues (calling : Call H) (held : Memory H → Prop) (array : ShapedArray)
    (values : Nat → Value) : Prop :=
  ∀ index < array.count, (array.pick index).EndsWith calling held (values index)

theorem exists_values (array : ShapedArray) : ∃ values : Nat → Value, ∀ index,
    (∃ value, (array.pick index).EndsWith calling held value) →
      (array.pick index).EndsWith calling held (values index) := by
  have each (index : Nat) : ∃ value,
      (∃ value, (array.pick index).EndsWith calling held value) →
        (array.pick index).EndsWith calling held value := by
    by_cases ends : ∃ value, (array.pick index).EndsWith calling held value
    · obtain ⟨value, ends⟩ := ends
      exact ⟨value, fun _ => ends⟩
    · exact ⟨.nil, fun found => absurd found ends⟩
  exact Classical.skolem.1 each

/-- What is stored stays the same. -/
theorem hasValues_stored {view : View} {shape : Shape} {fill : Option Value}
    {elements : Array Value} (size : shape.size ≤ elements.size) :
    (ofView view shape fill (stored elements)).HasValues calling held
      fun index => elements.getD index .nil := by
  intro index inside
  rw [count_ofView] at inside
  have there : index < elements.size := Nat.lt_of_lt_of_le inside size
  have found : (ofView view shape fill (stored elements)).elementAt index =
      .value (elements.getD index .nil) := by
    rw [elementAt_ofView _ _ _ _ _ inside, stored]
    simp [there]
  rw [pick, found]
  exact Action.endsWith_pure _

theorem hasValues_list (elements : Array Value) :
    (list elements).HasValues calling held fun index => elements.getD index .nil :=
  hasValues_stored (Nat.le_of_eq (size_singleton _))

structure IsCopyOf (calling : Call H) (held : Memory H → Prop) (copy original : ShapedArray) :
    Prop where
  shape : copy.shape = original.shape
  fill : copy.fill = original.fill
  pick : ∀ index < original.count, (copy.pick index).EndsLike calling held (original.pick index)

/-- Both have one shape and one fill, and from every memory held to, reading an element of either
gives the same. -/
structure ReadsAlike (calling : Call H) (held : Memory H → Prop) (array array' : ShapedArray) :
    Prop where
  shape : array.shape = array'.shape
  fill : array.fill = array'.fill
  pick : ∀ index < array.count, ∀ memory, held memory →
    (array.pick index calling memory).1 = (array'.pick index calling memory).1

namespace IsCopyOf

theorem refl (array : ShapedArray) : array.IsCopyOf calling held array :=
  ⟨rfl, rfl, fun _ _ => .refl _⟩

theorem count (isCopy : copy.IsCopyOf calling held original) : copy.count = original.count :=
  congrArg Shape.size isCopy.shape

theorem trans (first : copy.IsCopyOf calling held copy')
    (second : copy'.IsCopyOf calling held copy'') : copy.IsCopyOf calling held copy'' where
  shape := first.shape.trans second.shape
  fill := first.fill.trans second.fill
  pick index inside :=
    (first.pick index (second.count.symm ▸ inside)).trans (second.pick index inside)

theorem hasValues (isCopy : copy.IsCopyOf calling held original)
    (reads : original.HasValues calling held values) : copy.HasValues calling held values := by
  intro index inside
  rw [isCopy.count] at inside
  exact (reads index inside).of_like (isCopy.pick index inside)

/-- Two copies of one array read alike. -/
theorem readsAlike (first : copy.IsCopyOf calling held original)
    (second : copy'.IsCopyOf calling held original) : copy.ReadsAlike calling held copy' where
  shape := first.shape.trans second.shape.symm
  fill := first.fill.trans second.fill.symm
  pick index inside memory holds := by
    rw [first.count] at inside
    rw [(first.pick index inside memory holds).1, (second.pick index inside memory holds).1]

end IsCopyOf

end ShapedArray

/-! ### Actions that give arrays -/

namespace Action

variable {calling : Call H} {held : Memory H → Prop} {copy original original' : ShapedArray}
variable {action action' : Action H Value} {next : Value → Action H Value}

/-- From every memory held to, the action succeeds with a copy of the array that operations have
made, at such a memory. -/
def GivesCopy (calling : Call H) (held : Memory H → Prop) (action : Action H Value)
    (original : ShapedArray) : Prop :=
  ∀ memory, held memory → ∃ (copy : ShapedArray) (after : Memory H),
    action calling memory = (.ok (.array copy), after) ∧ held after ∧
      copy.IsMade calling ∧ copy.IsCopyOf calling held original

/-- From any two memories held to, both actions succeed with arrays, which read alike. -/
def GiveAlike (calling : Call H) (held : Memory H → Prop) (action action' : Action H Value) :
    Prop :=
  ∀ memory memory', held memory → held memory' →
    ∃ (found found' : ShapedArray) (after after' : Memory H),
      action calling memory = (.ok (.array found), after) ∧ held after ∧
        action' calling memory' = (.ok (.array found'), after') ∧ held after' ∧
        found.ReadsAlike calling held found'

theorem EndsWith.givesCopy (ends : action.EndsWith calling held (.array copy))
    (made : copy.IsMade calling) (isCopy : copy.IsCopyOf calling held original) :
    action.GivesCopy calling held original := by
  intro memory holds
  obtain ⟨after, ended, kept⟩ := ends memory holds
  exact ⟨copy, after, ended, kept, made, isCopy⟩

theorem EndsWith.bind_gives {start : Action H α} {found : α} {rest : α → Action H Value}
    (first : start.EndsWith calling held found)
    (second : (rest found).GivesCopy calling held original) :
    (start >>= rest).GivesCopy calling held original := by
  intro memory holds
  obtain ⟨between, ended, kept⟩ := first memory holds
  rw [bind_of_ok ended]
  exact second between kept

theorem GivesCopy.bind (first : action.GivesCopy calling held original)
    (second : ∀ copy : ShapedArray, copy.IsMade calling → copy.IsCopyOf calling held original →
      (next (.array copy)).GivesCopy calling held original') :
    (action >>= next).GivesCopy calling held original' := by
  intro memory holds
  obtain ⟨copy, between, ended, kept, made, isCopy⟩ := first memory holds
  rw [bind_of_ok ended]
  exact second copy made isCopy between kept

theorem GivesCopy.of_copy (gives : action.GivesCopy calling held original)
    (isCopy : original.IsCopyOf calling held original') :
    action.GivesCopy calling held original' := by
  intro memory holds
  obtain ⟨copy, after, ended, kept, made, copies⟩ := gives memory holds
  exact ⟨copy, after, ended, kept, made, copies.trans isCopy⟩

/-- Actions that give copies of one array give alike. -/
theorem GivesCopy.giveAlike (first : action.GivesCopy calling held original)
    (second : action'.GivesCopy calling held original) :
    action.GiveAlike calling held action' := by
  intro memory memory' holds holds'
  obtain ⟨copy, after, ended, kept, _, copies⟩ := first memory holds
  obtain ⟨copy', after', ended', kept', _, copies'⟩ := second memory' holds'
  exact ⟨copy, copy', after, after', ended, kept, ended', kept', copies.readsAlike copies'⟩

end Action

end PointFree
