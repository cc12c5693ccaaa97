import PointFree.Proofs.Ranking
import PointFree.Proofs.Views.Composition
import PointFree.Proofs.Views.Laziness

/-!
Contract: ranks within ranks.

A function that is applied to all cells of one rank, as the function that is applied to all cells of
a higher rank, gives what it gives at the lower rank alone. Both select the cells anew and compute
anew what is pending in them, in different order; so that holds as far as the function makes the
same of a cell whenever it is applied.
-/

namespace PointFree

variable {H : Type}

/-! ### Functions that are ranked -/

/-- The function is the operand at a rank that is written as a value. -/
inductive Function.IsRanked : Function → Function → Value → Prop where
  | mk {operand : Function} {degree : Value} {stamp stamp' : Nat} {written : String} :
      IsRanked (.mk stamp (.rank operand (.mk stamp' (.constant degree written)))) operand degree

/-- The same value, or arrays of one shape with values in them that are alike. -/
inductive Value.Alike (alike : Value → Value → Prop) : Value → Value → Prop where
  | same {value : Value} : Alike alike value value
  | arrays {array array' : ShapedArray} : array.shape = array'.shape →
      (∀ index < array.count, ∃ value value', array.elementAt index = .value value ∧
        array'.elementAt index = .value value' ∧ alike value value') →
      Alike alike (.array array) (.array array')

/-- What is stored as the same was foretold is alike. -/
theorem Value.IsStored.alike {alike : Value → Value → Prop} (equivalence : Equivalence alike)
    {appearance : Appearance Value} {value value' : Value}
    (isStored : value.IsStored alike appearance) (isStored' : value'.IsStored alike appearance) :
    value.Alike alike value' := by
  obtain ⟨array, rfl, shape, elements⟩ := isStored.elements
  obtain ⟨array', rfl, shape', elements'⟩ := isStored'.elements
  have shapes : array.shape = array'.shape := shape.trans shape'.symm
  refine .arrays shapes fun index inside => ?_
  obtain ⟨wanted, found, isWanted, isFound, agrees⟩ := elements index inside
  obtain ⟨wanted', found', isWanted', isFound', agrees'⟩ :=
    elements' index (by rwa [ShapedArray.count, ← shapes])
  cases isWanted.symm.trans isWanted'
  exact ⟨found, found', isFound, isFound', equivalence.trans (equivalence.symm agrees) agrees'⟩

section Calls

variable [Blocks H] {calling : Call H} {held : Memory H → Prop}

theorem Function.IsRanked.call_eq {operand function : Function} {degree : Value} {asked : Int}
    (isRanked : function.IsRanked operand degree) (isAsked : degree.toInteger = .ok asked) :
    (function.call : Operation H) = Operation.atRank operand.call asked := by
  funext right left
  cases isRanked with
  | @mk _ _ stamp stamp' written =>
      change (do
        let asked ← (pure degree : Action H Value)
        let rank ← asked.toInteger
        Operation.atRank (operand.apply .forward) rank right left : Action H Value) = _
      rw [pure_bind, isAsked]
      rfl

/-- At a rank and then at a higher one, a function succeeds as at the first rank, with the same
shape and the same elements, if it makes the same of each cell of that rank whenever it is
applied. -/
theorem Function.rank_rank {alike : Value → Value → Prop} (equivalence : Equivalence alike)
    {operand ranked nested : Function} {low high right : Value} {least greatest : Int}
    (isRanked : ranked.IsRanked operand low) (isNested : nested.IsRanked ranked high)
    (isLeast : low.toInteger = .ok least) (isGreatest : high.toInteger = .ok greatest)
    (nonneg : 0 ≤ least) (ordered : max least 1 ≤ greatest)
    (made : right.toArray.IsMade calling)
    (depends : ∀ cell, right.IsCell least.toNat cell →
      Operation.DependsOn calling held alike operand.call cell) :
    ∀ memory, held memory →
      ((∃ result after, nested.call right none calling memory = (.ok result, after)) ↔
        ∃ result after, ranked.call right none calling memory = (.ok result, after)) ∧
      ∀ result after result' after', nested.call right none calling memory = (.ok result, after) →
        ranked.call right none calling memory = (.ok result', after') →
        result.Alike alike result' := by
  intro memory holds
  rw [isNested.call_eq isGreatest, isRanked.call_eq isLeast]
  by_cases whole : right.rank ≤ greatest.toNat
  · rw [Operation.atRank_of_le (by omega) whole]
    refine ⟨Iff.rfl, fun result after result' after' ended again => ?_⟩
    cases ended.symm.trans again
    exact .same
  · have several : right.toArray.rank ≠ 0 ∧ right.toArray.rank ≠ 1 := by
      have ranks : right.toArray.rank = right.rank := congrArg List.length right.shape_toArray
      omega
    have filled : right.toArray.count ≠ 0 := fun none => by
      rw [made.sound.empty none] at several
      exact several.2 rfl
    have small := made.count_le several.2
    rw [ShapedArray.count, right.shape_toArray] at filled small
    obtain ⟨foretold, foretells⟩ := Operation.exists_foretells depends holds
    have twice := foretells.settles_twice made filled small nonneg ordered (by omega)
    have once := foretells.settles_once made filled small nonneg (by omega)
    refine ⟨(twice.succeeds_iff holds).trans (once.succeeds_iff holds).symm,
      fun result after result' after' ended again => ?_⟩
    obtain ⟨appearance, isForetold, isStored⟩ := twice.of_ok holds ended
    obtain ⟨_, isForetold', isStored'⟩ := once.of_ok holds again
    cases isForetold.symm.trans isForetold'
    exact isStored.alike equivalence isStored'

end Calls

/-! ### Two planes of numbers -/

namespace Ranked

def identity : Function :=
  .mk 0 (.primitive .right)

/-- The function at a rank. -/
def ranked (function : Function) (degree : Value) : Function :=
  .mk 0 (.rank function (.mk 0 (.constant degree "")))

def numbers : Array Value :=
  #[.number 1.0, .number 2.0, .number 3.0, .number 4.0, .number 5.0, .number 6.0, .number 7.0,
    .number 8.0]

/-- Two planes of two rows of two numbers. -/
def planes : ShapedArray :=
  .ofView .owned [2, 2, 2] none (ShapedArray.stored numbers)

theorem planes_made : planes.IsMade ShapedArray.Composed.calls :=
  .new (show ShapedArray.new [2, 2, 2] numbers = .ok planes from rfl)

theorem planes_elements {index : Nat} (inside : index < planes.count) :
    ∃ value, planes.elementAt index = .value value := by
  have there : index < numbers.size := inside
  have stored : planes.elementAt index = ShapedArray.stored numbers index :=
    ShapedArray.elementAt_ofView _ _ _ _ _ inside
  rw [stored, ShapedArray.stored, Array.getElem?_eq_getElem there]
  exact ⟨_, rfl⟩

/-- The identity makes the same of a cell whose elements are there. -/
theorem identity_dependsOn {calling : Call (Heap (List Routine))}
    {held : Memory (Heap (List Routine)) → Prop} {cell : ShapedArray} (axes : cell.rank ≠ 0)
    (empty : cell.count = 0 → cell.shape = [0])
    (elements : ∀ index < cell.count, ∃ value, cell.elementAt index = .value value) :
    Operation.DependsOn calling held Eq identity.call cell := by
  have : Nonempty Value := ⟨.nil⟩
  choose! value isValue using elements
  refine ⟨some ⟨cell.shape, (List.range cell.count).map fun index => some (value index)⟩,
    fun array same => ?_⟩
  have isAct : (Operation.onCell identity.call array : Action (Heap (List Routine)) Value) =
      pure (.array array) := by
    have axes' : array.rank ≠ 0 := by rwa [ShapedArray.rank, same.shape]
    rw [Operation.onCell, Value.ofCell, if_neg axes']
    rfl
  rw [isAct]
  refine Action.settles_pure ⟨same.shape, ?_, empty, fun index inside => ?_⟩
  · rw [List.length_map, List.length_range, ShapedArray.count]
  · rw [List.length_map, List.length_range] at inside
    have read : ((Value.array array).toArray.pick index : Action (Heap (List Routine)) Value) =
        pure (value index) := by
      change array.pick index = _
      rw [ShapedArray.pick, same.elementAt, isValue index inside]
      rfl
    rw [read, List.getElem_map, List.getElem_range]
    exact Action.settles_pure rfl

/-- The rows are there as numbers. -/
theorem rows_dependOn {cell : ShapedArray} (isCell : (Value.array planes).IsCell 1 cell) :
    Operation.DependsOn ShapedArray.Composed.calls (fun _ => True) Eq identity.call cell := by
  obtain ⟨position, _, length, selected⟩ := isCell
  obtain ⟨shape, _, element⟩ := planes_made.selectRank_reads selected
  have axis : cell.shape = [2] := by
    have two : position.length = 2 := Nat.succ.inj length
    rw [shape, two]
    rfl
  refine identity_dependsOn ?_ ?_ fun index inside => ?_
  · rw [ShapedArray.rank, axis]
    decide
  · rw [ShapedArray.count, axis]
    decide
  · rw [element index inside]
    exact planes_elements (planes_made.place_add_lt selected inside)

def once : Function :=
  ranked identity (.number 1.0)

def twice : Function :=
  ranked once (.number 2.0)

end Ranked

/-- The identity on the rows of two planes, at once and plane by plane. -/
theorem Function.rank_rank_planes :
    Ranked.once.IsRanked Ranked.identity (.number 1.0) ∧
    Ranked.twice.IsRanked Ranked.once (.number 2.0) ∧
    Ranked.planes.IsMade ShapedArray.Composed.calls ∧
    (∀ cell, (Value.array Ranked.planes).IsCell 1 cell →
      Operation.DependsOn ShapedArray.Composed.calls (fun _ => True) Eq Ranked.identity.call cell) ∧
    ∃ result after result' after',
      Ranked.twice.call (.array Ranked.planes) none ShapedArray.Composed.calls
        ShapedArray.Tally.store = (.ok result, after) ∧
      Ranked.once.call (.array Ranked.planes) none ShapedArray.Composed.calls
        ShapedArray.Tally.store = (.ok result', after') ∧
      result.Alike Eq result' := by
  have depends (cell : ShapedArray) (isCell : (Value.array Ranked.planes).IsCell 1 cell) :=
    Ranked.rows_dependOn isCell
  have runs : (Ranked.once.call (.array Ranked.planes) none ShapedArray.Composed.calls
      ShapedArray.Tally.store).1.isOk = true := by
    decide +kernel
  obtain ⟨succeeds, alike⟩ := Function.rank_rank eq_equivalence
    (.mk : Ranked.once.IsRanked Ranked.identity (.number 1.0))
    (.mk : Ranked.twice.IsRanked Ranked.once (.number 2.0))
    (show (Value.number 1.0).toInteger = .ok 1 from rfl)
    (show (Value.number 2.0).toInteger = .ok 2 from rfl) (by decide) (by decide)
    Ranked.planes_made depends ShapedArray.Tally.store trivial
  refine ⟨.mk, .mk, Ranked.planes_made, depends, ?_⟩
  rcases ended : Ranked.once.call (.array Ranked.planes) none ShapedArray.Composed.calls
    ShapedArray.Tally.store with ⟨failure | result', after'⟩
  · rw [ended] at runs
    cases runs
  · obtain ⟨result, after, again⟩ := succeeds.2 ⟨result', after', ended⟩
    exact ⟨result, after, result', after', again, rfl, alike _ _ _ _ again ended⟩

/-! ### Cells that change -/

namespace Ranked

/-- `⊢⊣+´`, which sums its argument and then gives it. -/
def summed : Function :=
  .mk 0 (.fork (.mk 0 (.primitive .right)) (.mk 0 (.primitive .left))
    (.mk 0 (.fold (.mk 0 (.primitive .add)))))

theorem summed_gives {calling : Call (Heap (List Routine))} {right result : Value}
    {memory after : Memory (Heap (List Routine))}
    (ended : summed.call right none calling memory = (.ok result, after)) : result = right := by
  obtain ⟨_, _, _, ended⟩ := Action.bind_eq_ok.1 ended
  obtain ⟨first, _, isFirst, ended⟩ := Action.bind_eq_ok.1 ended
  cases isFirst
  cases ended
  rfl

def zeros : ShapedArray :=
  .ofView .owned [2, 2, 1] none (ShapedArray.stored (Array.replicate 4 (.number 0.0)))

/-- Two planes of two rows, with an element each that counts how often elements are read. -/
def counted : ShapedArray :=
  .ofView .zip [2, 2, 1] none fun index =>
    .combined ShapedArray.Tally.function (zeros.elementAt (index % 4)) (zeros.elementAt (index % 4))

theorem counted_made : counted.IsMade ShapedArray.Tally.calls := by
  have made : zeros.IsMade ShapedArray.Tally.calls :=
    .new (show ShapedArray.new [2, 2, 1] (Array.replicate 4 (.number 0.0)) = .ok zeros from rfl)
  have zipped : zeros.zip zeros ShapedArray.Tally.function = .ok counted := rfl
  exact .zip made made zipped

def firstNumber? : Value → Option Float
  | .array array =>
      match array.elementAt 0 with
      | .value (.number amount) => some amount
      | _ => none
  | _ => none

theorem firstNumber?_of_alike {value value' : Value} (alike : value.Alike Eq value')
    {amount : Float} (isFirst : firstNumber? value = some amount) :
    firstNumber? value' = some amount := by
  cases alike with
  | same => exact isFirst
  | @arrays array array' _ elements =>
      by_cases inside : 0 < array.count
      · obtain ⟨found, _, isFound, isFound', rfl⟩ := elements 0 inside
        rw [firstNumber?, isFound] at isFirst
        rw [firstNumber?, isFound']
        exact isFirst
      · rw [firstNumber?, ShapedArray.elementAt, if_neg inside] at isFirst
        cases isFirst

/-- Whether both succeed, with elements of which the first ones are different numbers. -/
def differ : Outcome Value → Outcome Value → Bool
  | .ok value, .ok value' =>
      match firstNumber? value, firstNumber? value' with
      | some amount, some amount' => amount == amount && !amount == amount'
      | _, _ => false
  | _, _ => false

theorem not_alike_of_differ {outcome outcome' : Outcome Value}
    (different : differ outcome outcome') :
    ∃ value value', outcome = .ok value ∧ outcome' = .ok value' ∧ ¬ value.Alike Eq value' := by
  cases outcome with
  | error failure => cases different
  | ok value =>
      cases outcome' with
      | error failure => cases different
      | ok value' =>
          refine ⟨value, value', rfl, rfl, fun alike => ?_⟩
          rw [differ] at different
          cases isFirst : firstNumber? value with
          | none => simp [isFirst] at different
          | some amount => simp [isFirst, firstNumber?_of_alike alike isFirst] at different

def early : Function :=
  ranked summed (.number 1.0)

def late : Function :=
  ranked early (.number 2.0)

end Ranked

/-- A function that gives its argument, on rows that count how often elements are read, at once
and plane by plane: at once, all rows are summed before the first of them is stored. -/
theorem Function.rank_not_rank :
    (∀ right memory result after, Ranked.summed.call right none ShapedArray.Tally.calls memory =
      (.ok result, after) → result = right) ∧
    Ranked.counted.IsMade ShapedArray.Tally.calls ∧
    Ranked.early.IsRanked Ranked.summed (.number 1.0) ∧
    Ranked.late.IsRanked Ranked.early (.number 2.0) ∧ ∃ result result',
      (Ranked.late.call (.array Ranked.counted) none ShapedArray.Tally.calls
        ShapedArray.Tally.store).1 = .ok result ∧
      (Ranked.early.call (.array Ranked.counted) none ShapedArray.Tally.calls
        ShapedArray.Tally.store).1 = .ok result' ∧
      ¬ result.Alike Eq result' := by
  refine ⟨fun _ _ _ _ => Ranked.summed_gives, Ranked.counted_made, .mk, .mk,
    Ranked.not_alike_of_differ ?_⟩
  decide +kernel

end PointFree
