import PointFree.Function.Call
import PointFree.Proofs.Constancy
import PointFree.Proofs.Merging
import PointFree.Proofs.Pervasion.Redundancy
import PointFree.Proofs.Undoing.Elements

/-!
Contract: a fold is the last total of a scan, where the order of the calls does not matter.

A fold goes from the last cell to the first and puts the total to the right of each call; a scan
goes from the first cell to the last and puts the total to the left. On values among which the
function is associative both come to the product of all cells from left to right. A seed is the
rightmost factor of the one and the leftmost factor of the other.
-/

namespace PointFree

variable {H : Type}

theorem push_append_toArray {α : Type} (found : Array α) (first : α) (rest : List α) :
    found.push first ++ rest.toArray = found ++ (first :: rest).toArray := by
  rw [← Array.toList_inj, Array.toList_append, Array.toList_append, Array.toList_push,
    List.append_assoc, List.singleton_append]

/-- Among the values, none of which is an array, the operation always gives the product of its
left and its right argument, which is associative and stays among them. -/
structure Operation.IsAssociative (calling : Call H) (held : Memory H → Prop)
    (operation : Operation H) (among : Value → Prop) (product : Value → Value → Value) : Prop where
  flat : ∀ value, among value → value.isArray = false
  closed : ∀ left right, among left → among right → among (product left right)
  assoc : ∀ left middle right, among left → among middle → among right →
    product (product left middle) right = product left (product middle right)
  gives : ∀ left right, among left → among right →
    (operation right (some left)).EndsWith calling held (product left right)

namespace Operation.IsAssociative

variable {calling : Call H} {held : Memory H → Prop} {operation : Operation H}
variable {among : Value → Prop} {product : Value → Value → Value}
variable {first seed : Value} {rest cells : List Value}

/-! ### Products of lists -/

theorem among_foldl (associative : operation.IsAssociative calling held among product)
    (isFirst : among first) (members : ∀ cell ∈ rest, among cell) :
    among (rest.foldl product first) := by
  induction rest generalizing first with
  | nil => exact isFirst
  | cons second rest inductionHypothesis =>
      obtain ⟨isSecond, others⟩ := List.forall_mem_cons.1 members
      exact inductionHypothesis (associative.closed _ _ isFirst isSecond) others

theorem among_scanl (associative : operation.IsAssociative calling held among product)
    (isFirst : among first) (members : ∀ cell ∈ rest, among cell) :
    ∀ total ∈ rest.scanl product first, among total := by
  induction rest generalizing first with
  | nil =>
      rw [List.scanl_nil]
      exact List.forall_mem_singleton.2 isFirst
  | cons second rest inductionHypothesis =>
      obtain ⟨isSecond, others⟩ := List.forall_mem_cons.1 members
      rw [List.scanl_cons]
      have later := inductionHypothesis (associative.closed _ _ isFirst isSecond) others
      exact List.forall_mem_cons.2 ⟨isFirst, later⟩

theorem among_foldr (associative : operation.IsAssociative calling held among product)
    (isSeed : among seed) (members : ∀ cell ∈ cells, among cell) :
    among (cells.foldr product seed) := by
  induction cells with
  | nil => exact isSeed
  | cons first rest inductionHypothesis =>
      obtain ⟨isFirst, others⟩ := List.forall_mem_cons.1 members
      exact associative.closed _ _ isFirst (inductionHypothesis others)

/-- A factor on the left may as well be multiplied in at the end. -/
theorem foldl_product (associative : operation.IsAssociative calling held among product)
    (isSeed : among seed) (isFirst : among first) (members : ∀ cell ∈ rest, among cell) :
    rest.foldl product (product seed first) = product seed (rest.foldl product first) := by
  induction rest generalizing first with
  | nil => rfl
  | cons second rest inductionHypothesis =>
      obtain ⟨isSecond, others⟩ := List.forall_mem_cons.1 members
      rw [List.foldl_cons, List.foldl_cons, associative.assoc _ _ _ isSeed isFirst isSecond]
      exact inductionHypothesis (associative.closed _ _ isFirst isSecond) others

/-- From the right with a seed is from the left, and then the seed. -/
theorem foldr_product (associative : operation.IsAssociative calling held among product)
    (isSeed : among seed) (isFirst : among first) (members : ∀ cell ∈ rest, among cell) :
    (first :: rest).foldr product seed = product (rest.foldl product first) seed := by
  induction rest generalizing first with
  | nil => rfl
  | cons second rest inductionHypothesis =>
      obtain ⟨isSecond, others⟩ := List.forall_mem_cons.1 members
      have later := associative.among_foldl isSecond others
      rw [List.foldr_cons, inductionHypothesis isSecond others, List.foldl_cons,
        associative.foldl_product isFirst isSecond others,
        associative.assoc _ _ _ isFirst later isSeed]

/-- From the right with the last factor as the seed is from the left. -/
theorem foldr_concat (associative : operation.IsAssociative calling held among product)
    {initial : List Value} {last : Value} (whole : initial ++ [last] = first :: rest)
    (members : ∀ cell ∈ first :: rest, among cell) :
    initial.foldr product last = rest.foldl product first := by
  have isLast : among last :=
    members last (whole ▸ List.mem_append_right initial (List.mem_singleton_self last))
  cases initial with
  | nil =>
      cases whole
      rfl
  | cons head middle =>
      obtain ⟨rfl, rfl⟩ : head = first ∧ middle ++ [last] = rest := List.cons.inj whole
      obtain ⟨isFirst, others⟩ := List.forall_mem_cons.1 members
      have within : ∀ cell ∈ middle, among cell :=
        fun cell there => others cell (List.mem_append_left _ there)
      rw [associative.foldr_product isLast isFirst within, List.foldl_append]
      rfl

/-! ### The loops -/

/-- The loop of a fold: the total is the right argument of each call. -/
theorem endsWith_fold (associative : operation.IsAssociative calling held among product)
    (isSeed : among seed) (members : ∀ cell ∈ cells, among cell) :
    (cells.reverse.foldlM (fun total cell => operation total (some cell)) seed).EndsWith calling
      held (cells.foldr product seed) := by
  induction cells with
  | nil => exact Action.endsWith_pure seed
  | cons first rest inductionHypothesis =>
      obtain ⟨isFirst, others⟩ := List.forall_mem_cons.1 members
      rw [List.reverse_cons, List.foldlM_append]
      refine (inductionHypothesis others).bind ?_
      rw [List.foldlM_cons]
      have last := associative.gives _ _ isFirst (associative.among_foldr isSeed others)
      exact last.bind (Action.endsWith_pure _)

/-- The loop of a scan: the last total is the left argument of each call. -/
theorem endsWith_scan (associative : operation.IsAssociative calling held among product)
    (isFirst : among first) (members : ∀ cell ∈ rest, among cell) (found : Array Value) :
    (rest.foldlM operation.scanStep (found.push first, some first)).EndsWith calling held
      (found ++ (rest.scanl product first).toArray, some (rest.foldl product first)) := by
  induction rest generalizing first found with
  | nil =>
      rw [List.scanl_nil, ← Array.push_eq_append]
      exact Action.endsWith_pure _
  | cons second rest inductionHypothesis =>
      obtain ⟨isSecond, others⟩ := List.forall_mem_cons.1 members
      have step : (operation.scanStep (found.push first, some first) second).EndsWith calling held
          ((found.push first).push (product first second), some (product first second)) :=
        (associative.gives _ _ isFirst isSecond).bind (Action.endsWith_pure _)
      have remaining := inductionHypothesis (associative.closed _ _ isFirst isSecond) others
        (found.push first)
      rw [List.foldlM_cons, List.scanl_cons, ← push_append_toArray]
      exact step.bind remaining

end Operation.IsAssociative

/-! ### Lists as arrays -/

namespace ShapedArray

variable {array : ShapedArray} {count : Nat}

/-- The major cells of a list are its elements. -/
theorem majorCells_of_list (isList : array.shape = [count]) (some : count ≠ 0) :
    (array.majorCells : Action H (Array Value)) = array.elements := by
  have ranked : array.rank ≠ 0 := by
    rw [rank, isList]
    exact Nat.one_ne_zero
  have size : array.count = count := by rw [ShapedArray.count, isList, size_singleton]
  have filled : ¬array.isEmpty = true := by simpa [isEmpty, size] using some
  have length : array.length = count := by
    rw [ShapedArray.length, isList]
    rfl
  rw [majorCells, if_neg ranked, if_neg filled, elements, length, size]
  refine collect_congr fun index inside => ?_
  have selected : array.selectRank [index] =
      .ok (ofView .slice [] array.fill fun place => array.elementAt (index + place)) := by
    rw [selectRank_eq_ok_iff, isList]
    refine ⟨.cons inside .nil, ⟨1, rfl⟩, ?_⟩
    have start : Shape.place [count] [index] = index := by
      rw [Shape.place, Shape.place_nil, Shape.size_nil, Nat.mul_one, Nat.add_zero]
    rw [start]
    rfl
  rw [cellAt, selected]
  rfl

/-- Values that are no arrays are laid down one after the other. -/
theorem foldlM_appendItem_of_flat {values : List Value}
    (flat : ∀ value ∈ values, value.isArray = false) (data : Array Value) :
    (values.foldlM (appendItem []) data : Action H (Array Value)) =
      pure (data ++ values.toArray) := by
  induction values generalizing data with
  | nil => rw [Array.append_empty]; rfl
  | cons value values inductionHypothesis =>
      obtain ⟨here, later⟩ := List.forall_mem_cons.1 flat
      have pushed : (appendItem [] data value : Action H (Array Value)) =
          pure (data.push value) := by
        cases value with
        | array items => cases here
        | number amount => rfl
        | character letter => rfl
        | function contents => rfl
      rw [List.foldlM_cons, pushed, pure_bind, inductionHypothesis later, push_append_toArray]

/-- Values that are no arrays are laid together as the elements of a list. -/
theorem mergeList_of_flat {values : Array Value} (fill : Option Value)
    (flat : ∀ value ∈ values, value.isArray = false) (nonempty : values.size ≠ 0)
    (small : values.size ≤ sizeLimit) :
    (mergeList values fill : Action H ShapedArray) =
      pure (ofView .owned [values.size] fill (stored values)) := by
  have size : Shape.size [values.size] = values.size := size_singleton _
  obtain ⟨first, isFirst⟩ : ∃ first, values[0]? = some first :=
    ⟨_, Array.getElem?_eq_getElem (Nat.pos_of_ne_zero nonempty)⟩
  have plain : first.shape = [] := by
    have here := flat first (Array.mem_of_getElem? isFirst)
    cases first with
    | array items => cases here
    | number amount => rfl
    | character letter => rfl
    | function contents => rfl
  have measured : measure [values.size] = .ok values.size := by
    rw [measure_of_size (size.symm ▸ Nat.pos_of_ne_zero nonempty) (size.symm ▸ small), size]
  have laid : (values.foldlM (appendItem []) #[] : Action H (Array Value)) = pure values := by
    rw [← Array.foldlM_toList, foldlM_appendItem_of_flat (by simpa using flat)]
    simp
  rw [mergeList, merge, if_neg (not_not.2 size), isFirst]
  dsimp only
  have isFilled : filled [values.size] values fill =
      .ok (ofView .owned [values.size] fill (stored values)) := by
    rw [filled, measured]
    exact if_pos rfl
  rw [plain, List.append_nil, measured, laid, pure_bind, isFilled]
  rfl

/-- The totals have the shape and the fill of the array, and the last of them is the value. -/
structure HasTotals (array totals : ShapedArray) (last : Value) : Prop where
  shape : totals.shape = array.shape
  fill : totals.fill = array.fill
  last : totals.elementAt (totals.count - 1) = .value last

theorem hasTotals_stored {values : Array Value} {last : Value}
    (isList : array.shape = [values.size]) (isLast : values.back? = some last) :
    array.HasTotals (ofView .owned [values.size] array.fill (stored values)) last := by
  have size : Shape.size [values.size] = values.size := size_singleton _
  have filled : values.size ≠ 0 := by
    intro empty
    rw [Array.back?_eq_getElem?, Array.getElem?_eq_none (by omega)] at isLast
    cases isLast
  have isOwned : ofView .owned [values.size] array.fill (stored values) =
      .mk .owned [values.size] array.fill (stored values) := if_neg (size.symm ▸ filled)
  refine ⟨by rw [isOwned, isList]; rfl, by rw [isOwned]; rfl, ?_⟩
  rw [count_ofView, elementAt_ofView _ _ _ _ _ (by omega), stored, size, ← Array.back?_eq_getElem?,
    isLast]

end ShapedArray

/-! ### Folds and scans -/

/-- From the memory, the action succeeds with the result, at a memory held to. -/
def Action.EndsFrom {α : Type} (calling : Call H) (held : Memory H → Prop) (memory : Memory H)
    (action : Action H α) (result : α) : Prop :=
  ∃ after, action calling memory = (.ok result, after) ∧ held after

namespace Operation.IsAssociative

variable {calling : Call H} {held : Memory H → Prop} {operation : Operation H}
variable {among : Value → Prop} {product : Value → Value → Value}
variable {array : ShapedArray} {memory between : Memory H} {first : Value} {rest : List Value}

theorem fold_unseeded (associative : operation.IsAssociative calling held among product)
    (isList : array.shape = [rest.length + 1])
    (read : array.elements calling memory = (.ok (first :: rest).toArray, between))
    (kept : held between) (members : ∀ cell ∈ first :: rest, among cell) :
    (operation.fold (.array array) none).EndsFrom calling held memory
      (rest.foldl product first) := by
  obtain ⟨last, backward, reversed⟩ :
      ∃ last backward, (first :: rest).reverse = last :: backward :=
    List.exists_cons_of_ne_nil (List.reverse_ne_nil_iff.2 (List.cons_ne_nil _ _))
  have whole : backward.reverse ++ [last] = first :: rest := by
    rw [← List.reverse_cons, ← reversed, List.reverse_reverse]
  have isLast : among last :=
    members last (whole ▸ List.mem_append_right _ (List.mem_singleton_self last))
  have within : ∀ cell ∈ backward.reverse, among cell :=
    fun cell there => members cell (whole ▸ List.mem_append_left _ there)
  have loop := associative.endsWith_fold isLast within
  rw [List.reverse_reverse, associative.foldr_concat whole members] at loop
  rw [fold, ShapedArray.majorCells_of_list isList (Nat.succ_ne_zero _)]
  dsimp only
  rw [Action.EndsFrom, Action.bind_of_ok read, reversed]
  exact loop between kept

theorem fold_seeded (associative : operation.IsAssociative calling held among product)
    (isList : array.shape = [rest.length + 1])
    (read : array.elements calling memory = (.ok (first :: rest).toArray, between))
    (kept : held between) (members : ∀ cell ∈ first :: rest, among cell)
    {seed : Value} (isSeed : among seed) :
    (operation.fold (.array array) (some seed)).EndsFrom calling held memory
      (product (rest.foldl product first) seed) := by
  obtain ⟨isFirst, others⟩ := List.forall_mem_cons.1 members
  have loop := associative.endsWith_fold isSeed members
  rw [associative.foldr_product isSeed isFirst others] at loop
  rw [fold, ShapedArray.majorCells_of_list isList (Nat.succ_ne_zero _)]
  dsimp only
  rw [Action.EndsFrom, Action.bind_of_ok read]
  exact loop between kept

/-- A scan whose first total is known, before the others. -/
theorem scan_from (associative : operation.IsAssociative calling held among product)
    (isList : array.shape = [rest.length + 1]) (small : array.count ≤ sizeLimit)
    (read : array.elements calling memory = (.ok (first :: rest).toArray, between))
    (kept : held between) (members : ∀ cell ∈ rest, among cell)
    {left : Option Value} {begun : Value} (isBegun : among begun)
    (step : (operation.scanStep (#[], left) first).EndsWith calling held
      (#[begun], some begun)) :
    ∃ totals, (operation.scan (.array array) left).EndsFrom calling held memory (.array totals) ∧
      array.HasTotals totals (rest.foldl product begun) := by
  have size : (rest.scanl product begun).toArray.size = rest.length + 1 := by
    rw [List.size_toArray, List.length_scanl]
  have flat : ∀ value ∈ (rest.scanl product begun).toArray, value.isArray = false :=
    fun value there => associative.flat value
      (associative.among_scanl isBegun members value (List.mem_toArray.1 there))
  have isLast : (rest.scanl product begun).toArray.back? = some (rest.foldl product begun) := by
    rw [List.back?_toArray, List.getLast?_scanl]
  have loop : ((first :: rest).toArray.foldlM operation.scanStep (#[], left)).EndsWith calling held
      ((rest.scanl product begun).toArray, some (rest.foldl product begun)) := by
    rw [← Array.foldlM_toList, List.foldlM_cons]
    refine step.bind ?_
    have remaining := associative.endsWith_scan isBegun members #[]
    rwa [Array.empty_append] at remaining
  have fits : (rest.scanl product begun).toArray.size ≤ sizeLimit := by
    rwa [size, ← ShapedArray.size_singleton (rest.length + 1), ← isList]
  have merged := ShapedArray.mergeList_of_flat (H := H) array.fill flat (by omega) fits
  refine ⟨_, ?_, ShapedArray.hasTotals_stored (size.symm ▸ isList) isLast⟩
  rw [scan, ShapedArray.majorCells_of_list isList (Nat.succ_ne_zero _)]
  rw [Action.EndsFrom, Action.bind_of_ok read]
  refine loop.bind ?_ between kept
  dsimp only
  rw [merged]
  exact (Action.endsWith_pure _).bind (Action.endsWith_pure _)

end Operation.IsAssociative

section Modifiers

variable [Blocks H] {calling : Call H} {held : Memory H → Prop} {function : Function}
variable {among : Value → Prop} {product : Value → Value → Value}
variable {array : ShapedArray} {count : Nat} {memory between : Memory H} {values : Array Value}

/-- Where a function is associative, the fold of a list is the last value of its scan. With a seed,
the fold is the total with the seed on its right, and the last value of the scan is the total with
the seed on its left. -/
theorem Function.fold_agrees_scan
    (associative : Operation.IsAssociative calling held function.call among product)
    (isList : array.shape = [count]) (nonempty : count ≠ 0) (small : count ≤ sizeLimit)
    (read : array.elements calling memory = (.ok values, between)) (kept : held between)
    (members : ∀ value ∈ values, among value) (stamp : Nat) :
    ∃ total, among total ∧
      ((Function.mk stamp (.fold function)).call (.array array) none).EndsFrom calling held memory
        total ∧
      (∃ totals, ((Function.mk stamp (.scan function)).call (.array array) none).EndsFrom calling
        held memory (.array totals) ∧ array.HasTotals totals total) ∧
      ∀ seed, among seed → ∃ seeded last,
        ((Function.mk stamp (.fold function)).call (.array array) (some seed)).EndsFrom calling held
          memory seeded ∧
        (function.call seed (some total)).EndsWith calling held seeded ∧
        (∃ totals, ((Function.mk stamp (.scan function)).call (.array array) (some seed)).EndsFrom
          calling held memory (.array totals) ∧ array.HasTotals totals last) ∧
        (function.call total (some seed)).EndsWith calling held last := by
  have size : array.count = count := by rw [ShapedArray.count, isList, ShapedArray.size_singleton]
  have whole : values.size = count := by
    rw [ShapedArray.elements, size] at read
    have kept : True ∧ values.size = count ∧ _ :=
      Action.reaches_of_collect (fun _ _ _ _ _ _ _ => trivial) trivial read
    exact kept.2.1
  obtain ⟨cells⟩ := values
  cases cells with
  | nil => exact absurd whole.symm nonempty
  | cons first rest =>
      obtain rfl : rest.length + 1 = count := whole
      have among_cells : ∀ cell ∈ first :: rest, among cell :=
        fun cell there => members cell (List.mem_toArray.2 there)
      obtain ⟨isFirst, others⟩ := List.forall_mem_cons.1 among_cells
      have isTotal := associative.among_foldl isFirst others
      rw [← size] at small
      refine ⟨rest.foldl product first, isTotal,
        associative.fold_unseeded isList read kept among_cells,
        associative.scan_from isList small read kept others isFirst (Action.endsWith_pure _), ?_⟩
      intro seed isSeed
      have step : (Operation.scanStep function.call (#[], some seed) first).EndsWith calling held
          (#[product seed first], some (product seed first)) :=
        (associative.gives _ _ isSeed isFirst).bind (Action.endsWith_pure _)
      have scanned := associative.scan_from isList small read kept others
        (associative.closed _ _ isSeed isFirst) step
      rw [associative.foldl_product isSeed isFirst others] at scanned
      exact ⟨_, _, associative.fold_seeded isList read kept among_cells isSeed,
        associative.gives _ _ isTotal isSeed, scanned, associative.gives _ _ isSeed isTotal⟩

end Modifiers

/-! ### The left of two letters -/

namespace Leftmost

abbrev calls : Call (Heap (List Routine)) :=
  callAt callBudget

def leftmost : Function :=
  .mk 0 (.primitive .left)

def IsLetter (value : Value) : Prop :=
  ∃ letter, value = .character letter

theorem leftmost_isAssociative :
    Operation.IsAssociative calls (fun _ => True) leftmost.call IsLetter (fun left _ => left) where
  flat := by
    rintro _ ⟨letter, rfl⟩
    rfl
  closed _ _ isLeft _ := isLeft
  assoc _ _ _ _ _ _ := rfl
  gives left _ _ _ := Action.endsWith_pure left

def letters : Array Value :=
  #[.character 'a', .character 'b', .character 'c']

theorem isLetter_of_mem : ∀ value ∈ letters, IsLetter value := by
  simp [letters, IsLetter]

end Leftmost

open Leftmost in
theorem Function.fold_agrees_scan_leftmost :
    Operation.IsAssociative calls (fun _ => True) leftmost.call IsLetter (fun left _ => left) ∧
    (ShapedArray.list letters).elements calls Store.empty = (.ok letters, Store.empty) ∧
    ∃ total, IsLetter total ∧
      ((Function.mk 1 (.fold leftmost)).call (.list letters) none).EndsFrom calls (fun _ => True)
        Store.empty total ∧
      (∃ totals, ((Function.mk 1 (.scan leftmost)).call (.list letters) none).EndsFrom calls
        (fun _ => True) Store.empty (.array totals) ∧
        (ShapedArray.list letters).HasTotals totals total) ∧
      ∀ seed, IsLetter seed → ∃ seeded last,
        ((Function.mk 1 (.fold leftmost)).call (.list letters) (some seed)).EndsFrom calls
          (fun _ => True) Store.empty seeded ∧
        (leftmost.call seed (some total)).EndsWith calls (fun _ => True) seeded ∧
        (∃ totals, ((Function.mk 1 (.scan leftmost)).call (.list letters) (some seed)).EndsFrom
          calls (fun _ => True) Store.empty (.array totals) ∧
          (ShapedArray.list letters).HasTotals totals last) ∧
        (leftmost.call total (some seed)).EndsWith calls (fun _ => True) last :=
  ⟨leftmost_isAssociative, rfl, Function.fold_agrees_scan leftmost_isAssociative
    (show (ShapedArray.list letters).shape = [3] from rfl) (by decide) (by decide) rfl trivial
    isLetter_of_mem 1⟩

end PointFree
