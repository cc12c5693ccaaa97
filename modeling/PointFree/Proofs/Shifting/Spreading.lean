import PointFree.Proofs.Restoring.Data
import PointFree.Proofs.Settling

/-!
Contract: data spread over data.

What fits under the shape of an array is spread over it: each item meets one of the other side,
whose items are used again from the first when they run out, and a leaf meets every item. A rule for
leaves that meet is carried down to them, and comes to nothing where it does so for a pair. A rule
that is taken back at the leaves, or told apart there, is so for the whole.
-/

namespace PointFree.Datum

def isLeaf : Datum → Bool
  | .array _ _ => false
  | _ => true

def axes : Datum → Shape
  | .array shape _ => shape
  | _ => []

/-- What meets the item at an index of the other side. -/
def itemAt : Datum → Nat → Datum
  | .array shape items, index => items.getD (index % items.length) (.array shape items)
  | leaf, _ => leaf

mutual

/-- The left data spread over the right ones, if there are no more items than an array may have. -/
def spread (rule : Datum → Datum → Option Datum) : Datum → Datum → Option Datum
  | left, .array shape items =>
      if shape.size ≤ sizeLimit then ((spreadAll rule left 0 items).mapM id).map (.array shape)
      else none
  | left, leaf => rule left leaf
termination_by structural _ right => right

def spreadAll (rule : Datum → Datum → Option Datum) (left : Datum) :
    Nat → List Datum → List (Option Datum)
  | _, [] => []
  | index, item :: items =>
      spread rule (left.itemAt index) item :: spreadAll rule left (index + 1) items
termination_by structural _ items => items

end

/-- The leaves of the left data, in the places of those on the right. -/
def keepLeft (left _ : Datum) : Option Datum :=
  some left

/-- At each level above the leaves, the shape on the left fits under the one on the right, and the
leaves that meet are among the pairs. -/
inductive Meets (pairs : Datum → Datum → Prop) : Datum → Datum → Prop where
  | leaves {left right : Datum} :
      left.isLeaf = true → right.isLeaf = true → pairs left right → Meets pairs left right
  | level {left : Datum} {shape : Shape} {items : List Datum} :
      left.axes <:+ shape →
      (∀ (index : Nat) (inside : index < items.length),
        Meets pairs (left.itemAt index) items[index]) →
      Meets pairs left (.array shape items)

/-- One shape at each level, and leaves that are equal. -/
inductive Same : Datum → Datum → Prop where
  | number {amount amount' : Float} :
      (amount == amount') = true → Same (.number amount) (.number amount')
  | character (letter : Char) : Same (.character letter) (.character letter)
  | array {shape : Shape} {items items' : List Datum} :
      items.length = items'.length →
      (∀ (index : Nat) (inside : index < items.length) (inside' : index < items'.length),
        Same items[index] items'[index]) →
      Same (.array shape items) (.array shape items')

variable {rule back apart : Datum → Datum → Option Datum} {pairs pairs' : Datum → Datum → Prop}
variable {left right result : Datum} {shape : Shape} {items : List Datum}

/-! ### One level -/

theorem itemAt_of_lt {index : Nat} (inside : index < items.length) :
    (array shape items).itemAt index = items[index] := by
  simp [itemAt, Nat.mod_eq_of_lt inside, List.getD, inside]

theorem length_spreadAll (start : Nat) :
    (spreadAll rule left start items).length = items.length := by
  induction items generalizing start with
  | nil => rfl
  | cons item items inductionHypothesis =>
      rw [spreadAll, List.length_cons, inductionHypothesis, List.length_cons]

theorem getElem_spreadAll {start index : Nat} (inside : index < items.length)
    (inside' : index < (spreadAll rule left start items).length) :
    (spreadAll rule left start items)[index] =
      spread rule (left.itemAt (start + index)) items[index] := by
  induction items generalizing start index with
  | nil => simp at inside
  | cons item items inductionHypothesis =>
      simp only [spreadAll]
      cases index with
      | zero => rfl
      | succ index =>
          rw [List.length_cons] at inside
          rw [List.getElem_cons_succ, List.getElem_cons_succ,
            inductionHypothesis (Nat.lt_of_succ_lt_succ inside), Nat.add_right_comm, Nat.add_assoc]

theorem spread_of_leaf (leaf : right.isLeaf = true) : spread rule left right = rule left right := by
  cases right with
  | array => cases leaf
  | number => rfl
  | character => rfl

/-- What is spread over an array comes to an array of what its items come to. -/
theorem spread_array_iff : spread rule left (.array shape items) = some result ↔
    shape.size ≤ sizeLimit ∧ ∃ results : List Datum, result = .array shape results ∧
      results.length = items.length ∧
      ∀ (index : Nat) (inside : index < items.length) (inside' : index < results.length),
        spread rule (left.itemAt index) items[index] = some results[index] := by
  have foretold (results : List Datum) : spreadAll rule left 0 items = results.map some ↔
      results.length = items.length ∧
      ∀ (index : Nat) (inside : index < items.length) (inside' : index < results.length),
        spread rule (left.itemAt index) items[index] = some results[index] := by
    constructor
    · intro same
      have length := congrArg List.length same
      rw [length_spreadAll, List.length_map] at length
      refine ⟨length.symm, fun index inside inside' => ?_⟩
      have there := List.getElem_of_eq same (by rwa [length_spreadAll])
      rwa [getElem_spreadAll inside, Nat.zero_add, List.getElem_map] at there
    · rintro ⟨length, each⟩
      refine List.ext_getElem (by rw [length_spreadAll, List.length_map, length])
        fun index inside inside' => ?_
      rw [length_spreadAll] at inside
      rw [getElem_spreadAll inside, Nat.zero_add, List.getElem_map]
      exact each index inside (length ▸ inside)
  have level : spread rule left (.array shape items) =
      if shape.size ≤ sizeLimit then ((spreadAll rule left 0 items).mapM id).map (.array shape)
      else none := rfl
  rw [level]
  by_cases small : shape.size ≤ sizeLimit
  · simp only [small, if_true, true_and, Option.map_eq_some_iff, Action.mapM_id_eq_some, foretold]
    constructor
    · rintro ⟨results, each, rfl⟩
      exact ⟨results, rfl, each⟩
    · rintro ⟨results, rfl, each⟩
      exact ⟨results, each, rfl⟩
  · simp [small]

/-! ### Depth and equality -/

theorem depthOfAll_eq (items : List Datum) : depthOfAll items = (items.map depth).foldr max 0 := by
  induction items with
  | nil => rfl
  | cons item items inductionHypothesis =>
      rw [depthOfAll, List.map_cons, List.foldr_cons, inductionHypothesis]

/-- What is spread over data is as deep as they are. -/
theorem Meets.depth_spread (meets : Meets pairs left right)
    (leaves : ∀ left right result, pairs left right → rule left right = some result →
      result.isLeaf = true)
    (spreads : spread rule left right = some result) : result.depth = right.depth := by
  have flat {leaf : Datum} (isLeaf : leaf.isLeaf = true) : leaf.depth = 0 := by
    cases leaf with
    | array => cases isLeaf
    | number => rfl
    | character => rfl
  induction meets generalizing result with
  | @leaves left right leaf leaf' paired =>
      rw [spread_of_leaf leaf'] at spreads
      rw [flat (leaves left right result paired spreads), flat leaf']
  | @level left shape items fits _ inductionHypothesis =>
      obtain ⟨-, results, rfl, length, each⟩ := spread_array_iff.1 spreads
      have depths : results.map depth = items.map depth := by
        refine List.ext_getElem (by simpa using length) fun index inside inside' => ?_
        rw [List.length_map] at inside inside'
        rw [List.getElem_map, List.getElem_map]
        exact inductionHypothesis index inside' (each index inside' inside)
      rw [depth, depth, depthOfAll_eq, depths, depthOfAll_eq]

theorem Meets.same_right (meets : Meets pairs left right)
    (leaves : ∀ left right, pairs left right → right.Same right) : right.Same right := by
  induction meets with
  | leaves _ _ paired => exact leaves _ _ paired
  | level _ _ inductionHypothesis =>
      exact .array rfl fun index inside _ => inductionHypothesis index inside

/-! ### Rules that are taken back -/

/-- A rule that is taken back where leaves meet is taken back where data do. -/
theorem Meets.spread_back (meets : Meets pairs left right)
    (leaves : ∀ left right result, pairs left right → rule left right = some result →
      result.isLeaf = true ∧ pairs' left result ∧ back left result = some right)
    (spreads : spread rule left right = some result) :
    Meets pairs' left result ∧ spread back left result = some right := by
  induction meets generalizing result with
  | @leaves left right leaf leaf' paired =>
      rw [spread_of_leaf leaf'] at spreads
      obtain ⟨isLeaf, paired', backwards⟩ := leaves left right result paired spreads
      rw [spread_of_leaf isLeaf]
      exact ⟨.leaves leaf isLeaf paired', backwards⟩
  | @level left shape items fits _ inductionHypothesis =>
      obtain ⟨small, results, rfl, length, each⟩ := spread_array_iff.1 spreads
      constructor
      · refine .level fits fun index inside => ?_
        exact (inductionHypothesis index (length ▸ inside) (each index (length ▸ inside) inside)).1
      · refine spread_array_iff.2 ⟨small, items, rfl, length.symm, fun index inside inside' => ?_⟩
        exact (inductionHypothesis index inside' (each index inside' inside)).2

/-! ### Rules that tell data apart -/

theorem exists_items {α : Type} {count : Nat} {holds : Nat → α → Prop}
    (each : ∀ index < count, ∃ item, holds index item) :
    ∃ items : List α, items.length = count ∧
      ∀ (index : Nat) (inside : index < items.length), holds index items[index] := by
  induction count with
  | zero => exact ⟨[], rfl, by simp⟩
  | succ count inductionHypothesis =>
      obtain ⟨items, rfl, isItem⟩ :=
        inductionHypothesis fun index inside => each index (Nat.lt_succ_of_lt inside)
      obtain ⟨last, isLast⟩ := each items.length (Nat.lt_succ_self _)
      refine ⟨items ++ [last], by simp, fun index inside => ?_⟩
      by_cases within : index < items.length
      · rw [List.getElem_append_left within]
        exact isItem index within
      · obtain rfl : index = items.length := by
          rw [List.length_append, List.length_singleton] at inside
          omega
        rwa [List.getElem_concat_length rfl]

/-- Where a rule tells at the leaves what was on the left, from the result and from what was on the
right, it does so where data meet. -/
theorem Meets.spread_apart (meets : Meets pairs left right)
    (leaves : ∀ left right result, pairs left right → rule left right = some result →
      result.isLeaf = true ∧ pairs' result right ∧
        ∃ found, apart result right = some found ∧ found.Same left)
    (spreads : spread rule left right = some result) :
    Meets pairs' result right ∧ ∃ found kept, spread apart result right = some found ∧
      spread keepLeft left right = some kept ∧ found.Same kept := by
  induction meets generalizing result with
  | @leaves left right leaf leaf' paired =>
      rw [spread_of_leaf leaf'] at spreads
      obtain ⟨isLeaf, paired', found, isFound, same⟩ := leaves left right result paired spreads
      refine ⟨.leaves isLeaf leaf' paired', found, left, ?_, ?_, same⟩
      · rw [spread_of_leaf leaf', isFound]
      · rw [spread_of_leaf leaf', keepLeft]
  | @level left shape items fits _ inductionHypothesis =>
      obtain ⟨small, results, rfl, length, each⟩ := spread_array_iff.1 spreads
      have told (index : Nat) (inside : index < items.length) (inside' : index < results.length) :=
        inductionHypothesis index inside (each index inside inside')
      constructor
      · refine .level (List.suffix_refl shape) fun index inside => ?_
        rw [itemAt_of_lt (length ▸ inside)]
        exact (told index inside (length ▸ inside)).1
      · have pairs : ∀ index < items.length, ∃ pair : Datum × Datum,
            ∃ (inside : index < items.length) (inside' : index < results.length),
              spread apart results[index] items[index] = some pair.1 ∧
              spread keepLeft (left.itemAt index) items[index] = some pair.2 ∧
              pair.1.Same pair.2 := by
          intro index inside
          obtain ⟨-, found, kept, same⟩ := told index inside (length ▸ inside)
          exact ⟨(found, kept), inside, length ▸ inside, same⟩
        obtain ⟨pairs, count, isPair⟩ := exists_items pairs
        refine ⟨.array shape (pairs.map Prod.fst), .array shape (pairs.map Prod.snd),
          spread_array_iff.2 ⟨small, _, rfl, ?_, fun index inside inside' => ?_⟩,
          spread_array_iff.2 ⟨small, _, rfl, ?_, fun index inside inside' => ?_⟩,
          .array ?_ fun index inside inside' => ?_⟩
        · rw [List.length_map, count]
        · obtain ⟨_, there, isFound, -⟩ := isPair index (count ▸ inside)
          rw [itemAt_of_lt there, List.getElem_map]
          exact isFound
        · rw [List.length_map, count]
        · obtain ⟨_, _, -, isKept, -⟩ := isPair index (count ▸ inside)
          rw [List.getElem_map]
          exact isKept
        · rw [List.length_map, List.length_map]
        · rw [List.length_map] at inside
          obtain ⟨_, _, -, -, same⟩ := isPair index inside
          rw [List.getElem_map, List.getElem_map]
          exact same

end PointFree.Datum
