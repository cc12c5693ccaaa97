import Mathlib.Data.List.Forall2
import PointFree.Proofs.Correspondence.Action
import PointFree.Proofs.Correspondence.Loop
import PointFree.ShapedArray.Reading

/-!
Contract: values that read alike.

Two values are alike when whoever reads them finds the same: the same numbers, characters
and functions, in arrays of the same shape with fills and elements that are alike in turn.
How an array came about does not count, nor does what it answers beyond its count. An
element that is there may stand against one that has yet to be computed, provided that
reading the one gives what reading the other gives.

A `Likeness` says which pending elements that holds of, under which calls and from which
memories. The two readings start from one memory and end at one memory. The first may ask
for more rounds than the second; it is cut where it asks for more than there are.

The loops of the library run an action for each number below a bound, or for each item of a
list. When the actions of two loops are twins item by item, so are the loops. Only the
numbers below the bound count.
-/

namespace PointFree

/-! ### The data that functions hold -/

mutual

/-- The contents of the constants that a function is made of. -/
def Function.contents : Function → List Value
  | .mk _ form => form.contents
termination_by structural function => function

def Form.contents : Form → List Value
  | .primitive _ | .block _ _ _ => []
  | .constant content _ => [content]
  | .atop left right | .over left right | .under left right | .rank left right
  | .before left right | .after left right => left.contents ++ right.contents
  | .fork left middle right => left.contents ++ (middle.contents ++ right.contents)
  | .swap operand | .each operand | .table operand | .cells operand | .fold operand
  | .scan operand | .inverse operand => operand.contents
termination_by structural form => form

end

structure Likeness (H : Type) where
  /-- The elements, the first of them pending, that give the same when they are read. -/
  reads : Element → Element → Prop
  /-- The calls, given which values are alike to themselves. -/
  calls : (Value → Prop) → Call H → Prop
  /-- The memories, given the same. -/
  memories : (Value → Prop) → Memory H → Prop

namespace Likeness

variable {H α α' β β' : Type}

mutual

inductive Values (l : Likeness H) : Value → Value → Prop where
  | number (number : Float) : Values l (.number number) (.number number)
  | character (letter : Char) : Values l (.character letter) (.character letter)
  | array {array array' : ShapedArray} :
      Arrays l array array' → Values l (.array array) (.array array')
  | function {function : Function} :
      (∀ content ∈ function.contents, Values l content content) →
      Values l (.function function) (.function function)

inductive Arrays (l : Likeness H) : ShapedArray → ShapedArray → Prop where
  | bare (view view' : View) (shape : Shape) {element element' : Nat → Element} :
      (∀ index < shape.size, Elements l (element index) (element' index)) →
      Arrays l (.mk view shape none element) (.mk view' shape none element')
  | padded (view view' : View) (shape : Shape) {fill fill' : Value}
      {element element' : Nat → Element} :
      Values l fill fill' →
      (∀ index < shape.size, Elements l (element index) (element' index)) →
      Arrays l (.mk view shape (some fill) element) (.mk view' shape (some fill') element')

inductive Elements (l : Likeness H) : Element → Element → Prop where
  | value {content content' : Value} :
      Values l content content' → Elements l (.value content) (.value content')
  | pending {element element' : Element} : l.reads element element' → Elements l element element'

end

def Calls (l : Likeness H) : Call H → Prop :=
  l.calls fun value => l.Values value value

def Memories (l : Likeness H) : Memory H → Prop :=
  l.memories fun value => l.Values value value

/-! ### Evaluations that have ended -/

inductive Outcomes (A : α → α' → Prop) : Outcome α → Outcome α' → Prop where
  | ok {result : α} {result' : α'} : A result result' → Outcomes A (.ok result) (.ok result')
  | error (failure : Failure) : Outcomes A (.error failure) (.error failure)

/-- Two evaluations that have ended, the one as the other. -/
structure Meets (l : Likeness H) (A : α → α' → Prop) (ended : Outcome α × Memory H)
    (ended' : Outcome α' × Memory H) : Prop where
  kept : l.Memories ended.2
  memory : ended.2 = ended'.2
  outcomes : Outcomes A ended.1 ended'.1

/-- An evaluation that has asked for more rounds than there are. -/
structure Cut (l : Likeness H) (ended : Outcome α × Memory H) : Prop where
  kept : l.Memories ended.2
  failed : ∃ failure, ended.1 = .error failure ∧ failure.fault = .callDepthExceeded callBudget

/-- Two actions the first of which ends as the second does, unless it is cut. -/
def Twins (l : Likeness H) (A : α → α' → Prop) (action : Action H α) (action' : Action H α') :
    Prop :=
  ∀ ⦃calling⦄, l.Calls calling → ∀ ⦃memory⦄, l.Memories memory →
    l.Cut (action calling memory) ∨ l.Meets A (action calling memory) (action' calling memory)

/-- The same for a first action that is never cut. -/
def Steadily (l : Likeness H) (A : α → α' → Prop) (action : Action H α)
    (action' : Action H α') : Prop :=
  ∀ ⦃calling⦄, l.Calls calling → ∀ ⦃memory⦄, l.Memories memory →
    l.Meets A (action calling memory) (action' calling memory)

/-- What is said to read alike does. -/
class Lawful (l : Likeness H) : Prop where
  pending {element element' : Element} :
    l.reads element element' → ∀ content, element ≠ .value content
  force {element element' : Element} :
    l.reads element element' → l.Steadily l.Values element.force element'.force

variable {l : Likeness H} {A : α → α' → Prop} {B : β → β' → Prop}

/-! ### Outcomes -/

theorem Outcomes.refuse (fault : Fault) :
    Outcomes A (PointFree.refuse fault) (PointFree.refuse fault) :=
  .error _

theorem Outcomes.same (outcome : Outcome α) : Outcomes Eq outcome outcome := by
  cases outcome with
  | ok result => exact .ok rfl
  | error failure => exact .error failure

theorem Outcomes.bind {outcome : Outcome α} {outcome' : Outcome α'} {next : α → Outcome β}
    {next' : α' → Outcome β'} (first : Outcomes A outcome outcome')
    (rest : ∀ {result result'}, A result result' → Outcomes B (next result) (next' result')) :
    Outcomes B (outcome >>= next) (outcome' >>= next') := by
  cases first with
  | ok related => exact rest related
  | error failure => exact .error failure

theorem Outcomes.map {outcome : Outcome α} {outcome' : Outcome α'} {change : α → β}
    {change' : α' → β'} (first : Outcomes A outcome outcome')
    (rest : ∀ {result result'}, A result result' → B (change result) (change' result')) :
    Outcomes B (outcome.map change) (outcome'.map change') := by
  cases first with
  | ok related => exact .ok (rest related)
  | error failure => exact .error failure

theorem Outcomes.imp {A B : α → α' → Prop} {outcome : Outcome α} {outcome' : Outcome α'}
    (outcomes : Outcomes A outcome outcome')
    (weaken : ∀ {result result'}, A result result' → B result result') :
    Outcomes B outcome outcome' := by
  cases outcomes with
  | ok related => exact .ok (weaken related)
  | error failure => exact .error failure

/-- What holds of an outcome that succeeds may be used of what is related to it. -/
theorem Outcomes.and {outcome : Outcome α} {outcome' : Outcome α'}
    (outcomes : Outcomes A outcome outcome') {P : α → Prop}
    (holds : ∀ {result}, outcome = .ok result → P result) :
    Outcomes (fun result result' => A result result' ∧ P result) outcome outcome' := by
  cases outcomes with
  | ok related => exact .ok ⟨related, holds rfl⟩
  | error failure => exact .error failure

/-! ### Actions -/

theorem Steadily.twins {action : Action H α} {action' : Action H α'}
    (steadily : l.Steadily A action action') : l.Twins A action action' :=
  fun _ calls _ memories => .inr (steadily calls memories)

theorem Steadily.ofOutcome {outcome : Outcome α} {outcome' : Outcome α'}
    (outcomes : Outcomes A outcome outcome') :
    l.Steadily A (Action.ofOutcome outcome) (Action.ofOutcome outcome') :=
  fun _ _ _ memories => ⟨memories, rfl, outcomes⟩

theorem Twins.lift {outcome : Outcome α} {outcome' : Outcome α'}
    (outcomes : Outcomes A outcome outcome') :
    l.Twins A (liftM outcome : Action H α) (liftM outcome' : Action H α') :=
  (Steadily.ofOutcome outcomes).twins

theorem Twins.pure {result : α} {result' : α'} (related : A result result') :
    l.Twins A (Pure.pure result : Action H α) (Pure.pure result' : Action H α') :=
  (Steadily.ofOutcome (.ok related)).twins

theorem Twins.refuse (fault : Fault) :
    l.Twins A (Action.refuse fault : Action H α) (Action.refuse fault : Action H α') :=
  (Steadily.ofOutcome (.refuse fault)).twins

theorem Twins.bind {action : Action H α} {action' : Action H α'} {next : α → Action H β}
    {next' : α' → Action H β'} (first : l.Twins A action action')
    (rest : ∀ {result result'}, A result result' → l.Twins B (next result) (next' result')) :
    l.Twins B (action >>= next) (action' >>= next') := by
  intro calling calls memory memories
  have ends := first calls memories
  generalize one : action calling memory = ended at ends
  generalize two : action' calling memory = ended' at ends
  obtain ⟨outcome, stored⟩ := ended
  obtain ⟨outcome', stored'⟩ := ended'
  obtain ⟨kept, failure, rfl, spent⟩ | ⟨kept, same, outcomes⟩ := ends
  · rw [Action.bind_of_error one]
    exact .inl ⟨kept, failure, rfl, spent⟩
  · cases same
    cases outcomes with
    | ok related =>
        rw [Action.bind_of_ok one, Action.bind_of_ok two]
        exact rest related calls kept
    | error failure =>
        rw [Action.bind_of_error one, Action.bind_of_error two]
        exact .inr ⟨kept, rfl, .error failure⟩

/-- What follows an action with one result on both sides. -/
theorem Twins.bindSame {action action' : Action H α} {next : α → Action H β}
    {next' : α → Action H β'} (first : l.Twins Eq action action')
    (rest : ∀ result, l.Twins B (next result) (next' result)) :
    l.Twins B (action >>= next) (action' >>= next') :=
  Twins.bind first fun same => same ▸ rest _

theorem Twins.imp {A B : α → α' → Prop} {action : Action H α} {action' : Action H α'}
    (twins : l.Twins A action action')
    (weaken : ∀ {result result'}, A result result' → B result result') :
    l.Twins B action action' :=
  fun _ calls _ memories => (twins calls memories).imp_right fun meets =>
    ⟨meets.kept, meets.memory, meets.outcomes.imp weaken⟩

theorem Steadily.attempt {action : Action H α} {action' : Action H α'}
    (steadily : l.Steadily A action action') :
    l.Twins (Outcomes A) (Action.attempt action) (Action.attempt action') := by
  intro calling calls memory memories
  obtain ⟨kept, same, outcomes⟩ := steadily calls memories
  exact .inr ⟨kept, same, .ok outcomes⟩

/-! ### Rounds -/

/-- What is left to do with a pending element. Its partner may be there already, so that it
goes on in the same round. -/
structure Onward (l : Likeness H) (A : α → α → Prop) (B : β → β → Prop)
    (step : (α → Action H β) → α → Action H β) (next next' : α → Action H β) : Prop where
  later {argument argument' : α} :
    A argument argument' → l.Twins B (next argument) (next' argument')
  here {argument argument' : α} :
    A argument argument' → l.Twins B (next argument) (step next' argument')

theorem Twins.rounds {A : α → α → Prop} {B : β → β → Prop}
    {step : (α → Action H β) → α → Action H β}
    (steps : ∀ {next next'}, l.Onward A B step next next' → ∀ {argument argument'},
      A argument argument' → l.Twins B (step next argument) (step next' argument'))
    {remaining remaining' : Nat} (within : remaining ≤ remaining') {argument argument' : α}
    (related : A argument argument') :
    l.Twins B (Action.rounds step remaining argument)
      (Action.rounds step remaining' argument') := by
  induction remaining generalizing remaining' argument argument' with
  | zero => exact fun _ _ _ memories => .inl ⟨memories, _, rfl, rfl⟩
  | succ remaining inductionHypothesis =>
      obtain ⟨more, rfl⟩ := Nat.exists_eq_add_of_le' within
      have fewer : remaining ≤ more + remaining := Nat.le_add_left ..
      refine steps ⟨fun related => ?_, fun related => ?_⟩ related
      · exact inductionHypothesis fewer related
      · exact inductionHypothesis (Nat.le_succ_of_le fewer) related

end Likeness

end PointFree

namespace PointFree.Likeness

variable {H α α' β β' : Type} {l : Likeness H} {A : α → α' → Prop} {B : β → β' → Prop}

/-! ### Rows -/

def Rows (A : α → α' → Prop) (row : Array α) (row' : Array α') : Prop :=
  List.Forall₂ A row.toList row'.toList

theorem Rows.size_eq {row : Array α} {row' : Array α'} (rows : Rows A row row') :
    row.size = row'.size :=
  List.Forall₂.length_eq rows

theorem Rows.nil : Rows A (#[] : Array α) (#[] : Array α') :=
  List.Forall₂.nil

theorem Rows.push {row : Array α} {row' : Array α'} {item : α} {item' : α'}
    (rows : Rows A row row') (related : A item item') :
    Rows A (row.push item) (row'.push item') := by
  rw [Rows, Array.toList_push, Array.toList_push]
  exact List.rel_append rows (.cons related .nil)

theorem Rows.append {first second : Array α} {first' second' : Array α'}
    (firsts : Rows A first first') (seconds : Rows A second second') :
    Rows A (first ++ second) (first' ++ second') := by
  rw [Rows, Array.toList_append, Array.toList_append]
  exact List.rel_append firsts seconds

theorem Rows.replicate (count : Nat) {item : α} {item' : α'} (related : A item item') :
    Rows A (Array.replicate count item) (Array.replicate count item') := by
  rw [Rows, Array.toList_replicate, Array.toList_replicate]
  induction count with
  | zero => exact .nil
  | succ count inductionHypothesis => exact .cons related inductionHypothesis

theorem Rows.getElem? {row : Array α} {row' : Array α'} (rows : Rows A row row') (index : Nat) :
    Option.Rel A row[index]? row'[index]? := by
  rw [← Array.getElem?_toList, ← Array.getElem?_toList]
  exact Correspondence.getElem?_of_forall₂ rows index

theorem Rows.eq {row row' : Array α} (rows : Rows Eq row row') : row = row' :=
  Array.toList_inj.1 (List.forall₂_eq_eq_eq ▸ rows)

/-! ### Loops over numbers -/

/-- The results for the numbers below `count`. -/
structure Collected (A : α → α' → Prop) (count : Nat) (row : Array α) (row' : Array α') : Prop where
  rows : Rows A row row'
  size : row.size = count

theorem Twins.collectFrom {item : Nat → Action H α} {item' : Nat → Action H α'}
    {remaining index : Nat}
    (items : ∀ place, index ≤ place → place < index + remaining →
      l.Twins A (item place) (item' place))
    {found : Array α} {found' : Array α'} (rows : Rows A found found') :
    l.Twins (Collected A (found.size + remaining)) (collectFrom item remaining index found)
      (collectFrom item' remaining index found') := by
  induction remaining generalizing index found found' with
  | zero => exact Twins.pure ⟨rows, rfl⟩
  | succ remaining inductionHypothesis =>
      refine Twins.bind (items index (Nat.le_refl _) (by omega)) fun {value _} related => ?_
      have size : found.size + (remaining + 1) = (found.push value).size + remaining := by
        rw [Array.size_push, Nat.add_right_comm, Nat.add_assoc]
      rw [size]
      exact inductionHypothesis (fun place above below => items place (by omega) (by omega))
        (rows.push related)

theorem Twins.collect {item : Nat → Action H α} {item' : Nat → Action H α'} {count : Nat}
    (items : ∀ index < count, l.Twins A (item index) (item' index)) :
    l.Twins (Collected A count) (PointFree.collect item count) (PointFree.collect item' count) := by
  have loop : l.Twins (Collected A ((#[] : Array α).size + count))
      (PointFree.collect item count) (PointFree.collect item' count) :=
    Twins.collectFrom (fun place _ below => items place (by omega)) Rows.nil
  rwa [Array.size_empty, Nat.zero_add] at loop

theorem Twins.every {test test' : Nat → Action H Bool} {count : Nat}
    (tests : ∀ index < count, l.Twins Eq (test index) (test' index)) :
    l.Twins Eq (PointFree.every test count) (PointFree.every test' count) := by
  suffices general : ∀ (remaining index : Nat), index + remaining = count →
      l.Twins Eq (everyFrom test remaining index) (everyFrom test' remaining index) from
    general count 0 (Nat.zero_add count)
  intro remaining
  induction remaining with
  | zero => exact fun _ _ => Twins.pure rfl
  | succ remaining inductionHypothesis =>
      intro index whole
      refine Twins.bind (tests index (by omega)) fun {passed _} same => ?_
      cases same
      cases passed with
      | true => exact inductionHypothesis (index + 1) (by omega)
      | false => exact Twins.pure rfl

/-- The same for a loop that may stop without a failure. -/
theorem Twins.collectOption {item : Nat → OptionT (Action H) α}
    {item' : Nat → OptionT (Action H) α'} {count : Nat}
    (items : ∀ index < count, l.Twins (Option.Rel A) (item index).run (item' index).run) :
    l.Twins (Option.Rel (Rows A)) (PointFree.collect item count).run
      (PointFree.collect item' count).run := by
  suffices general : ∀ (remaining index : Nat) {found : Array α} {found' : Array α'},
      index + remaining = count → Rows A found found' →
      l.Twins (Option.Rel (Rows A)) (PointFree.collectFrom item remaining index found).run
        (PointFree.collectFrom item' remaining index found').run from
    general count 0 (Nat.zero_add count) .nil
  intro remaining
  induction remaining with
  | zero => exact fun _ _ _ _ rows => Twins.pure (.some rows)
  | succ remaining inductionHypothesis =>
      intro index found found' whole rows
      refine Twins.bind (items index (by omega)) fun related => ?_
      cases related with
      | none => exact Twins.pure .none
      | some related => exact inductionHypothesis (index + 1) (by omega) (rows.push related)

/-! ### Loops over lists -/

theorem Twins.foldlM {step : β → α → Action H β} {step' : β' → α' → Action H β'}
    (steps : ∀ {total total' item item'}, B total total' → A item item' →
      l.Twins B (step total item) (step' total' item'))
    {list : List α} {list' : List α'} (lists : List.Forall₂ A list list') {start : β}
    {start' : β'} (starts : B start start') :
    l.Twins B (list.foldlM step start) (list'.foldlM step' start') := by
  induction lists generalizing start start' with
  | nil => exact Twins.pure starts
  | cons related _ inductionHypothesis =>
      rw [List.foldlM_cons, List.foldlM_cons]
      exact Twins.bind (steps starts related) fun totals => inductionHypothesis totals

theorem Twins.foldRow {step : β → α → Action H β} {step' : β' → α' → Action H β'}
    (steps : ∀ {total total' item item'}, B total total' → A item item' →
      l.Twins B (step total item) (step' total' item'))
    {row : Array α} {row' : Array α'} (rows : Rows A row row') {start : β} {start' : β'}
    (starts : B start start') :
    l.Twins B (row.foldlM step start) (row'.foldlM step' start') := by
  rw [← Array.foldlM_toList, ← Array.foldlM_toList]
  exact Twins.foldlM (A := A) steps rows starts

end PointFree.Likeness
