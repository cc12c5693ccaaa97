import Mathlib.Data.List.Fold
import Mathlib.Data.List.MinMax
import Mathlib.Order.Nat
import PointFree.Proofs.Settling
import PointFree.Value.Depth
import PointFree.Value.Equality
import PointFree.Value.Text

/-!
Contract: what a value looks like however often it is read.

A picture says what stands where in a value: numbers, characters and functions at the leaves, and
the kind of the failure where an element cannot be computed. A value is depicted where each of its
elements is read as its part of the picture says, whenever that is from memories that are held to.
An element that is computed when it is read may make another value each time, in another memory; the
picture of it must stay.

Equality, depth, the text of a list and the written form are read off the picture of a value, as
long as its nesting stays below the budget of calls.
-/

namespace PointFree

variable {H : Type} {calling : Call H} {held : Memory H → Prop}

/-- What an element is seen as. Items past the size of the shape do not count. -/
inductive Picture where
  | number (amount : Float)
  | character (letter : Char)
  | function (operation : Function)
  | failure (kind : FaultKind)
  | array (shape : Shape) (item : Nat → Picture)

namespace Picture

/-- The part stands somewhere in the picture, or is all of it. -/
inductive Contains : Picture → Picture → Prop where
  | whole (picture : Picture) : Contains picture picture
  | item {shape : Shape} {item : Nat → Picture} {index : Nat} {part : Picture} :
      index < shape.size → Contains (item index) part → Contains (.array shape item) part

def same : Picture → Picture → Bool
  | .number left, .number right => left == right
  | .character left, .character right => left == right
  | .function left, .function right => left.same right
  | .array shape item, .array shape' item' =>
      shape = shape' && (List.range shape.size).all fun index => (item index).same (item' index)
  | _, _ => false
termination_by structural left => left

def depth : Picture → Nat
  | .array shape item =>
      ((List.range shape.size).map fun index => (item index).depth).foldl max 0 + 1
  | _ => 0
termination_by structural picture => picture

def letter? : Picture → Option Char
  | .character letter => some letter
  | _ => none

def string? : Picture → Option String
  | .array shape item =>
      if shape.length = 1 then
        ((List.range shape.size).mapM fun index => (item index).letter?).map String.ofList
      else none
  | _ => none

def text : Picture → String
  | .number amount => Decimal.Style.display.text amount
  | .character letter => "'" ++ String.singleton letter ++ "'"
  | .function operation => operation.name
  | .failure kind => "<" ++ kind.label ++ ">"
  | .array shape item =>
      if shape.size = 0 then "⟨⟩"
      else if shape = [] then "<" ++ (item 0).text
      else
        match (array shape item).string? with
        | some string => "\"" ++ string ++ "\""
        | none =>
            axesText shape ++ "⟨" ++
              ", ".intercalate ((List.range shape.size).map fun index => (item index).text) ++ "⟩"
termination_by structural picture => picture

variable {picture : Picture} {shape : Shape} {item : Nat → Picture} {index : Nat}

theorem depth_array (shape : Shape) (item : Nat → Picture) : (array shape item).depth =
    ((List.range shape.size).map fun index => (item index).depth).foldl max 0 + 1 :=
  rfl

theorem depth_lt (inside : index < shape.size) : (item index).depth < (array shape item).depth := by
  have member : (item index).depth ∈ (List.range shape.size).map fun index => (item index).depth :=
    List.mem_map_of_mem (List.mem_range.2 inside)
  rw [depth_array, List.foldl_eq_foldr]
  exact Nat.lt_succ_of_le (List.le_max_of_le member le_rfl)

end Picture

/-- The value or the failure looks like the picture, whenever its elements are read from memories
that are held to, and reading them leaves such a memory. -/
inductive Outcome.Depicts (calling : Call H) (held : Memory H → Prop) :
    Outcome Value → Picture → Prop where
  | number (amount : Float) : Depicts calling held (.ok (.number amount)) (.number amount)
  | character (letter : Char) : Depicts calling held (.ok (.character letter)) (.character letter)
  | function (operation : Function) :
      Depicts calling held (.ok (.function operation)) (.function operation)
  | failure (failure : Failure) : Depicts calling held (.error failure) (.failure failure.kind)
  | array {array : ShapedArray} {item : Nat → Picture} :
      (∀ index < array.count, ∀ memory, held memory →
        held ((array.element index).force calling memory).2) →
      (∀ index < array.count, ∀ memory, held memory →
        Depicts calling held ((array.element index).force calling memory).1 (item index)) →
      Depicts calling held (.ok (.array array)) (.array array.shape item)

def Value.Depicts (calling : Call H) (held : Memory H → Prop) (value : Value)
    (picture : Picture) : Prop :=
  Outcome.Depicts calling held (.ok value) picture

/-- Reading the element ends as the picture says. -/
def Element.Depicts (calling : Call H) (held : Memory H → Prop) (element : Element)
    (picture : Picture) : Prop :=
  (Action.attempt element.force).Settles calling held
    (fun picture outcome => Outcome.Depicts calling held outcome picture) (some picture)

variable {value left right : Value} {array : ShapedArray} {element : Element}
variable {picture picture' : Picture}

/-- An array looks like what its elements are read as. -/
theorem Value.depicts_array {item : Nat → Picture}
    (elements : ∀ index < array.count, (array.element index).Depicts calling held (item index)) :
    (Value.array array).Depicts calling held (.array array.shape item) := by
  refine .array (fun index inside memory holds => (elements index inside memory holds).1)
    fun index inside memory holds => ?_
  obtain ⟨outcome, after, ended, -, depicts⟩ := (elements index inside).ok holds
  cases ended
  exact depicts

theorem Value.Depicts.elements (depicts : (Value.array array).Depicts calling held picture) :
    ∃ item : Nat → Picture, picture = .array array.shape item ∧
      ∀ index < array.count, (array.element index).Depicts calling held (item index) := by
  cases depicts with
  | @array _ item kept depicts =>
      refine ⟨item, rfl, fun index inside memory holds => ?_⟩
      exact ⟨kept index inside memory holds, .ok (depicts index inside memory holds)⟩

theorem Value.Depicts.parts {view : View} {shape shape' : Shape} {fill : Option Value}
    {element : Nat → Element} {item : Nat → Picture}
    (depicts : (Value.array (.mk view shape fill element)).Depicts calling held
      (.array shape' item)) :
    shape' = shape ∧ ∀ index < shape.size, (element index).Depicts calling held (item index) := by
  obtain ⟨_, isArray, elements⟩ := depicts.elements
  obtain ⟨isShape, rfl⟩ := Picture.array.inj isArray
  exact ⟨isShape, elements⟩

/-- A value that is there looks like the picture, if there is a memory to read it from. -/
theorem Element.Depicts.of_value (depicts : (Element.value value).Depicts calling held picture)
    {memory : Memory H} (holds : held memory) : value.Depicts calling held picture := by
  obtain ⟨_, _, ended, _, depicts⟩ := depicts.ok holds
  cases ended
  exact depicts

/-! ### Rounds, and loops that do not fail -/

namespace Action

/-- What a step comes to within every limit from a depth on, its rounds come to within a limit above
the depth. -/
theorem Settles.rounds {α β γ : Type} {fits : γ → β → Prop} {expected : Option γ}
    {step : (α → Action H β) → α → Action H β} {argument : α} {depth limit : Nat}
    (steps : ∀ limit, depth ≤ limit →
      (step (Action.rounds step limit) argument).Settles calling held fits expected)
    (shallow : depth < limit) :
    (Action.rounds step limit argument).Settles calling held fits expected := by
  rw [rounds_eq_step step limit argument (Nat.zero_lt_of_lt shallow)]
  exact steps (limit - 1) (Nat.le_sub_one_of_lt shallow)

/-- A test of every number finds the answer that the single tests give. -/
theorem Settles.everyFrom_answer {test : Nat → Action H Bool} {answer : Nat → Bool}
    {remaining index : Nat} (tests : ∀ place, index ≤ place → place < index + remaining →
      (test place).Settles calling held Eq (some (answer place))) :
    (PointFree.everyFrom test remaining index).Settles calling held Eq
      (some ((List.range' index remaining).all answer)) := by
  induction remaining generalizing index with
  | zero => exact settles_pure rfl
  | succ remaining inductionHypothesis =>
      refine (tests index (Nat.le_refl _) (by omega)).bind_some fun passed isAnswer => ?_
      rw [List.range'_succ, List.all_cons, isAnswer]
      cases passed with
      | false => exact settles_pure rfl
      | true => exact inductionHypothesis fun place above below => tests place (by omega) (by omega)

theorem Settles.every {test : Nat → Action H Bool} {answer : Nat → Bool} {count : Nat}
    (tests : ∀ index < count, (test index).Settles calling held Eq (some (answer index))) :
    (PointFree.every test count).Settles calling held Eq
      (some ((List.range count).all answer)) := by
  rw [List.range_eq_range']
  exact everyFrom_answer fun place _ below => tests place (by omega)

/-- Items that may not be there are collected as long as they are. -/
theorem Settles.collectFrom_option {α : Type} {item : Nat → OptionT (Action H) α}
    {foretold : Nat → Option α} {remaining index : Nat} {found : Array α}
    (items : ∀ place, index ≤ place → place < index + remaining →
      (item place).run.Settles calling held Eq (some (foretold place))) :
    (PointFree.collectFrom item remaining index found).run.Settles calling held Eq
      (some (((List.range' index remaining).mapM foretold).map fun more =>
        found ++ more.toArray)) := by
  induction remaining generalizing index found with
  | zero => exact settles_pure (by simp)
  | succ remaining inductionHypothesis =>
      rw [PointFree.collectFrom, OptionT.run_bind]
      refine (items index (Nat.le_refl _) (by omega)).bind_some fun read isForetold => ?_
      rw [List.range'_succ, List.mapM_cons, isForetold]
      cases read with
      | none => exact settles_pure rfl
      | some value =>
          have rest := @inductionHypothesis (index + 1) (found.push value)
            fun place above below => items place (by omega) (by omega)
          have whole (more : Option (List α)) :
              (more.map fun more => found.push value ++ more.toArray) =
                (more.bind fun more => some (value :: more)).map fun more =>
                  found ++ more.toArray := by
            cases more <;> simp
          rw [whole] at rest
          exact rest

/-- Items that come to these values are collected as a list of them. -/
theorem Settles.collect_values {α : Type} {item : Nat → Action H α} {value : Nat → α} {count : Nat}
    (items : ∀ index < count, (item index).Settles calling held Eq (some (value index))) :
    (PointFree.collect item count).Settles calling held (fun row results => results.toList = row)
      (some ((List.range count).map value)) := by
  refine (Settles.collect_range items).imp fun {row results} rows => ?_
  rw [List.forall₂_eq_eq_eq] at rows
  exact rows.symm

end Action

/-! ### Equality -/

@[simp]
theorem Picture.failure_same (kind : FaultKind) (picture : Picture) :
    (failure kind).same picture = false := by
  cases picture <;> rfl

@[simp]
theorem Picture.same_failure (picture : Picture) (kind : FaultKind) :
    picture.same (failure kind) = false := by
  cases picture <;> rfl

/-- Elements are compared as what they are read as, in whichever round that is. -/
theorem Element.Depicts.sameThrough {left right : Element} {later : Value × Value → Action H Bool}
    (depicts : left.Depicts calling held picture) (depicts' : right.Depicts calling held picture')
    (here : ∀ one other : Value, one.Depicts calling held picture →
      other.Depicts calling held picture' →
      (one.sameThrough later other).Settles calling held Eq (some (picture.same picture')))
    (afterwards : ∀ one other : Value, one.Depicts calling held picture →
      other.Depicts calling held picture' →
      (later (one, other)).Settles calling held Eq (some (picture.same picture'))) :
    (left.sameThrough later right).Settles calling held Eq (some (picture.same picture')) := by
  cases left with
  | value content =>
      intro memory holds
      refine depicts'.bind_some (fun outcome isRead => ?_) memory holds
      cases outcome with
      | ok other => exact here content other (depicts.of_value holds) isRead
      | error failure =>
          cases isRead
          exact Action.settles_pure (Picture.same_failure picture _)
  | failure | combined | selected =>
      refine depicts.bind_some fun outcome isRead => ?_
      refine depicts'.bind_some fun outcome' isRead' => ?_
      cases outcome with
      | error failure =>
          cases isRead
          exact Action.settles_pure (Picture.failure_same _ picture')
      | ok one =>
          cases outcome' with
          | ok other => exact afterwards one other isRead isRead'
          | error failure =>
              cases isRead'
              exact Action.settles_pure (Picture.same_failure picture _)

namespace Value

theorem Depicts.sameThrough (depicts : left.Depicts calling held picture)
    (depicts' : right.Depicts calling held picture') {limit : Nat} (deep : picture.depth ≤ limit) :
    (left.sameThrough (Action.rounds (fun later pair => pair.1.sameThrough later pair.2) limit)
      right).Settles calling held Eq (some (picture.same picture')) := by
  induction picture generalizing left right picture' limit with
  | number | character | function =>
      cases depicts
      cases depicts' <;> exact Action.settles_pure rfl
  | failure kind => cases depicts
  | array shape item inductionHypothesis =>
      cases left with
      | number | character | function => cases depicts
      | array left =>
          cases right with
          | number | character | function =>
              cases depicts'
              exact Action.settles_pure rfl
          | array right =>
              obtain ⟨view, shape, fill, element⟩ := left
              obtain ⟨rfl, elements⟩ := depicts.parts
              obtain ⟨item', rfl, elements'⟩ := depicts'.elements
              rw [Value.sameThrough, ShapedArray.sameThrough, Picture.same]
              by_cases same : shape = right.shape
              · rw [if_pos same, decide_eq_true same, Bool.true_and]
                refine Action.Settles.every fun index inside => ?_
                have shallow := (Picture.depth_lt inside).trans_le deep
                have inside' : index < right.count := by rwa [ShapedArray.count, ← same]
                refine (elements index inside).sameThrough (elements' index inside') ?_ ?_
                · intro one other shows shows'
                  exact inductionHypothesis index shows shows' shallow.le
                · intro one other shows shows'
                  exact .rounds (fun _ deep => inductionHypothesis index shows shows' deep) shallow
              · rw [if_neg same]
                refine Action.settles_pure ?_
                rw [decide_eq_false same, Bool.false_and]

/-- Two values are compared as their pictures are. -/
theorem Depicts.same (depicts : left.Depicts calling held picture)
    (depicts' : right.Depicts calling held picture') (deep : picture.depth < callBudget) :
    (left.same right).Settles calling held Eq (some (picture.same picture')) := by
  rw [Value.same]
  exact .rounds (fun _ deep => depicts.sameThrough depicts' deep) deep

end Value

/-! ### Depth -/

/-- An element that does not fail is read as a value that looks like the picture. -/
theorem Element.Depicts.force (depicts : element.Depicts calling held picture)
    (readable : ∀ kind, picture ≠ .failure kind) :
    (element.force : Action H Value).Settles calling held
      (fun picture value => value.Depicts calling held picture) (some picture) := by
  intro memory holds
  obtain ⟨outcome, after, isRead, kept, depicts⟩ := depicts.ok holds
  rw [Action.attempt] at isRead
  rcases ended : element.force calling memory with ⟨failure | value, _⟩
  · rw [ended] at isRead
    cases isRead
    cases depicts
    exact absurd rfl (readable _)
  · rw [ended] at isRead
    cases isRead
    exact ⟨kept, .ok depicts⟩

/-- An element is as deep as what it is read as, in whichever round that is. -/
theorem Element.Depicts.depthThrough {later : Value → Action H Nat}
    (depicts : element.Depicts calling held picture)
    (readable : ∀ kind, picture ≠ .failure kind)
    (here : ∀ content : Value, content.Depicts calling held picture →
      (content.depthThrough later).Settles calling held Eq (some picture.depth))
    (afterwards : ∀ content : Value, content.Depicts calling held picture →
      (later content).Settles calling held Eq (some picture.depth)) :
    (element.depthThrough later).Settles calling held Eq (some picture.depth) := by
  cases element with
  | value content =>
      exact fun memory holds => here content (depicts.of_value holds) memory holds
  | failure | combined | selected => exact (depicts.force readable).bind_some afterwards

namespace Value

/-- Where no element fails, arrays are nested as deeply as in the picture. -/
theorem Depicts.depthThrough (depicts : value.Depicts calling held picture)
    (readable : ∀ kind, ¬ picture.Contains (.failure kind)) {limit : Nat}
    (deep : picture.depth ≤ limit) :
    (value.depthThrough (Action.rounds Value.depthThrough limit)).Settles calling held Eq
      (some picture.depth) := by
  induction picture generalizing value limit with
  | number | character | function =>
      cases depicts
      exact Action.settles_pure rfl
  | failure kind => cases depicts
  | array shape item inductionHypothesis =>
      cases value with
      | number | character | function => cases depicts
      | array array =>
          obtain ⟨view, shape, fill, element⟩ := array
          obtain ⟨rfl, elements⟩ := depicts.parts
          have depths : (collect (fun index => (element index).depthThrough
              (Action.rounds Value.depthThrough limit)) shape.size).Settles calling held
              (fun row results => results.toList = row)
              (some ((List.range shape.size).map fun index => (item index).depth)) := by
            refine Action.Settles.collect_values fun index inside => ?_
            have shallow := (Picture.depth_lt inside).trans_le deep
            have readable (kind : FaultKind) : ¬ (item index).Contains (.failure kind) :=
              fun fails => readable kind (.item inside fails)
            refine (elements index inside).depthThrough ?_ ?_ ?_
            · exact fun kind same => readable kind (same ▸ .whole _)
            · intro content shows
              exact inductionHypothesis index shows readable shallow.le
            · intro content shows
              exact .rounds (fun _ deep => inductionHypothesis index shows readable deep) shallow
          rw [Value.depthThrough, ShapedArray.depthThrough]
          refine depths.bind_some fun results areDepths => Action.settles_pure ?_
          rw [← Array.foldl_toList, areDepths]
          rfl

theorem Depicts.depth (depicts : value.Depicts calling held picture)
    (readable : ∀ kind, ¬ picture.Contains (.failure kind)) (deep : picture.depth < callBudget) :
    (value.depth : Action H Nat).Settles calling held Eq (some picture.depth) := by
  rw [Value.depth]
  exact .rounds (fun _ deep => depicts.depthThrough readable deep) deep

end Value

/-! ### Texts -/

theorem Element.Depicts.character? (depicts : element.Depicts calling held picture) :
    (element.character? : OptionT (Action H) Char).run.Settles calling held Eq
      (some picture.letter?) := by
  refine depicts.bind_some fun outcome isRead => ?_
  cases isRead <;> exact Action.settles_pure rfl

/-- The text of a list is the one in its picture. -/
theorem Value.Depicts.string? (depicts : value.Depicts calling held picture) :
    (value.string? : Action H (Option String)).Settles calling held Eq (some picture.string?) := by
  cases value with
  | number | character | function =>
      cases depicts
      exact Action.settles_pure rfl
  | array array =>
      obtain ⟨item, rfl, elements⟩ := depicts.elements
      rw [Value.string?, ShapedArray.string?, Picture.string?]
      change Action.Settles calling held Eq (if array.rank = 1 then _ else _)
        (some (if array.rank = 1 then _ else _))
      by_cases isList : array.rank = 1
      · have letters : (collect (fun index => (array.element index).character?)
            array.count).run.Settles calling held Eq _ :=
          Action.Settles.collectFrom_option fun index _ inside =>
            (elements index (by omega)).character?
        rw [if_pos isList, if_pos isList]
        refine letters.bind_some fun found isFound => Action.settles_pure ?_
        rw [← isFound, List.range_eq_range', ShapedArray.count]
        cases (List.range' 0 array.shape.size).mapM fun index => (item index).letter? <;> simp
      · rw [if_neg isList, if_neg isList]
        exact Action.settles_pure rfl

/-- An element is written as what it is read as, in whichever round that is. -/
theorem Element.Depicts.textThrough {later : Value → Action H String}
    (depicts : element.Depicts calling held picture)
    (here : ∀ content : Value, content.Depicts calling held picture →
      (content.textThrough later).Settles calling held Eq (some picture.text))
    (afterwards : ∀ content : Value, content.Depicts calling held picture →
      (later content).Settles calling held Eq (some picture.text)) :
    (element.textThrough later).Settles calling held Eq (some picture.text) := by
  cases element with
  | value content =>
      exact fun memory holds => here content (depicts.of_value holds) memory holds
  | failure | combined | selected =>
      refine depicts.bind_some fun outcome isRead => ?_
      cases outcome with
      | ok content => exact afterwards content isRead
      | error failure =>
          cases isRead
          exact Action.settles_pure rfl

namespace Value

theorem Depicts.textThrough (depicts : value.Depicts calling held picture) {limit : Nat}
    (deep : picture.depth ≤ limit) :
    (value.textThrough (Action.rounds Value.textThrough limit)).Settles calling held Eq
      (some picture.text) := by
  induction picture generalizing value limit with
  | number | character | function =>
      cases depicts
      exact Action.settles_pure rfl
  | failure kind => cases depicts
  | array shape item inductionHypothesis =>
      cases value with
      | number | character | function => cases depicts
      | array array =>
          have string := depicts.string?
          obtain ⟨view, shape, fill, element⟩ := array
          obtain ⟨rfl, elements⟩ := depicts.parts
          have texts (index : Nat) (inside : index < shape.size) :
              ((element index).textThrough (Action.rounds Value.textThrough limit)).Settles calling
                held Eq (some (item index).text) := by
            have shallow := (Picture.depth_lt inside).trans_le deep
            refine (elements index inside).textThrough ?_ ?_
            · intro content shows
              exact inductionHypothesis index shows shallow.le
            · intro content shows
              exact .rounds (fun _ deep => inductionHypothesis index shows deep) shallow
          rw [Value.textThrough, ShapedArray.textThrough, Picture.text]
          by_cases empty : shape.size = 0
          · rw [if_pos empty, if_pos empty]
            exact Action.settles_pure rfl
          · rw [if_neg empty, if_neg empty]
            by_cases boxed : shape = []
            · rw [if_pos boxed, if_pos boxed]
              refine (texts 0 (Nat.pos_of_ne_zero empty)).bind_some fun text isText => ?_
              rw [isText]
              exact Action.settles_pure rfl
            · rw [if_neg boxed, if_neg boxed]
              refine string.bind_some fun found isFound => ?_
              rw [isFound]
              cases found with
              | some string => exact Action.settles_pure rfl
              | none =>
                  refine (Action.Settles.collect_values texts).bind_some fun found areTexts => ?_
                  rw [areTexts]
                  exact Action.settles_pure rfl

/-- A value is written as its picture is. -/
theorem Depicts.text (depicts : value.Depicts calling held picture)
    (deep : picture.depth < callBudget) :
    (value.text : Action H String).Settles calling held Eq (some picture.text) := by
  rw [Value.text]
  exact .rounds (fun _ deep => depicts.textThrough deep) deep

end Value

end PointFree
