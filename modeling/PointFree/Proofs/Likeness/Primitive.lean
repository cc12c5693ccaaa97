import PointFree.Primitive.Forms
import PointFree.Proofs.Likeness.Cellwise
import PointFree.Proofs.Likeness.Pervasion

/-!
Contract: primitives on values that read alike.

Every form of every primitive makes what is alike of what is alike, forward and backward, or
fails in the same way.

An action keeps a property when, started at a memory of the likeness, it leaves such a
memory and gives a result with the property, or fails. An action that is its own twin keeps
what its results are related by; so the loops of twins are loops of actions that keep.
-/

namespace PointFree.Likeness

variable {H : Type} {l : Likeness H}

/-- A form for one argument, if there is one. -/
inductive Monads (l : Likeness H) : Option Primitive.Monadic → Prop where
  | none : Monads l none
  | some {rule : Primitive.Monadic} :
      (∀ {right right'}, l.Values right right' →
        l.Twins l.Values (rule right) (rule right')) →
      Monads l (some @rule)

inductive Dyads (l : Likeness H) : Option Primitive.Dyadic → Prop where
  | none : Dyads l none
  | some {rule : Primitive.Dyadic} :
      (∀ {left left' right right'}, l.Values left left' → l.Values right right' →
        l.Twins l.Values (rule left right) (rule left' right')) →
      Dyads l (some @rule)

variable [l.Lawful]

theorem Monads.eachLeaf {rule : Value → Outcome Value} (rules : l.Rules rule) :
    Monads l (Primitive.eachLeaf rule) :=
  .some fun rights => rights.mapLeaves rules

theorem Monads.eachNumber (function : Float → Float) :
    Monads l (Primitive.eachLeaf (Scalar.onNumber function)) :=
  .eachLeaf (Rules.onNumber function)

theorem Dyads.eachPair {rule : Value → Value → Outcome Value} (joins : l.Joins rule) :
    Dyads l (Primitive.eachPair rule) :=
  .some fun lefts rights => lefts.zipLeaves joins rights

theorem Dyads.eachNumbers (function : Float → Float → Float) :
    Dyads l (Primitive.eachPair (Scalar.onNumbers function)) :=
  .eachPair (Joins.onNumbers function)

theorem Monads.forward (primitive : Primitive) : Monads l primitive.monad? := by
  cases primitive with
  | add => exact .eachLeaf Rules.identity
  | subtract => exact .eachNumber _
  | multiply => exact .eachNumber _
  | divide => exact .eachNumber _
  | power => exact .eachNumber _
  | root => exact .eachNumber _
  | floor => exact .eachNumber _
  | ceiling => exact .eachNumber _
  | modulus => exact .eachNumber _
  | not => exact .eachNumber _
  | and => exact .none
  | or => exact .none
  | lessOrEqual => exact .none
  | greaterOrEqual => exact .none
  | equals => exact .some Twins.rank
  | notEquals => exact .some Twins.length
  | less => exact .some Twins.enclose
  | greater => exact .some Twins.mergeElements
  | right => exact .some Twins.pure
  | left => exact .some Twins.pure
  | shape => exact .some Twins.shape
  | depth => exact .some Twins.depth
  | reshape => exact .some Twins.deshape
  | range => exact .some Twins.range
  | reverse => exact .some Twins.reverse
  | pick => exact .some Twins.first
  | select => exact .some Twins.firstCell
  | take => exact .some Twins.prefixes
  | drop => exact .some Twins.suffixes
  | join => exact .some Twins.join
  | couple => exact .some Twins.solo
  | pair => exact .some Twins.enlist
  | replicate => exact .some Twins.indices
  | assert => exact .some Twins.assert

theorem Dyads.forward (primitive : Primitive) : Dyads l primitive.dyad? := by
  cases primitive with
  | add => exact .eachPair Joins.add
  | subtract => exact .eachPair Joins.subtract
  | multiply => exact .eachNumbers _
  | divide => exact .eachNumbers _
  | power => exact .eachNumbers _
  | root => exact .eachNumbers _
  | floor => exact .eachNumbers _
  | ceiling => exact .eachNumbers _
  | modulus => exact .eachNumbers _
  | not => exact .eachNumbers _
  | and => exact .eachNumbers _
  | or => exact .eachNumbers _
  | equals => exact .eachPair Joins.equals
  | notEquals => exact .eachPair Joins.differs
  | less => exact .eachPair (Joins.compares _)
  | greater => exact .eachPair (Joins.compares _)
  | lessOrEqual => exact .eachPair (Joins.compares _)
  | greaterOrEqual => exact .eachPair (Joins.compares _)
  | right => exact .some fun _ rights => Twins.pure rights
  | left => exact .some fun lefts _ => Twins.pure lefts
  | shape => exact .some Twins.differs
  | depth => exact .some Twins.equals
  | reshape => exact .some Twins.reshape
  | range => exact .none
  | reverse => exact .some Twins.rotate
  | pick => exact .some Twins.pick
  | select => exact .some Twins.select
  | take => exact .some Twins.take
  | drop => exact .some Twins.drop
  | join => exact .some Twins.joinTo
  | couple => exact .some Twins.couple
  | pair => exact .some Twins.pair
  | replicate => exact .some Twins.replicate
  | assert => exact .some Twins.assertSaying

theorem Monads.backward (primitive : Primitive) : Monads l primitive.monadInverse? := by
  cases primitive with
  | add => exact .eachLeaf Rules.identity
  | subtract => exact .eachNumber _
  | divide => exact .eachNumber _
  | power => exact .eachNumber _
  | root => exact .eachNumber _
  | not => exact .eachNumber _
  | right => exact .some Twins.pure
  | reverse => exact .some Twins.reverse
  | _ => exact .none

theorem Dyads.backward (primitive : Primitive) : Dyads l primitive.dyadInverse? := by
  cases primitive with
  | add => exact .eachPair Joins.unadd
  | subtract => exact .eachPair Joins.subtract
  | multiply => exact .eachNumbers _
  | divide => exact .eachNumbers _
  | power => exact .eachNumbers _
  | root => exact .eachNumbers _
  | not => exact .eachNumbers _
  | right => exact .some fun _ rights => Twins.pure rights
  | reverse => exact .some Twins.rotateBack
  | _ => exact .none

omit [l.Lawful] in
theorem Twins.dispatch (primitive : Primitive) {monad : Option Primitive.Monadic}
    {dyad : Option Primitive.Dyadic} (monads : Monads l monad) (dyads : Dyads l dyad)
    {right right' : Value} {left left' : Option Value} (rights : l.Values right right')
    (lefts : Option.Rel l.Values left left') :
    l.Twins l.Values (primitive.dispatch monad dyad right left)
      (primitive.dispatch monad dyad right' left') := by
  cases lefts with
  | none =>
      cases monads with
      | none => exact Twins.refuse _
      | some rules => exact rules rights
  | some lefts =>
      cases dyads with
      | none => exact Twins.refuse _
      | some rules => exact rules lefts rights

variable {right right' : Value} {left left' : Option Value}

theorem Twins.apply (primitive : Primitive) (rights : l.Values right right')
    (lefts : Option.Rel l.Values left left') :
    l.Twins l.Values (primitive.apply right left) (primitive.apply right' left') :=
  Twins.dispatch primitive (.forward primitive) (.forward primitive) rights lefts

theorem Twins.applyInverse (primitive : Primitive) (rights : l.Values right right')
    (lefts : Option.Rel l.Values left left') :
    l.Twins l.Values (primitive.applyInverse right left)
      (primitive.applyInverse right' left') :=
  Twins.dispatch primitive (.backward primitive) (.backward primitive) rights lefts

end PointFree.Likeness

namespace PointFree.Likeness

variable {H α β : Type} {l : Likeness H} {P Q : α → Prop} {R : β → Prop}

/-- The action leaves a memory of the likeness, and its result has the property. -/
def Keeps (l : Likeness H) (P : α → Prop) (action : Action H α) : Prop :=
  ∀ ⦃calling⦄, l.Calls calling → ∀ ⦃memory⦄, l.Memories memory →
    l.Memories (action calling memory).2 ∧
      ∀ result, (action calling memory).1 = .ok result → P result

/-- One result with the property on both sides. -/
def Kept (P : α → Prop) (result result' : α) : Prop :=
  result = result' ∧ P result

theorem Twins.keeps {A : α → α → Prop} {action : Action H α}
    (twins : l.Twins A action action) : l.Keeps (fun result => A result result) action := by
  intro calling calls memory memories
  obtain ⟨kept, failure, failed, _⟩ | ⟨kept, _, outcomes⟩ := twins calls memories
  · exact ⟨kept, fun result ended => by rw [failed] at ended; cases ended⟩
  · refine ⟨kept, fun result ended => ?_⟩
    rw [ended] at outcomes
    cases outcomes with
    | ok related => exact related

theorem Keeps.twins {action : Action H α} (keeps : l.Keeps P action) :
    l.Twins (Kept P) action action := by
  intro calling calls memory memories
  obtain ⟨kept, holds⟩ := keeps calls memories
  exact .inr ⟨kept, rfl, ((Outcomes.same _).and @holds).imp id⟩

theorem Keeps.imp {action : Action H α} (keeps : l.Keeps P action)
    (weaken : ∀ {result}, P result → Q result) : l.Keeps Q action :=
  fun _ calls _ memories => ⟨(keeps calls memories).1,
    fun result ended => weaken ((keeps calls memories).2 result ended)⟩

/-! ### Single actions -/

theorem Keeps.lift {outcome : Outcome α} (holds : ∀ {result}, outcome = .ok result → P result) :
    l.Keeps P (liftM outcome : Action H α) :=
  fun _ _ _ memories => ⟨memories, fun _ ended => holds ended⟩

theorem Keeps.pure {result : α} (holds : P result) :
    l.Keeps P (Pure.pure result : Action H α) :=
  Keeps.lift fun ended => Except.ok.inj ended ▸ holds

theorem Keeps.refuse (fault : Fault) : l.Keeps P (Action.refuse fault : Action H α) :=
  fun _ _ _ memories => ⟨memories, nofun⟩

theorem Keeps.bind {action : Action H α} {next : α → Action H β} (first : l.Keeps P action)
    (rest : ∀ {result}, P result → l.Keeps R (next result)) : l.Keeps R (action >>= next) := by
  intro calling calls memory memories
  obtain ⟨kept, holds⟩ := first calls memories
  rcases ended : action calling memory with ⟨failure | result, after⟩
  · rw [ended] at kept
    rw [Action.bind_of_error ended]
    exact ⟨kept, nofun⟩
  · rw [ended] at kept holds
    rw [Action.bind_of_ok ended]
    exact rest (holds result rfl) calls kept

theorem Keeps.located (span : Option Span) {action : Action H α} (keeps : l.Keeps P action) :
    l.Keeps P (Action.located span action) := by
  intro calling calls memory memories
  obtain ⟨kept, holds⟩ := keeps calls memories
  refine ⟨kept, fun result ended => holds result ?_⟩
  rw [Action.located] at ended
  generalize (action calling memory).1 = outcome at ended ⊢
  cases outcome with
  | ok value => exact ended
  | error failure => cases ended

/-! ### Loops -/

theorem forall_of_rows {row : Array α} (rows : Rows (Kept P) row row) :
    ∀ item ∈ row, P item :=
  fun item member => (List.forall₂_same.1 rows item (Array.mem_toList_iff.2 member)).2

theorem Keeps.collect {item : Nat → Action H α} {count : Nat}
    (items : ∀ index < count, l.Keeps P (item index)) :
    l.Keeps (fun row => row.size = count ∧ ∀ value ∈ row, P value)
      (PointFree.collect item count) :=
  (Twins.collect fun index inside => (items index inside).twins).keeps.imp fun collected =>
    ⟨collected.size, forall_of_rows collected.rows⟩

theorem Keeps.foldlM {step : β → α → Action H β}
    (steps : ∀ {total item}, R total → P item → l.Keeps R (step total item)) {list : List α}
    (items : ∀ item ∈ list, P item) {start : β} (holds : R start) :
    l.Keeps R (list.foldlM step start) := by
  induction list generalizing start with
  | nil => exact Keeps.pure holds
  | cons item rest inductionHypothesis =>
      obtain ⟨here, later⟩ := List.forall_mem_cons.1 items
      rw [List.foldlM_cons]
      exact Keeps.bind (steps holds here) fun total => inductionHypothesis later total

theorem Keeps.mapM {change : α → Action H β} {list : List α}
    (changes : ∀ item ∈ list, l.Keeps R (change item)) :
    l.Keeps (fun results => ∀ result ∈ results, R result) (list.mapM change) := by
  induction list with
  | nil => exact Keeps.pure nofun
  | cons item rest inductionHypothesis =>
      obtain ⟨here, later⟩ := List.forall_mem_cons.1 changes
      rw [List.mapM_cons]
      refine Keeps.bind here fun first => ?_
      refine Keeps.bind (inductionHypothesis later) fun others => Keeps.pure ?_
      exact List.forall_mem_cons.2 ⟨first, others⟩

end PointFree.Likeness
