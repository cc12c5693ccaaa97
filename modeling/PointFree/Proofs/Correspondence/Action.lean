import PointFree.Proofs.Correspondence

/-!
Contract: actions that go the same way.

Two actions correspond in a world when, started in any later world on memories
that correspond and with calls that correspond, both fail with corresponding
failures or both succeed with corresponding results, and leave memories that
correspond in a world that is later still, unless the first is abandoned. Every way
to put actions together keeps this, so two programs written alike correspond as soon
as their parts do.
-/

namespace PointFree

section Steps

variable {H α β : Type}

theorem Action.bind_of_ok {action : Action H α} {next : α → Action H β} {calling : Call H}
    {memory after : Memory H} {result : α} (ended : action calling memory = (.ok result, after)) :
    (action >>= next) calling memory = next result calling after := by
  change ExceptT.bindCont (fun result => next result calling) (action calling memory).1
    (action calling memory).2 = _
  rw [ended]
  rfl

theorem Action.bind_of_error {action : Action H α} {next : α → Action H β} {calling : Call H}
    {memory after : Memory H} {failure : Failure}
    (ended : action calling memory = (.error failure, after)) :
    (action >>= next) calling memory = (.error failure, after) := by
  change ExceptT.bindCont (fun result => next result calling) (action calling memory).1
    (action calling memory).2 = _
  rw [ended]
  rfl

theorem Action.bind_eq_ok {action : Action H α} {next : α → Action H β} {calling : Call H}
    {memory after : Memory H} {result : β} :
    (action >>= next) calling memory = (.ok result, after) ↔
      ∃ found between, action calling memory = (.ok found, between) ∧
        next found calling between = (.ok result, after) := by
  rcases first : action calling memory with ⟨failure | found, between⟩
  · rw [Action.bind_of_error first]
    exact ⟨nofun, nofun⟩
  · rw [Action.bind_of_ok first]
    refine ⟨fun ended => ⟨found, between, rfl, ended⟩, ?_⟩
    rintro ⟨_, _, same, ended⟩
    cases same
    exact ended

theorem Action.nested_of_reached {action : Action H α} {calling : Call H} {memory : Memory H}
    {limit : Nat} (reached : limit ≤ memory.depth) :
    Action.nested limit action calling memory =
      (PointFree.refuse (.callDepthExceeded limit), memory) :=
  if_pos reached

theorem Action.nested_of_below {action : Action H α} {calling : Call H} {memory : Memory H}
    {limit : Nat} (below : memory.depth < limit) :
    Action.nested limit action calling memory =
      let ended := action calling { memory with depth := memory.depth + 1 }
      (ended.1, { ended.2 with depth := ended.2.depth - 1 }) :=
  if_neg (Nat.not_le_of_lt below)

end Steps

namespace Correspondence

variable {H K : Type} {c : Correspondence H K} {α α' β β' : Type}

/-! ### Relations that grow with the world -/

/-- What corresponds in a world corresponds in every later one. -/
class Lasting (A : c.World → α → α' → Prop) : Prop where
  mono {W V : c.World} {result : α} {result' : α'} : W ≤ V → A W result result' → A V result result'

instance : Lasting c.Values := ⟨fun later related => related.mono later⟩
instance : Lasting c.Arrays := ⟨fun later related => related.mono later⟩
instance : Lasting c.Elements := ⟨fun later related => related.mono later⟩
instance : Lasting c.Functions := ⟨fun later related => related.mono later⟩

/-- Results in which no function occurs. -/
def Same (c : Correspondence H K) (_ : c.World) (result result' : α) : Prop :=
  result = result'

instance : Lasting (c.Same : c.World → α → α → Prop) := ⟨fun _ same => same⟩

def Options (A : c.World → α → α' → Prop) (W : c.World) : Option α → Option α' → Prop :=
  Option.Rel (A W)

def Lists (A : c.World → α → α' → Prop) (W : c.World) : List α → List α' → Prop :=
  List.Forall₂ (A W)

def Rows (A : c.World → α → α' → Prop) (W : c.World) (row : Array α) (row' : Array α') : Prop :=
  Lists A W row.toList row'.toList

def Pairs (A : c.World → α → α' → Prop) (B : c.World → β → β' → Prop) (W : c.World)
    (pair : α × β) (pair' : α' × β') : Prop :=
  A W pair.1 pair'.1 ∧ B W pair.2 pair'.2

def Texts (c : Correspondence H K) (_ : c.World) : String → String → Prop :=
  c.texts

instance : Lasting c.Texts := ⟨fun _ texts => texts⟩

inductive Outcomes (c : Correspondence H K) (A : α → α' → Prop) : Outcome α → Outcome α' → Prop
  where
  | ok {result : α} {result' : α'} : A result result' → Outcomes c A (.ok result) (.ok result')
  | error {failure failure' : Failure} :
      c.Failures failure failure' → Outcomes c A (.error failure) (.error failure')

section Lasting

variable {A : c.World → α → α' → Prop} {B : c.World → β → β' → Prop} [Lasting A] [Lasting B]

instance : Lasting (Options A) where
  mono later options := by
    cases options with
    | some related => exact .some (Lasting.mono later related)
    | none => exact .none

instance : Lasting (Lists A) where
  mono later lists := List.Forall₂.imp (fun _ _ => Lasting.mono later) lists

instance : Lasting (Rows A) where
  mono later rows := Lasting.mono (A := Lists A) later rows

instance : Lasting (Pairs A B) where
  mono later pairs := ⟨Lasting.mono later pairs.1, Lasting.mono later pairs.2⟩

instance : Lasting (fun W => c.Outcomes (A W)) where
  mono later outcomes := by
    cases outcomes with
    | ok related => exact .ok (Lasting.mono later related)
    | error failures => exact .error failures

end Lasting

theorem Options.mono {A : c.World → α → α' → Prop} [Lasting A] {W V : c.World}
    {option : Option α} {option' : Option α'} (later : W ≤ V)
    (options : Options A W option option') :
    Options A V option option' :=
  Lasting.mono later options

theorem Lists.mono {A : c.World → α → α' → Prop} [Lasting A] {W V : c.World} {list : List α}
    {list' : List α'} (later : W ≤ V) (lists : Lists A W list list') : Lists A V list list' :=
  Lasting.mono later lists

theorem Rows.mono {A : c.World → α → α' → Prop} [Lasting A] {W V : c.World} {row : Array α}
    {row' : Array α'} (later : W ≤ V) (rows : Rows A W row row') : Rows A V row row' :=
  Lasting.mono later rows

/-! ### Actions -/

/-- Two evaluations that have ended, the one as the other. -/
def Meets (c : Correspondence H K) (W : c.World) (A : c.World → α → α' → Prop)
    (ended : Outcome α × Memory H) (ended' : Outcome α' × Memory K) : Prop :=
  ∃ V, W ≤ V ∧ c.memories V ended.2 ended'.2 ∧ c.Outcomes (A V) ended.1 ended'.1

def Abandoned (c : Correspondence H K) (ended : Outcome α × Memory H) : Prop :=
  ∃ failure, ended.1 = .error failure ∧ c.abandons failure

/-- Two evaluations that have ended, the one as the other unless it was abandoned. -/
def Ends (c : Correspondence H K) (W : c.World) (A : c.World → α → α' → Prop)
    (ended : Outcome α × Memory H) (ended' : Outcome α' × Memory K) : Prop :=
  c.Abandoned ended ∨ c.Meets W A ended ended'

def Calls (c : Correspondence H K) (W : c.World) (calling : Call H) (calling' : Call K) : Prop :=
  (c.callable → ∀ ⦃V⦄, W ≤ V → ∀ ⦃function function' right right' left left'⦄,
    c.Functions V function function' → c.Values V right right' →
    Options c.Values V left left' → ∀ ⦃memory memory'⦄, c.memories V memory memory' →
      c.Ends V c.Values (calling function right left memory)
        (calling' function' right' left' memory')) ∧
    c.restricts calling calling'

def Actions (c : Correspondence H K) (W : c.World) (A : c.World → α → α' → Prop)
    (action : Action H α) (action' : Action K α') : Prop :=
  ∀ ⦃V⦄, W ≤ V → ∀ ⦃calling calling'⦄, c.Calls V calling calling' →
    ∀ ⦃memory memory'⦄, c.memories V memory memory' →
      c.Ends V A (action calling memory) (action' calling' memory')

/-- Actions that are never abandoned. -/
def Steadily (c : Correspondence H K) (W : c.World) (A : c.World → α → α' → Prop)
    (action : Action H α) (action' : Action K α') : Prop :=
  ∀ ⦃V⦄, W ≤ V → ∀ ⦃calling calling'⦄, c.Calls V calling calling' →
    ∀ ⦃memory memory'⦄, c.memories V memory memory' →
      c.Meets V A (action calling memory) (action' calling' memory')

theorem Calls.mono {W V : c.World} {calling : Call H} {calling' : Call K} (later : W ≤ V)
    (calls : c.Calls W calling calling') : c.Calls V calling calling' :=
  ⟨fun may _ after => calls.1 may (le_trans later after), calls.2⟩

theorem Actions.mono {W V : c.World} {A : c.World → α → α' → Prop} {action : Action H α}
    {action' : Action K α'} (later : W ≤ V) (actions : c.Actions W A action action') :
    c.Actions V A action action' :=
  fun _ after => actions (le_trans later after)

theorem Ends.back {W V : c.World} {A : c.World → α → α' → Prop} {ended : Outcome α × Memory H}
    {ended' : Outcome α' × Memory K} (later : W ≤ V) (ends : c.Ends V A ended ended') :
    c.Ends W A ended ended' := by
  refine ends.imp_right fun ⟨U, after, memories, outcomes⟩ => ?_
  exact ⟨U, le_trans later after, memories, outcomes⟩

/-- Where nothing is ever abandoned, evaluations end alike. -/
theorem Ends.meets {W : c.World} {A : c.World → α → α' → Prop} {ended : Outcome α × Memory H}
    {ended' : Outcome α' × Memory K} (ends : c.Ends W A ended ended')
    (never : ∀ failure, ¬c.abandons failure := by exact fun _ => id) :
    c.Meets W A ended ended' :=
  ends.resolve_left fun ⟨failure, _, abandons⟩ => never failure abandons

section Combining

variable {A : c.World → α → α' → Prop} {B : c.World → β → β' → Prop} {W : c.World}

theorem Actions.ofOutcome [Lasting A] {outcome : Outcome α} {outcome' : Outcome α'}
    (outcomes : c.Outcomes (A W) outcome outcome') :
    c.Actions W A (Action.ofOutcome outcome) (Action.ofOutcome outcome') :=
  fun V later _ _ _ _ _ memories =>
    .inr ⟨V, le_rfl, memories, Lasting.mono (A := fun W => c.Outcomes (A W)) later outcomes⟩

theorem Actions.lift [Lasting A] {outcome : Outcome α} {outcome' : Outcome α'}
    (outcomes : c.Outcomes (A W) outcome outcome') :
    c.Actions W A (liftM outcome : Action H α) (liftM outcome' : Action K α') :=
  Actions.ofOutcome outcomes

theorem Actions.pure [Lasting A] {result : α} {result' : α'} (related : A W result result') :
    c.Actions W A (Pure.pure result : Action H α) (Pure.pure result' : Action K α') :=
  Actions.ofOutcome (.ok related)

theorem Actions.bind {action : Action H α} {action' : Action K α'} {next : α → Action H β}
    {next' : α' → Action K β'} (first : c.Actions W A action action')
    (rest : ∀ {V}, W ≤ V → ∀ {result result'}, A V result result' →
      c.Actions V B (next result) (next' result')) :
    c.Actions W B (action >>= next) (action' >>= next') := by
  intro V later calling calling' calls memory memory' memories
  have ends := first later calls memories
  generalize one : action calling memory = ended at ends
  generalize two : action' calling' memory' = ended' at ends
  obtain ⟨outcome, stored⟩ := ended
  obtain ⟨outcome', stored'⟩ := ended'
  obtain ⟨failure, rfl, abandons⟩ | ⟨U, after, between, outcomes⟩ := ends
  · rw [Action.bind_of_error one]
    exact .inl ⟨failure, rfl, abandons⟩
  · cases outcomes with
    | ok related =>
        rw [Action.bind_of_ok one, Action.bind_of_ok two]
        exact (rest (le_trans later after) related le_rfl (calls.mono after) between).back after
    | error failures =>
        rw [Action.bind_of_error one, Action.bind_of_error two]
        exact .inr ⟨U, after, between, .error failures⟩

/-- The results may be judged by what is known in the end. -/
theorem Actions.imp_of_le {action : Action H α} {action' : Action K α'}
    {A B : c.World → α → α' → Prop} (actions : c.Actions W A action action')
    (weaken : ∀ {V result result'}, W ≤ V → A V result result' → B V result result') :
    c.Actions W B action action' := by
  intro V later calling calling' calls memory memory' memories
  refine (actions later calls memories).imp_right fun ⟨U, after, between, outcomes⟩ => ?_
  refine ⟨U, after, between, ?_⟩
  generalize (action calling memory).1 = outcome at outcomes
  generalize (action' calling' memory').1 = outcome' at outcomes
  cases outcomes with
  | ok related => exact .ok (weaken (le_trans later after) related)
  | error failures => exact .error failures

theorem Actions.imp {action : Action H α} {action' : Action K α'}
    {A B : c.World → α → α' → Prop} (actions : c.Actions W A action action')
    (weaken : ∀ {V result result'}, A V result result' → B V result result') :
    c.Actions W B action action' :=
  actions.imp_of_le fun _ => weaken

theorem Actions.fail {failure failure' : Failure} (failures : c.Failures failure failure') :
    c.Actions W A (throw failure : Action H α) (throw failure' : Action K α') :=
  fun V _ _ _ _ _ _ memories => .inr ⟨V, le_rfl, memories, .error failures⟩

theorem Failures.ofFault {fault fault' : Fault} (faults : c.faults fault fault') :
    c.Failures (.ofFault fault) (.ofFault fault') :=
  ⟨faults, rfl, c.spans_none⟩

theorem Actions.refuseAlike {fault fault' : Fault} (faults : c.faults fault fault') :
    c.Actions W A (Action.refuse fault : Action H α) (Action.refuse fault' : Action K α') :=
  fun V _ _ _ _ _ _ memories => .inr ⟨V, le_rfl, memories, .error (.ofFault faults)⟩

theorem Actions.refuse {fault : Fault} (inside : fault.isAddressing = false) :
    c.Actions W A (Action.refuse fault : Action H α) (Action.refuse fault : Action K α') :=
  Actions.refuseAlike (c.faults_refl fault inside)

theorem Actions.call (may : c.callable) {function function' : Function} {right right' : Value}
    {left left' : Option Value} (functions : c.Functions W function function')
    (rights : c.Values W right right') (lefts : Options c.Values W left left') :
    c.Actions W c.Values (Action.call function right left) (Action.call function' right' left') :=
  fun _ later _ _ calls _ _ memories =>
    calls.1 may le_rfl (functions.mono later) (rights.mono later) (lefts.mono later) memories

theorem Actions.make {form form' : Form} (forms : c.Forms W form form') :
    c.Actions W c.Functions (Action.make form) (Action.make form') := by
  intro V later calling calling' calls memory memory' memories
  obtain ⟨U, after, stamps, between⟩ := c.stamps_fresh memories
  exact .inr ⟨U, after, between, .ok (.mk stamps (forms.mono (le_trans later after)))⟩

theorem Failures.within {failure failure' : Failure} {span : Option Span} (known : c.spans span)
    (failures : c.Failures failure failure') :
    c.Failures (failure.within span) (failure'.within span) := by
  obtain ⟨fault, place⟩ := failure
  obtain ⟨fault', place'⟩ := failure'
  cases failures.span
  cases place with
  | none => exact ⟨failures.faults, rfl, known⟩
  | some _ => exact failures

theorem Outcomes.within {A : α → α' → Prop} {outcome : Outcome α} {outcome' : Outcome α'}
    {span : Option Span} (known : c.spans span) (outcomes : c.Outcomes A outcome outcome') :
    c.Outcomes A (Outcome.within span outcome) (Outcome.within span outcome') := by
  cases outcomes with
  | ok related => exact .ok related
  | error failures => exact .error (failures.within known)

theorem Actions.located {action : Action H α} {action' : Action K α'} (span : Option Span)
    (actions : c.Actions W A action action') (known : c.spans span := by exact trivial) :
    c.Actions W A (Action.located span action) (Action.located span action') := by
  intro V later calling calling' calls memory memory' memories
  obtain ⟨failure, failed, abandons⟩ | ⟨U, after, between, outcomes⟩ := actions later calls memories
  · refine .inl ⟨failure.within span, ?_, c.abandons_within span abandons⟩
    rw [Action.located, failed]
    rfl
  · exact .inr ⟨U, after, between, outcomes.within known⟩

theorem Steadily.attempt {action : Action H α} {action' : Action K α'}
    (actions : c.Steadily W A action action') :
    c.Actions W (fun V => c.Outcomes (A V)) (Action.attempt action) (Action.attempt action') := by
  intro V later calling calling' calls memory memory' memories
  obtain ⟨U, after, between, outcomes⟩ := actions later calls memories
  exact .inr ⟨U, after, between, .ok outcomes⟩

/-- Memories that correspond count the calls in progress alike. -/
class Counting (c : Correspondence H K) : Prop where
  depth {V : c.World} {memory : Memory H} {memory' : Memory K} :
    c.memories V memory memory' → memory.depth = memory'.depth
  redepth {V : c.World} {memory : Memory H} {memory' : Memory K} (change : Nat → Nat) :
    c.memories V memory memory' →
      c.memories V { memory with depth := change memory.depth }
        { memory' with depth := change memory'.depth }

theorem Actions.nested [Counting c] (limit : Nat) {action : Action H α} {action' : Action K α'}
    (actions : c.Actions W A action action') :
    c.Actions W A (Action.nested limit action) (Action.nested limit action') := by
  intro V later calling calling' calls memory memory' memories
  rw [Action.nested, Action.nested, ← Counting.depth memories]
  split
  · exact .inr ⟨V, le_rfl, memories, .error (.ofFault (c.faults_refl _ rfl))⟩
  · have deeper := Counting.redepth (· + 1) memories
    rw [← Counting.depth memories] at deeper
    refine (actions later calls deeper).imp_right fun ⟨U, after, between, outcomes⟩ => ?_
    exact ⟨U, after, Counting.redepth (· - 1) between, outcomes⟩

theorem Actions.rounds {step : (α → Action H β) → α → Action H β}
    {step' : (α' → Action K β') → α' → Action K β'} [Lasting A] (limit : Nat) {argument : α}
    {argument' : α'} (related : A W argument argument')
    (steps : ∀ {V} {next next'}, W ≤ V →
      (∀ {U}, V ≤ U → ∀ {argument argument'}, A U argument argument' →
        c.Actions U B (next argument) (next' argument')) →
      ∀ {argument argument'}, A V argument argument' →
        c.Actions V B (step next argument) (step' next' argument')) :
    c.Actions W B (Action.rounds step limit argument) (Action.rounds step' limit argument') := by
  induction limit generalizing W argument argument' with
  | zero => exact Actions.refuse rfl
  | succ remaining inductionHypothesis =>
      refine steps le_rfl ?_ related
      intro U later argument argument' related
      exact inductionHypothesis related fun {V} _ _ after => steps (le_trans later after)

end Combining

end Correspondence

end PointFree
