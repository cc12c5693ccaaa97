import PointFree.Proofs.Likeness

/-!
Contract: actions whose end can be foretold.

An action settles when it ends as expected from every memory that is held to, and leaves such a
memory. What is expected is a failure, or something that the result fits. Expectations are put
together like the actions: a sequence of actions, and a loop over a list or over numbers, is
expected to fail where one of its steps is.

An action yields an outcome if it ends with it from every memory and leaves the memory as it is.
A collection of such actions is the collection of their outcomes. Two outcomes agree if both are
failures of one kind, or if both are results that are related; collections of outcomes that agree
agree, since the first failure stands at the same number in both.
-/

namespace PointFree

variable {H α α' β γ δ : Type}

/-- An outcome as it was expected: a failure where nothing was. -/
inductive Outcome.Fits (fits : β → α → Prop) : Outcome α → Option β → Prop where
  | ok {foretold : β} {result : α} :
      fits foretold result → Fits fits (.ok result) (some foretold)
  | error (failure : Failure) : Fits fits (.error failure) none

theorem Outcome.Fits.imp {fits weaker : β → α → Prop} {expected : Option β} {outcome : Outcome α}
    (agrees : outcome.Fits fits expected)
    (weaken : ∀ {foretold result}, fits foretold result → weaker foretold result) :
    outcome.Fits weaker expected := by
  cases agrees with
  | ok agrees => exact .ok (weaken agrees)
  | error failure => exact .error failure

namespace Action

/-- From every memory held to, the action ends as expected at such a memory. -/
def Settles (calling : Call H) (held : Memory H → Prop) (fits : β → α → Prop)
    (action : Action H α) (expected : Option β) : Prop :=
  ∀ memory, held memory →
    held (action calling memory).2 ∧ Outcome.Fits fits (action calling memory).1 expected

/-- From some memory held to, the action succeeds with the result. -/
def Reaches (calling : Call H) (held : Memory H → Prop) (action : Action H α) (result : α) : Prop :=
  ∃ memory after, held memory ∧ action calling memory = (.ok result, after)

variable {calling : Call H} {held : Memory H → Prop} {fits : β → α → Prop} {fits' : δ → γ → Prop}
variable {action : Action H α} {expected : Option β}

/-! ### How an action that settles ends -/

theorem Settles.ok {foretold : β} (settles : action.Settles calling held fits (some foretold))
    {memory : Memory H} (holds : held memory) : ∃ result after,
      action calling memory = (.ok result, after) ∧ held after ∧ fits foretold result := by
  obtain ⟨kept, outcome⟩ := settles memory holds
  rcases ended : action calling memory with ⟨failure | result, after⟩
  · rw [ended] at outcome
    cases outcome
  · rw [ended] at kept outcome
    cases outcome with
    | ok agrees => exact ⟨result, after, rfl, kept, agrees⟩

/-- A result that comes of an action that settles was foretold. -/
theorem Settles.of_ok (settles : action.Settles calling held fits expected)
    {memory after : Memory H} {result : α} (holds : held memory)
    (ended : action calling memory = (.ok result, after)) :
    ∃ foretold, expected = some foretold ∧ fits foretold result := by
  obtain ⟨_, outcome⟩ := settles memory holds
  rw [congrArg Prod.fst ended] at outcome
  cases outcome with
  | ok agrees => exact ⟨_, rfl, agrees⟩

/-- An action that settles succeeds where a result is foretold. -/
theorem Settles.succeeds_iff (settles : action.Settles calling held fits expected)
    {memory : Memory H} (holds : held memory) :
    (∃ result after, action calling memory = (.ok result, after)) ↔
      ∃ foretold, expected = some foretold := by
  constructor
  · rintro ⟨result, after, ended⟩
    obtain ⟨foretold, isForetold, _⟩ := settles.of_ok holds ended
    exact ⟨foretold, isForetold⟩
  · rintro ⟨foretold, rfl⟩
    obtain ⟨result, after, ended, _⟩ := settles.ok holds
    exact ⟨result, after, ended⟩

theorem Settles.imp {weaker : β → α → Prop} (settles : action.Settles calling held fits expected)
    (weaken : ∀ {foretold result}, fits foretold result → weaker foretold result) :
    action.Settles calling held weaker expected := by
  intro memory holds
  obtain ⟨kept, outcome⟩ := settles memory holds
  exact ⟨kept, outcome.imp weaken⟩

/-! ### Single actions -/

theorem settles_pure {foretold : β} {result : α} (agrees : fits foretold result) :
    (pure result : Action H α).Settles calling held fits (some foretold) :=
  fun _ holds => ⟨holds, .ok agrees⟩

theorem settles_error (failure : Failure) :
    (liftM (.error failure : Outcome α) : Action H α).Settles calling held fits none :=
  fun _ holds => ⟨holds, .error failure⟩

theorem settles_refuse (fault : Fault) :
    (refuse fault : Action H α).Settles calling held fits none :=
  fun _ holds => ⟨holds, .error _⟩

theorem settles_ofOutcome {outcome : Outcome α} (agrees : outcome.Fits fits expected) :
    (ofOutcome outcome : Action H α).Settles calling held fits expected :=
  fun _ holds => ⟨holds, agrees⟩

theorem Settles.attempt {foretold : β} (settles : action.Settles calling held fits (some foretold)) :
    (Action.attempt action).Settles calling held
      (fun foretold outcome => ∃ result, outcome = .ok result ∧ fits foretold result)
      (some foretold) := by
  intro memory holds
  obtain ⟨result, after, ended, kept, agrees⟩ := settles.ok holds
  rw [Action.attempt, ended]
  exact ⟨kept, .ok ⟨result, rfl, agrees⟩⟩

theorem Settles.bind {next : α → Action H γ} {rest : β → Option δ}
    (first : action.Settles calling held fits expected)
    (later : ∀ foretold result, expected = some foretold → fits foretold result →
      (next result).Settles calling held fits' (rest foretold)) :
    (action >>= next).Settles calling held fits' (expected.bind rest) := by
  intro memory holds
  obtain ⟨kept, outcome⟩ := first memory holds
  rcases ended : action calling memory with ⟨failure | result, after⟩
  · rw [ended] at kept outcome
    cases outcome
    rw [bind_of_error ended]
    exact ⟨kept, .error failure⟩
  · rw [ended] at kept outcome
    cases outcome with
    | ok agrees =>
        rw [bind_of_ok ended]
        exact later _ result rfl agrees after kept

/-- What follows an action that succeeds decides. -/
theorem Settles.bind_some {next : α → Action H γ} {rest : Option δ} {foretold : β}
    (first : action.Settles calling held fits (some foretold))
    (later : ∀ result, fits foretold result →
      (next result).Settles calling held fits' rest) :
    (action >>= next).Settles calling held fits' rest := by
  intro memory holds
  obtain ⟨result, after, ended, kept, agrees⟩ := first.ok holds
  rw [bind_of_ok ended]
  exact later result agrees after kept

theorem Settles.map {change : α → γ} {change' : β → δ}
    (settles : action.Settles calling held fits expected)
    (changes : ∀ {foretold result}, fits foretold result →
      fits' (change' foretold) (change result)) :
    (action >>= fun result => pure (change result)).Settles calling held fits'
      (expected.map change') := by
  rw [Option.map_eq_bind]
  exact settles.bind fun _ _ _ agrees => settles_pure (changes agrees)

/-! ### Loops -/

theorem Settles.mapM {change : α' → Action H α} {foretell : α' → Option β} {list : List α'}
    (changes : ∀ item ∈ list, (change item).Settles calling held fits (foretell item)) :
    (list.mapM change).Settles calling held (List.Forall₂ fits) (list.mapM foretell) := by
  induction list with
  | nil => exact settles_pure .nil
  | cons item list inductionHypothesis =>
      obtain ⟨here, later⟩ := List.forall_mem_cons.1 changes
      rw [List.mapM_cons, List.mapM_cons]
      refine here.bind fun foretold result _ agrees => ?_
      refine (inductionHypothesis later).bind fun others results _ agree => ?_
      exact settles_pure (.cons agrees agree)

theorem Settles.foldlM {step : γ → α → Action H γ} {step' : δ → β → Option δ}
    (steps : ∀ total total' item item', fits' total total' → fits item item' →
      (step total' item').Settles calling held fits' (step' total item))
    {items : List β} {list : List α} (agree : List.Forall₂ fits items list) {start : δ} {start' : γ}
    (starts : fits' start start') :
    (list.foldlM step start').Settles calling held fits' (items.foldlM step' start) := by
  induction agree generalizing start start' with
  | nil => exact settles_pure starts
  | cons agrees _ inductionHypothesis =>
      rw [List.foldlM_cons, List.foldlM_cons]
      exact (steps _ _ _ _ starts agrees).bind fun _ _ _ totals => inductionHypothesis totals

theorem Settles.collectFrom {item : Nat → Action H α} {foretold : List (Option β)} {index : Nat}
    (items : ∀ (place : Nat) (inside : place < foretold.length),
      (item (index + place)).Settles calling held fits foretold[place])
    {before : List β} {found : Array α} (starts : List.Forall₂ fits before found.toList) :
    (PointFree.collectFrom item foretold.length index found).Settles calling held
      (fun row results => List.Forall₂ fits row results.toList)
      ((foretold.mapM id).map (before ++ ·)) := by
  induction foretold generalizing index before found with
  | nil => exact settles_pure (by simpa using starts)
  | cons first foretold inductionHypothesis =>
      have parts : ((first :: foretold).mapM id).map (before ++ ·) =
          first.bind fun value => (foretold.mapM id).map ((before ++ [value]) ++ ·) := by
        rw [List.mapM_cons]
        cases first with
        | none => rfl
        | some value =>
            cases foretold.mapM id <;> simp
      have later (place : Nat) (inside : place < foretold.length) :
          (item (index + 1 + place)).Settles calling held fits foretold[place] := by
        rw [Nat.add_right_comm, Nat.add_assoc]
        exact items (place + 1) (Nat.succ_lt_succ inside)
      rw [parts]
      refine (items 0 (Nat.succ_pos _)).bind fun value result _ agrees => ?_
      refine inductionHypothesis later ?_
      rw [Array.toList_push]
      exact List.rel_append starts (.cons agrees .nil)

/-- A collection succeeds if all its items do. -/
theorem Settles.collect {item : Nat → Action H α} {foretold : List (Option β)}
    (items : ∀ (index : Nat) (inside : index < foretold.length),
      (item index).Settles calling held fits foretold[index]) :
    (PointFree.collect item foretold.length).Settles calling held
      (fun row results => List.Forall₂ fits row results.toList) (foretold.mapM id) := by
  have collected : (PointFree.collectFrom item foretold.length 0 #[]).Settles calling held
      (fun row results => List.Forall₂ fits row results.toList)
      ((foretold.mapM id).map (([] : List β) ++ ·)) := by
    refine Settles.collectFrom (fun place inside => ?_) .nil
    rw [Nat.zero_add]
    exact items place inside
  have whole : (foretold.mapM id).map (([] : List β) ++ ·) = foretold.mapM id := by
    cases foretold.mapM id <;> rfl
  rwa [whole] at collected

/-- A test that every index passes is passed. -/
theorem Settles.everyFrom {test : Nat → Action H Bool} {remaining index : Nat}
    (passes : ∀ place, index ≤ place → place < index + remaining →
      (test place).Settles calling held Eq (some true)) :
    (PointFree.everyFrom test remaining index).Settles calling held Eq (some true) := by
  induction remaining generalizing index with
  | zero => exact settles_pure rfl
  | succ remaining inductionHypothesis =>
      refine (passes index (Nat.le_refl _) (by omega)).bind_some fun passed isPassed => ?_
      cases isPassed
      exact inductionHypothesis fun place above below => passes place (by omega) (by omega)

theorem mapM_eq_some {foretell : α → Option β} {list : List α} {row : List β} :
    list.mapM foretell = some row ↔
      List.Forall₂ (fun item value => foretell item = some value) list row := by
  induction list generalizing row with
  | nil =>
      rw [List.forall₂_nil_left_iff]
      exact Option.some_inj.trans eq_comm
  | cons item list inductionHypothesis =>
      rw [List.mapM_cons, List.forall₂_cons_left_iff, Option.bind_eq_bind, Option.bind_eq_some_iff]
      simp only [Option.bind_eq_bind, Option.bind_eq_some_iff, inductionHypothesis]
      constructor
      · rintro ⟨value, here, values, later, same⟩
        exact ⟨value, values, here, later, (Option.some.inj same).symm⟩
      · rintro ⟨value, values, here, later, rfl⟩
        exact ⟨value, here, values, later, rfl⟩

/-- Something is expected at every place of a list. -/
theorem mapM_id_eq_some {foretold : List (Option β)} {row : List β} :
    foretold.mapM id = some row ↔ foretold = row.map some := by
  rw [mapM_eq_some, ← List.forall₂_eq_eq_eq, List.forall₂_map_right_iff]
  rfl

/-- A collection settles where all its items do. -/
theorem Settles.collect_range {item : Nat → Action H α} {value : Nat → β} {count : Nat}
    (items : ∀ index < count, (item index).Settles calling held fits (some (value index))) :
    (PointFree.collect item count).Settles calling held
      (fun row results => List.Forall₂ fits row results.toList)
      (some ((List.range count).map value)) := by
  have foretold : ((List.range count).map (some ∘ value)).mapM id =
      some ((List.range count).map value) := by
    rw [mapM_id_eq_some, List.map_map]
  have length : ((List.range count).map (some ∘ value)).length = count := by simp
  have settles : (PointFree.collect item
      ((List.range count).map (some ∘ value)).length).Settles calling held
      (fun row results => List.Forall₂ fits row results.toList)
      (((List.range count).map (some ∘ value)).mapM id) := by
    refine Settles.collect fun index inside => ?_
    rw [List.getElem_map, List.getElem_range]
    exact items index (length ▸ inside)
  rwa [length, foretold] at settles

/-! ### Loops that succeed -/

section Succeeding

variable {item : Nat → Action H α} {memory after : Memory H}

/-- The items of a collection that succeeds have succeeded one after the other, all of them from a
memory held to. -/
theorem reaches_of_collectFrom {remaining index : Nat} {found all : Array α}
    (keeps : ∀ place, index ≤ place → place < index + remaining → ∀ memory value after,
      held memory → item place calling memory = (.ok value, after) → held after)
    (holds : held memory)
    (ended : collectFrom item remaining index found calling memory = (.ok all, after)) :
    held after ∧ ∃ more : List α, more.length = remaining ∧ all.toList = found.toList ++ more ∧
      ∀ (place : Nat) (inside : place < more.length),
        (item (index + place)).Reaches calling held more[place] := by
  induction remaining generalizing index found memory with
  | zero =>
      cases ended
      exact ⟨holds, [], rfl, by simp, nofun⟩
  | succ remaining inductionHypothesis =>
      obtain ⟨value, between, first, ended⟩ := bind_eq_ok.1 ended
      have kept := keeps index (Nat.le_refl _) (by omega) memory value between holds first
      obtain ⟨kept, more, length, same, items⟩ := inductionHypothesis
        (fun place above below => keeps place (by omega) (by omega)) kept ended
      refine ⟨kept, value :: more, by simp [length], by simp [same], ?_⟩
      rintro (_ | place) inside
      · exact ⟨memory, between, holds, first⟩
      · rw [← Nat.add_assoc, Nat.add_right_comm]
        exact items place (Nat.lt_of_succ_lt_succ inside)

theorem reaches_of_collect {count : Nat} {all : Array α}
    (keeps : ∀ index < count, ∀ memory value after,
      held memory → item index calling memory = (.ok value, after) → held after)
    (holds : held memory) (ended : collect item count calling memory = (.ok all, after)) :
    held after ∧ all.size = count ∧
      ∀ (index : Nat) (inside : index < all.size), (item index).Reaches calling held all[index] := by
  obtain ⟨kept, more, length, same, items⟩ :=
    reaches_of_collectFrom (fun place _ below => keeps place (by omega)) holds ended
  obtain rfl : all = more.toArray := Array.toList_inj.1 (by simpa using same)
  refine ⟨kept, by simpa using length, fun index inside => ?_⟩
  have reaches := items index (by simpa using inside)
  rwa [Nat.zero_add] at reaches

end Succeeding

end Action

/-! ### Actions that end in one way, and outcomes that agree -/

section Steady

variable {calling : Call H}

namespace Action

/-- The action ends with this outcome from every memory, and does nothing else. -/
def Yields (calling : Call H) (action : Action H α) (outcome : Outcome α) : Prop :=
  ∀ memory, action calling memory = (outcome, memory)

theorem yields_ofOutcome (outcome : Outcome α) :
    (ofOutcome outcome : Action H α).Yields calling outcome :=
  fun _ => rfl

theorem Yields.bind {action : Action H α} {next : α → Action H β} {outcome : Outcome α}
    {rest : α → Outcome β} (first : action.Yields calling outcome)
    (second : ∀ result, outcome = .ok result → (next result).Yields calling (rest result)) :
    (action >>= next).Yields calling (outcome.bind rest) := by
  intro memory
  cases outcome with
  | error failure => exact bind_of_error (first memory)
  | ok result =>
      rw [bind_of_ok (first memory)]
      exact second result rfl memory

/-- An action yields one outcome at most. -/
theorem Yields.unique [Inhabited (Memory H)] {action : Action H α} {outcome outcome' : Outcome α}
    (yields : action.Yields calling outcome) (yields' : action.Yields calling outcome') :
    outcome = outcome' :=
  congrArg Prod.fst ((yields default).symm.trans (yields' default))

theorem Yields.collectFrom {item : Nat → Action H α} {outcome : Nat → Outcome α}
    {remaining index : Nat} (items : ∀ place, index ≤ place → place < index + remaining →
      (item place).Yields calling (outcome place)) (found : Array α) :
    (PointFree.collectFrom item remaining index found).Yields calling
      (PointFree.collectFrom outcome remaining index found) := by
  induction remaining generalizing index found with
  | zero => exact fun _ => rfl
  | succ remaining inductionHypothesis =>
      refine (items index (Nat.le_refl _) (by omega)).bind fun value _ => ?_
      exact inductionHypothesis (fun place above below => items place (by omega) (by omega)) _

theorem Yields.collect {item : Nat → Action H α} {outcome : Nat → Outcome α} {count : Nat}
    (items : ∀ index < count, (item index).Yields calling (outcome index)) :
    (PointFree.collect item count).Yields calling (PointFree.collect outcome count) :=
  Yields.collectFrom (fun place _ below => items place (by omega)) _

end Action

namespace Outcome

open Likeness (Rows)

/-- Both are results that are related, or both are failures of one kind. -/
inductive Agrees (related : α → β → Prop) : Outcome α → Outcome β → Prop where
  | ok {result : α} {result' : β} :
      related result result' → Agrees related (.ok result) (.ok result')
  | error {failure failure' : Failure} :
      failure.kind = failure'.kind → Agrees related (.error failure) (.error failure')

variable {related : α → β → Prop}

theorem Agrees.mono {related' : α → β → Prop} {outcome : Outcome α} {outcome' : Outcome β}
    (agrees : outcome.Agrees related outcome')
    (implies : ∀ {result result'}, related result result' → related' result result') :
    outcome.Agrees related' outcome' := by
  cases agrees with
  | ok results => exact .ok (implies results)
  | error kinds => exact .error kinds

theorem Agrees.bind {δ : Type} {relatedNext : γ → δ → Prop} {outcome : Outcome α}
    {outcome' : Outcome β} {next : α → Outcome γ} {next' : β → Outcome δ}
    (agrees : outcome.Agrees related outcome')
    (rest : ∀ result result', outcome = .ok result → outcome' = .ok result' →
      related result result' → Agrees relatedNext (next result) (next' result')) :
    Agrees relatedNext (outcome.bind next) (outcome'.bind next') := by
  cases agrees with
  | ok results => exact rest _ _ rfl rfl results
  | error kinds => exact .error kinds

theorem Agrees.collectFrom {item : Nat → Outcome α} {item' : Nat → Outcome β}
    {remaining index : Nat} (items : ∀ place, index ≤ place → place < index + remaining →
      (item place).Agrees related (item' place))
    {found : Array α} {found' : Array β} (rows : Rows related found found') :
    Agrees (Rows related) (PointFree.collectFrom item remaining index found)
      (PointFree.collectFrom item' remaining index found') := by
  induction remaining generalizing index found found' with
  | zero => exact .ok rows
  | succ remaining inductionHypothesis =>
      refine (items index (Nat.le_refl _) (by omega)).bind fun value value' _ _ same => ?_
      exact inductionHypothesis (fun place above below => items place (by omega) (by omega))
        (rows.push same)

theorem Agrees.collect {item : Nat → Outcome α} {item' : Nat → Outcome β} {count : Nat}
    (items : ∀ index < count, (item index).Agrees related (item' index)) :
    Agrees (Rows related) (PointFree.collect item count) (PointFree.collect item' count) :=
  Agrees.collectFrom (fun place _ below => items place (by omega)) Rows.nil

end Outcome

end Steady

end PointFree
