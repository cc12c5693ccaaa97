import PointFree.Proofs.Correspondence.Action

/-!
Contract: loops that go the same way.

The loops of the library run an action for each number below a bound, or for
each item of a list. When the actions of two loops correspond item by item, the
loops correspond.
-/

namespace PointFree.Correspondence

variable {H K : Type} {c : Correspondence H K} {α α' β β' : Type}
variable {A : c.World → α → α' → Prop} {B : c.World → β → β' → Prop} {W : c.World}

/-! ### Outcomes -/

theorem Outcomes.refuse {A : α → α' → Prop} {fault : Fault}
    (inside : fault.isAddressing = false) :
    c.Outcomes A (PointFree.refuse fault) (PointFree.refuse fault) :=
  .error (.ofFault (c.faults_refl fault inside))

theorem Outcomes.bind {A : α → α' → Prop} {B : β → β' → Prop} {outcome : Outcome α}
    {outcome' : Outcome α'} {next : α → Outcome β} {next' : α' → Outcome β'}
    (first : c.Outcomes A outcome outcome')
    (rest : ∀ {result result'}, A result result' → c.Outcomes B (next result) (next' result')) :
    c.Outcomes B (outcome >>= next) (outcome' >>= next') := by
  cases first with
  | ok related => exact rest related
  | error failures => exact .error failures

theorem Outcomes.map {A : α → α' → Prop} {B : β → β' → Prop} {outcome : Outcome α}
    {outcome' : Outcome α'} {change : α → β} {change' : α' → β'}
    (first : c.Outcomes A outcome outcome')
    (rest : ∀ {result result'}, A result result' → B (change result) (change' result')) :
    c.Outcomes B (outcome.map change) (outcome'.map change') := by
  cases first with
  | ok related => exact .ok (rest related)
  | error failures => exact .error failures

/-! ### Rows -/

theorem getElem?_of_forall₂ {related : α → α' → Prop} {list : List α} {list' : List α'}
    (lists : List.Forall₂ related list list') (index : Nat) :
    Option.Rel related list[index]? list'[index]? := by
  induction lists generalizing index with
  | nil => exact .none
  | cons first _ inductionHypothesis =>
      cases index with
      | zero => exact .some first
      | succ index => exact inductionHypothesis index

theorem exists_of_forall₂ {related : α → α' → Prop} {list : List α} {list' : List α'} {item : α}
    (lists : List.Forall₂ related list list') (member : item ∈ list) :
    ∃ item' ∈ list', related item item' := by
  induction lists with
  | nil => cases member
  | cons first _ inductionHypothesis =>
      cases member with
      | head => exact ⟨_, .head _, first⟩
      | tail _ later =>
          obtain ⟨item', member', related⟩ := inductionHypothesis later
          exact ⟨item', .tail _ member', related⟩

theorem set_of_forall₂ {related : α → α' → Prop} {list : List α} {list' : List α'}
    {item : α} {item' : α'} (lists : List.Forall₂ related list list') (index : Nat)
    (items : related item item') :
    List.Forall₂ related (list.set index item) (list'.set index item') := by
  induction lists generalizing index with
  | nil => exact .nil
  | cons first rest inductionHypothesis =>
      cases index with
      | zero => exact .cons items rest
      | succ index => exact .cons first (inductionHypothesis index)

theorem modify_of_forall₂ {related : α → α' → Prop} {list : List α} {list' : List α'}
    {change : α → α} {change' : α' → α'} (lists : List.Forall₂ related list list')
    (changes : ∀ {item item'}, related item item' → related (change item) (change' item'))
    (index : Nat) :
    List.Forall₂ related (list.modify index change) (list'.modify index change') := by
  induction lists generalizing index with
  | nil =>
      rw [List.modify_nil, List.modify_nil]
      exact .nil
  | cons first rest inductionHypothesis =>
      cases index with
      | zero => exact .cons (changes first) rest
      | succ index => exact .cons first (inductionHypothesis index)

theorem options_isNone_eq {related : α → α' → Prop} {option : Option α} {option' : Option α'}
    (options : Option.Rel related option option') : option.isNone = option'.isNone := by
  cases options with
  | none => rfl
  | some _ => rfl

theorem Rows.size_eq {row : Array α} {row' : Array α'} (rows : Rows A W row row') :
    row.size = row'.size :=
  List.Forall₂.length_eq rows

theorem Rows.nil : Rows A W (#[] : Array α) (#[] : Array α') :=
  List.Forall₂.nil

theorem Rows.push {row : Array α} {row' : Array α'} {item : α} {item' : α'}
    (rows : Rows A W row row') (related : A W item item') :
    Rows A W (row.push item) (row'.push item') := by
  rw [Rows, Lists, Array.toList_push, Array.toList_push]
  exact List.rel_append rows (.cons related .nil)

theorem Rows.append {first second : Array α} {first' second' : Array α'}
    (firsts : Rows A W first first') (seconds : Rows A W second second') :
    Rows A W (first ++ second) (first' ++ second') := by
  rw [Rows, Lists, Array.toList_append, Array.toList_append]
  exact List.rel_append firsts seconds

theorem Rows.replicate (count : Nat) {item : α} {item' : α'} (related : A W item item') :
    Rows A W (Array.replicate count item) (Array.replicate count item') := by
  rw [Rows, Lists, Array.toList_replicate, Array.toList_replicate]
  induction count with
  | zero => exact .nil
  | succ count inductionHypothesis => exact .cons related inductionHypothesis

theorem Rows.getElem? {row : Array α} {row' : Array α'} (rows : Rows A W row row') (index : Nat) :
    Options A W row[index]? row'[index]? := by
  rw [← Array.getElem?_toList, ← Array.getElem?_toList]
  exact getElem?_of_forall₂ rows index

theorem Rows.of_same {row row' : Array α} (rows : Rows c.Same W row row') : row = row' :=
  Array.toList_inj.1 (List.forall₂_eq_eq_eq ▸ rows)

theorem Lists.reverse {list : List α} {list' : List α'} (lists : Lists A W list list') :
    Lists A W list.reverse list'.reverse :=
  List.rel_reverse lists

/-! ### Loops over numbers -/

theorem Actions.collectFrom [Lasting A] {item : Nat → Action H α} {item' : Nat → Action K α'}
    (items : ∀ index, c.Actions W A (item index) (item' index)) (remaining index : Nat)
    {found : Array α} {found' : Array α'} (rows : Rows A W found found') :
    c.Actions W (Rows A) (collectFrom item remaining index found)
      (collectFrom item' remaining index found') := by
  induction remaining generalizing W index found found' with
  | zero => exact Actions.pure rows
  | succ remaining inductionHypothesis =>
      refine Actions.bind (items index) fun later _ _ related => ?_
      exact inductionHypothesis (fun place => (items place).mono later) (index + 1)
        ((rows.mono later).push related)

theorem Actions.collect [Lasting A] {item : Nat → Action H α} {item' : Nat → Action K α'}
    (items : ∀ index, c.Actions W A (item index) (item' index)) (count : Nat) :
    c.Actions W (Rows A) (PointFree.collect item count) (PointFree.collect item' count) :=
  Actions.collectFrom items count 0 .nil

theorem Actions.every {test : Nat → Action H Bool} {test' : Nat → Action K Bool}
    (tests : ∀ index, c.Actions W c.Same (test index) (test' index)) (count : Nat) :
    c.Actions W c.Same (PointFree.every test count) (PointFree.every test' count) := by
  suffices general : ∀ (remaining index : Nat),
      c.Actions W c.Same (everyFrom test remaining index) (everyFrom test' remaining index) from
    general count 0
  intro remaining
  induction remaining generalizing W with
  | zero => exact fun _ => Actions.pure rfl
  | succ remaining inductionHypothesis =>
      intro index
      refine Actions.bind (tests index) fun later passed passed' same => ?_
      cases same
      cases passed with
      | true => exact inductionHypothesis (fun place => (tests place).mono later) (index + 1)
      | false => exact Actions.pure rfl

/-- The same for a loop that may stop without a failure. -/
theorem Actions.collectOption [Lasting A] {item : Nat → OptionT (Action H) α}
    {item' : Nat → OptionT (Action K) α'}
    (items : ∀ index, c.Actions W (Options A) (item index).run (item' index).run) (count : Nat) :
    c.Actions W (Options (Rows A)) (PointFree.collect item count).run
      (PointFree.collect item' count).run := by
  suffices general : ∀ (remaining index : Nat) {found : Array α} {found' : Array α'},
      Rows A W found found' →
      c.Actions W (Options (Rows A)) (PointFree.collectFrom item remaining index found).run
        (PointFree.collectFrom item' remaining index found').run from
    general count 0 .nil
  intro remaining
  induction remaining generalizing W with
  | zero => exact fun _ _ _ rows => Actions.pure (.some rows)
  | succ remaining inductionHypothesis =>
      intro index found found' rows
      refine Actions.bind (items index) fun later result result' related => ?_
      cases related with
      | none => exact Actions.pure .none
      | some related =>
          exact inductionHypothesis (fun place => (items place).mono later) (index + 1)
            ((rows.mono later).push related)

/-! ### Loops over lists -/

theorem Actions.foldlM [Lasting A] [Lasting B] {step : β → α → Action H β}
    {step' : β' → α' → Action K β'}
    (steps : ∀ {V}, W ≤ V → ∀ {total total' item item'}, B V total total' → A V item item' →
      c.Actions V B (step total item) (step' total' item'))
    {list : List α} {list' : List α'} (lists : Lists A W list list') {start : β} {start' : β'}
    (starts : B W start start') :
    c.Actions W B (list.foldlM step start) (list'.foldlM step' start') := by
  suffices general : ∀ {V}, W ≤ V → ∀ {start start'}, B V start start' →
      c.Actions V B (list.foldlM step start) (list'.foldlM step' start') from
    general le_rfl starts
  induction lists with
  | nil => exact fun _ _ _ starts => Actions.pure starts
  | cons related _ inductionHypothesis =>
      intro V later start start' starts
      rw [List.foldlM_cons, List.foldlM_cons]
      refine Actions.bind (steps later starts (Lasting.mono later related)) ?_
      exact fun after _ _ totals => inductionHypothesis (le_trans later after) totals

theorem Actions.foldRow [Lasting A] [Lasting B] {step : β → α → Action H β}
    {step' : β' → α' → Action K β'}
    (steps : ∀ {V}, W ≤ V → ∀ {total total' item item'}, B V total total' → A V item item' →
      c.Actions V B (step total item) (step' total' item'))
    {row : Array α} {row' : Array α'} (rows : Rows A W row row') {start : β} {start' : β'}
    (starts : B W start start') :
    c.Actions W B (row.foldlM step start) (row'.foldlM step' start') := by
  rw [← Array.foldlM_toList, ← Array.foldlM_toList]
  exact Actions.foldlM steps rows starts

theorem Actions.mapM [Lasting A] [Lasting B] {change : α → Action H β}
    {change' : α' → Action K β'}
    (changes : ∀ {V}, W ≤ V → ∀ {item item'}, A V item item' →
      c.Actions V B (change item) (change' item'))
    {list : List α} {list' : List α'} (lists : Lists A W list list') :
    c.Actions W (Lists B) (list.mapM change) (list'.mapM change') := by
  suffices general : ∀ {V}, W ≤ V →
      c.Actions V (Lists B) (list.mapM change) (list'.mapM change') from general le_rfl
  induction lists with
  | nil => exact fun _ => Actions.pure .nil
  | cons related _ inductionHypothesis =>
      intro V later
      rw [List.mapM_cons, List.mapM_cons]
      refine Actions.bind (changes later (Lasting.mono later related)) fun after _ _ first => ?_
      refine Actions.bind (inductionHypothesis (le_trans later after)) fun after _ _ others => ?_
      exact Actions.pure (.cons (Lasting.mono after first) others)

end PointFree.Correspondence
