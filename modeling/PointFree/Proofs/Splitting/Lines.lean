import PointFree.Proofs.Splitting.Evaluation

/-!
Contract: one line after another against all at once.

A function is entered in a new environment, linked to the one in which its literal was met. What
its body does with the top level its line was known to do, so it is permitted.

The statements of a line are those that come next in the evaluation at once. Between two lines the
values that are carried on are those of the one top level, as far as they will be looked at, and
the environments of the lines that are over stay in step with it. A line that succeeds keeps this.
-/

namespace PointFree

open Correspondence

namespace Splitting

variable {lines : Nat → Block} {current : Nat} {W V : World} {line : Nat}

/-- What a function is known to do it is permitted to do. -/
theorem Permits.of_defer {usage : Usage} (permits : Permits lines current line usage.defer) :
    Permits lines current line usage where
  shared := permits.shared
  alone := permits.alone
  reached deferred := by
    have same : usage.defer = usage := by rw [Usage.defer, ← deferred]
    exact same ▸ permits.reached rfl

/-- Numbers of environments of one activation. -/
def Entered (names : List String) (outer : Chain) (W : (splitting lines current).World)
    (inner inner' : Nat) : Prop :=
  ∃ place, (World.chains W)[inner]? = some (.inner place names outer) ∧ inner' = place + 1

section Entering

variable {this this' : Function} {right right' : Value} {left left' : Option Value}
variable {names : List String} {outer : Chain} {index place : Nat}

/-- New environments hold the function and its arguments, and no variable has a value yet. -/
theorem Inners.entered {related : Value → Value → Prop}
    (functions : related (.function this) (.function this')) (rights : related right right')
    (lefts : Option.Rel related left left') (isChain : W.chains[index]? = some outer)
    (before : outer.place < place + 1) :
    Inners related W W.chains.length place names outer
      ⟨some (.function this), some right, left, names.map (·, none), some index⟩
      ⟨some (.function this'), some right', left', names.map (·, none), some outer.place⟩ where
  implicit variant := by
    cases variant with
    | this => exact .some functions
    | right => exact .some rights
    | left => exact lefts
  bindings := by
    refine List.forall₂_same.2 fun binding member => ⟨rfl, ?_⟩
    obtain ⟨name, _, rfl⟩ := List.mem_map.1 member
    exact .none
  named := by
    rw [Environment.names, List.map_map]
    exact List.map_id names
  parent := ⟨index, (List.getElem?_eq_some_iff.1 isChain).1, rfl, isChain⟩
  parent' := rfl
  before := before

theorem Actions.newEnvironment
    (functions : (splitting lines current).Functions W this this')
    (rights : (splitting lines current).Values W right right')
    (lefts : Options (splitting lines current).Values W left left')
    (isChain : W.chains[index]? = some outer) (names : List String) :
    (splitting lines current).Actions W (Entered names outer)
      (Lexical.newEnvironment
        ⟨some (.function this), some right, left, names.map (·, none), some index⟩)
      (Lexical.newEnvironment
        ⟨some (.function this'), some right', left', names.map (·, none), some outer.place⟩) := by
  intro V later calling calling' _ memory memory' memories
  have stores : Stores lines current (splitting lines current).Values V memory memory' := memories
  have isChain := getElem?_mono later.1 isChain
  obtain ⟨within, _, _, _, found', _⟩ := stores.environment isChain
  have inside : outer.place < memory'.heap.environments.size :=
    (Array.getElem?_eq_some_iff.1 found').1
  obtain ⟨place, counted⟩ := Nat.exists_eq_add_of_lt (Nat.zero_lt_of_lt inside)
  rw [Nat.zero_add] at counted
  have inners : Inners ((splitting lines current).Values V) V V.chains.length place names outer
      ⟨some (.function this), some right, left, names.map (·, none), some index⟩
      ⟨some (.function this'), some right', left', names.map (·, none), some outer.place⟩ :=
    .entered (.function (functions.mono later)) (rights.mono later) (lefts.mono later) isChain
      (counted ▸ inside)
  refine .inr ⟨_, World.le_withChain _, stores.withInner counted within inners, .ok ⟨place, ?_,
    counted⟩⟩
  show (V.chains ++ [Chain.inner place names outer])[memory.heap.environments.size]? = _
  rw [stores.environments, List.getElem?_concat_length]

/-- A literal of a function, and the same literal further on. -/
structure Remembered (chain : Chain) (W : (splitting lines current).World)
    (literal literal' : Literal) : Prop where
  shifted : Shifted literal literal'
  standard : literal.vocabulary = .standardFrom 0
  permitted : ∀ usage ∈ literal.body.usages chain.hidden, Permits lines current chain.line usage

end Entering

variable (independent : ∀ {earlier later}, earlier < later →
  (lines earlier).Independent (lines later))

include independent

/-- Functions of a literal find it again, on both sides. -/
theorem Partners.remembered {number environment number' environment' : Nat}
    (partners : Partners lines W number environment number' environment') :
    ∃ chain, W.chains[environment]? = some chain ∧ environment' = chain.place ∧
      (splitting lines current).Actions W (Remembered chain) (Lexical.literal number)
        (Lexical.literal number') := by
  obtain ⟨rfl, chain, literal, isChain, place, isLiteral, reaches⟩ := partners
  refine ⟨chain, isChain, place, ?_⟩
  intro V later calling calling' _ memory memory' memories
  have stores : Stores lines current (splitting lines current).Values V memory memory' := memories
  have isLiteral := getElem?_mono later.2.1 isLiteral
  obtain ⟨within, _⟩ := stores.environment (getElem?_mono later.1 isChain)
  have options := getElem?_of_forall₂ stores.shifted number
  rw [isLiteral, Array.getElem?_toList] at options
  generalize isLiteral' : memory'.heap.literals[number]? = found' at options
  cases options with
  | @some _ literal' shifted =>
      have found : memory.heap.literals[number]? = some literal := by
        rw [← Array.getElem?_toList, stores.literals, isLiteral]
      rw [Lexical.literal_of_getElem? found, Lexical.literal_of_getElem? isLiteral']
      refine .inr ⟨V, le_rfl, stores, .ok ⟨shifted, ?_, fun usage member => ?_⟩⟩
      · exact stores.vocabularies literal (List.mem_of_getElem? isLiteral)
      · exact (permits_of_reaches independent within (reaches usage member)).of_defer

/-- Functions are entered alike. -/
theorem enters : Enters (splitting lines current) := by
  intro W stamp stamp' number block environment number' block' environment' stamps partners V later
    right right' left left' rights lefts
  obtain ⟨chain, isChain, rfl, remembered⟩ :=
    Partners.remembered independent (partners.mono later)
  have functions : (splitting lines current).Functions V
      (.mk stamp (.block number block environment)) (.mk stamp' (.block number' block' chain.place)) :=
    .mk ((splitting lines current).stamps_mono later stamps) (.block (partners.mono later))
  rw [Lexical.enter_eq, Lexical.enter_eq]
  refine Actions.bind remembered fun {U} after literal literal' both => ?_
  obtain ⟨⟨offset, rfl⟩, standard, permitted⟩ := both
  refine Actions.nested _ ?_
  rw [Block.declares_shift]
  have isChain := getElem?_mono after.1 isChain
  refine Actions.bind (Actions.newEnvironment (functions.mono after) (rights.mono after)
    (lefts.mono after) isChain literal.body.declares) fun {T} next inner inner' entered => ?_
  obtain ⟨place, innerChain, rfl⟩ := entered
  have stands : Stands T chain.line chain.hidden (chain.hidden ++ literal.body.declares)
      ⟨inner, [], literal.vocabulary, literal.limit⟩
      ⟨place + 1, [], literal.vocabulary, literal.limit⟩ :=
    ⟨⟨_, innerChain, rfl, rfl, rfl, List.nil_subset _, rfl, (List.append_nil _).symm⟩, standard,
      standard, rfl⟩
  rw [Block.statements_shift]
  refine Statement.splitsAll offset stands innerChain literal.body.statements ?_ ?_
  · exact List.Subset.refl _
  · obtain ⟨⟨statements⟩, _, _⟩ := literal
    exact fun usage member => permitted usage member

end Splitting

/-! ### Statements in two parts -/

theorem Statement.evaluateAll_append {first rest : List Statement}
    (straight : ∀ statement ∈ first, statement.clause.IsPlain) (more : rest ≠ [])
    (standpoint : Standpoint) :
    Statement.evaluateAll standpoint (first ++ rest) = (do
      let _ ← Statement.evaluateAll standpoint first
      Statement.evaluateAll { standpoint with
        declared := standpoint.declared ++ first.flatMap fun statement =>
          statement.clause.declares } rest) := by
  induction first generalizing standpoint with
  | nil =>
      rw [List.flatMap_nil, List.append_nil]
      rfl
  | cons statement first inductionHypothesis =>
      obtain ⟨clause, span⟩ := statement
      obtain ⟨plain, straight⟩ := List.forall_mem_cons.1 straight
      have plain : clause.IsPlain := plain
      have later := inductionHypothesis straight (standpoint.after clause)
      rw [List.flatMap_cons, ← List.append_assoc]
      cases first with
      | nil =>
          cases rest with
          | nil => exact absurd rfl more
          | cons next rest =>
              rw [List.flatMap_nil, List.append_nil]
              exact Statement.evaluateAll_cons plain standpoint
      | cons next first =>
          rw [List.cons_append, List.cons_append, Statement.evaluateAll_cons plain,
            Statement.evaluateAll_cons plain, bind_assoc]
          exact congrArg _ (funext fun _ => later)

/-! ### The top level of a line -/

namespace Environment

/-- The environment of a program that is given bindings. -/
def opening (bindings : List (String × Value)) (names : List String) : Environment :=
  ⟨none, none, none,
    bindings.map (fun binding => (binding.1, some binding.2)) ++ names.map (·, none), none⟩

variable {bindings : List (String × Value)} {names : List String} {name : String} {value : Value}

theorem names_opening : (opening bindings names).names = bindings.map Prod.fst ++ names := by
  rw [Environment.names, opening, List.map_append, List.map_map, List.map_map]
  exact congrArg (_ ++ ·) (List.map_id names)

theorem mem_of_value?_opening (isSet : (opening bindings names).value? name = some value) :
    (name, value) ∈ bindings := by
  obtain ⟨content, found, rfl⟩ := Option.bind_eq_some_iff.1 isSet
  obtain ⟨before, after, same, _⟩ := List.lookup_eq_some_iff.1 found
  have member : (name, some value) ∈ (opening bindings names).bindings := same ▸ by simp
  rcases List.mem_append.1 member with given | declared
  · obtain ⟨binding, isGiven, same⟩ := List.mem_map.1 given
    cases same
    exact isGiven
  · obtain ⟨_, _, same⟩ := List.mem_map.1 declared
    cases same

theorem exists_value?_opening (names : List String) (given : name ∈ bindings.map Prod.fst) :
    ∃ value, (opening bindings names).value? name = some value := by
  have found : ((bindings.map fun binding => (binding.1, some binding.2)).lookup name).isSome := by
    obtain ⟨binding, isGiven, same⟩ := List.mem_map.1 given
    exact List.lookup_isSome_iff.2 ⟨_, List.mem_map_of_mem isGiven, beq_iff_eq.2 same.symm⟩
  obtain ⟨content, first⟩ := Option.isSome_iff_exists.1 found
  obtain ⟨before, after, same, _⟩ := List.lookup_eq_some_iff.1 first
  have member : (name, content) ∈ bindings.map fun binding => (binding.1, some binding.2) :=
    same ▸ by simp
  obtain ⟨binding, _, same⟩ := List.mem_map.1 member
  cases same
  refine ⟨binding.2, ?_⟩
  rw [value?, opening, List.lookup_append, first]
  rfl

end Environment

/-- What a line does that succeeds. -/
theorem Block.evaluate_eq_ok {block : Block} {vocabulary : Vocabulary} {limit environment : Nat}
    {bindings : List (String × Value)} {calling : Call Lexical} {memory after : Memory Lexical}
    {value : Value}
    (ended : block.evaluate vocabulary (bindings.map Prod.fst) limit
      (bindings.map Prod.snd).toArray calling memory = (.ok (value, environment), after)) :
    environment = memory.heap.environments.size ∧
      Statement.evaluateAll ⟨environment, bindings.map Prod.fst, vocabulary, limit⟩ block.statements
        calling { memory with heap.environments :=
          memory.heap.environments.push (.opening bindings block.declares) } = (.ok value, after) := by
  have counted : (bindings.map Prod.snd).toArray.size = (bindings.map Prod.fst).length := by
    rw [List.size_toArray, List.length_map, List.length_map]
  have given : (bindings.map Prod.fst).zip ((bindings.map Prod.snd).toArray.toList.map some) =
      bindings.map fun binding => (binding.1, some binding.2) := by
    rw [List.map_map, List.zip_map']
    rfl
  rw [evaluate, if_neg (not_not.2 counted), given] at ended
  obtain ⟨_, _, opened, ended⟩ := Action.bind_eq_ok.1 ended
  cases opened
  obtain ⟨_, _, evaluated, ended⟩ := Action.bind_eq_ok.1 ended
  cases ended
  exact ⟨rfl, evaluated⟩

/-! ### Between two lines -/

open Correspondence

/-- The names that are declared before a line, in order. -/
def declaredBefore (lines : Nat → Block) (next : Nat) : List String :=
  (List.range next).flatMap fun line => (lines line).declares

theorem declaredBefore_succ (lines : Nat → Block) (next : Nat) :
    declaredBefore lines (next + 1) = declaredBefore lines next ++ (lines next).declares := by
  rw [declaredBefore, List.range_succ, List.flatMap_append, List.flatMap_singleton]
  rfl

namespace Splitting

variable {lines : Nat → Block} {current next : Nat} {W : World}
variable {memory memory' after : Memory Lexical} {bindings : List (String × Value)}

/-- A line that is over has no more to be kept up to date than it had. -/
theorem Shares.of_succ {line : Nat} {name : String} (before : line ≤ current)
    (shares : Shares lines (current + 1) line name) : Shares lines current line name := by
  rw [Shares, if_neg (by omega)] at shares
  rw [Shares]
  split
  · next now =>
      obtain ⟨usage, reaches, same⟩ := shares
      exact ⟨line, now.ge, usage, (Block.mem_reaches.1 reaches).1, same⟩
  · exact shares

/-- Which line is the current one makes no difference to values. -/
theorem values_current (other : Nat) {value value' : Value}
    (values : (splitting lines current).Values W value value') :
    (splitting lines other).Values W value value' := by
  have carries : (splitting lines current).Carries (splitting lines other) W W :=
    ⟨id, id, id, id, id, id⟩
  exact values.carry carries

theorem Stores.succ
    (stores : Stores lines current (splitting lines current).Values W memory memory') :
    Stores lines (current + 1) (splitting lines (current + 1)).Values W memory memory' := by
  refine { stores with environment := fun {index chain} isChain => ?_ }
  obtain ⟨before, found, found', isFound, isFound', matched⟩ := stores.environment isChain
  refine ⟨Nat.le_succ_of_le before, found, found', isFound, isFound', ?_⟩
  have matched := matched.imp List.prefix_rfl fun values => values_current (current + 1) values
  cases chain with
  | inner => exact matched
  | top line names =>
      have tops : Tops _ _ _ _ _ := matched
      exact { tops with values := fun shares isSet => tops.values (shares.of_succ before) isSet }

/-- All lines before the next one are over. What they bind is carried on. -/
structure Ready (lines : Nat → Block) (next : Nat) (bindings : List (String × Value)) (W : World)
    (memory memory' : Memory Lexical) : Prop where
  stores : Stores lines next (splitting lines next).Values W memory memory'
  past : ∀ chain ∈ W.chains, chain.line < next
  names : bindings.map Prod.fst = declaredBefore lines next
  values {name : String} {value : Value} : (name, value) ∈ bindings →
    Shares lines next next name → ∃ value', memory'.heap.value? 0 name = some value' ∧
      (splitting lines next).Values W value value'

/-- Where a line begins the values of its top level are those of the one top level. -/
theorem Ready.tops (ready : Ready lines next bindings W memory memory') {environment' : Environment}
    (isFirst : memory'.heap.environments[0]? = some environment')
    (declared : ∀ line, (lines line).declares ⊆ environment'.names) :
    Tops (Shares lines next next) ((splitting lines next).Values W)
      (declaredBefore lines (next + 1)) (.opening bindings (lines next).declares) environment' where
  implicit variant := by cases variant <;> rfl
  parent := rfl
  named := by rw [Environment.names_opening, ready.names, declaredBefore_succ]
  declared := by
    intro name member
    obtain ⟨line, _, isDeclared⟩ := List.mem_flatMap.1 member
    exact declared line isDeclared
  values shares isSet := by
    obtain ⟨value', isSet', values⟩ := ready.values (Environment.mem_of_value?_opening isSet) shares
    exact ⟨value', (Lexical.value?_of_getElem? isFirst _).symm.trans isSet', values⟩

/-- The world of a line that begins. -/
def World.withLine (W : World) (next : Nat) (names bound : List String) : World :=
  (W.withChain (.top next names)).assign (bound.map (W.chains.length, ·))

theorem World.le_withLine (W : World) (next : Nat) (names bound : List String) :
    W ≤ W.withLine next names bound :=
  le_trans (World.le_withChain _) (World.le_assign _)

theorem Ready.opened (ready : Ready lines next bindings W memory memory') :
    Stores lines next (splitting lines next).Values
      (W.withLine next (declaredBefore lines (next + 1)) (bindings.map Prod.fst))
      { memory with heap.environments :=
          memory.heap.environments.push (.opening bindings (lines next).declares) } memory' := by
  obtain ⟨environment', isFirst, declared⟩ := ready.stores.begun
  refine (ready.stores.withTop ready.past isFirst (ready.tops isFirst declared)).assign ?_
  intro entry member
  obtain ⟨name, given, rfl⟩ := List.mem_map.1 member
  obtain ⟨value, isSet⟩ := Environment.exists_value?_opening (lines next).declares given
  refine ⟨value, ?_⟩
  rw [← ready.stores.environments, Lexical.value?, Array.getElem?_push_size, Option.bind_some, isSet]

/-- What a line leaves that has succeeded. -/
def carried (heap : Lexical) (environment : Nat) (names : List String) : List (String × Value) :=
  names.filterMap fun name => (heap.value? environment name).map (name, ·)

theorem map_fst_carried {heap : Lexical} {environment : Nat} {names : List String}
    (set : ∀ name ∈ names, ∃ value, heap.value? environment name = some value) :
    (carried heap environment names).map Prod.fst = names := by
  induction names with
  | nil => rfl
  | cons name names inductionHypothesis =>
      obtain ⟨⟨value, isSet⟩, rest⟩ := List.forall_mem_cons.1 set
      rw [carried, List.filterMap_cons, isSet]
      exact congrArg (name :: ·) (inductionHypothesis rest)

theorem mem_carried {heap : Lexical} {environment : Nat} {names : List String} {name : String}
    {value : Value} (member : (name, value) ∈ carried heap environment names) :
    heap.value? environment name = some value := by
  obtain ⟨word, _, found⟩ := List.mem_filterMap.1 member
  obtain ⟨content, isSet, same⟩ := Option.map_eq_some_iff.1 found
  cases same
  exact isSet

/-- A line is over when all that it declares has a value. -/
theorem Ready.succ {after' : Memory Lexical} {environment : Nat}
    (stores : Stores lines next (splitting lines next).Values W after after')
    (chain : W.chains[environment]? = some (.top next (declaredBefore lines (next + 1))))
    (set : ∀ name ∈ declaredBefore lines (next + 1), (environment, name) ∈ W.assigned) :
    Ready lines (next + 1) (carried after.heap environment (declaredBefore lines (next + 1))) W
      after after' where
  stores := stores.succ
  past other member := by
    obtain ⟨index, isChain⟩ := List.mem_iff_getElem?.1 member
    exact Nat.lt_succ_of_le (stores.environment isChain).1
  names := map_fst_carried fun name member => stores.assigned (set name member)
  values {name value} member shares := by
    obtain ⟨_, found, found', isFound, isFound', matched⟩ := stores.environment chain
    have isSet := mem_carried member
    rw [Lexical.value?_of_getElem? isFound] at isSet
    have shares : Shares lines next next name := by
      rw [Shares, if_pos rfl] at shares ⊢
      obtain ⟨later, after, mentions⟩ := shares
      exact ⟨later, Nat.le_of_succ_le after, mentions⟩
    obtain ⟨value', isSet', values⟩ := Tops.values matched shares isSet
    exact ⟨value', (Lexical.value?_of_getElem? isFound' name).trans isSet', values_current _ values⟩

/-- A line that succeeds does so in the evaluation at once, where it comes next. -/
theorem Ready.line
    (independent : ∀ {earlier later}, earlier < later →
      (lines earlier).Independent (lines later))
    (straight : (lines next).IsStraight) (ready : Ready lines next bindings W memory memory')
    {limit environment : Nat} {value : Value}
    (ended : ((lines next).evaluate (.standardFrom 0) (bindings.map Prod.fst) limit
      (bindings.map Prod.snd).toArray).perform memory = (.ok (value, environment), after))
    (offset : Nat) :
    ∃ V value' after', W ≤ V ∧
      (Statement.evaluateAll ⟨0, declaredBefore lines next, .standardFrom 0, limit⟩
        ((lines next).statements.map (Statement.shift offset))).perform memory' =
          (.ok value', after') ∧
      (splitting lines next).Values V value value' ∧
      Ready lines (next + 1)
        (carried after.heap environment (declaredBefore lines (next + 1))) V after after' := by
  obtain ⟨rfl, evaluated⟩ := Block.evaluate_eq_ok ended
  have opened := ready.opened
  have counted := ready.stores.environments
  generalize isOpened : W.withLine next (declaredBefore lines (next + 1))
    (bindings.map Prod.fst) = U at opened
  have later : W ≤ U := isOpened ▸ World.le_withLine ..
  have chain : U.chains[memory.heap.environments.size]? =
      some (.top next (declaredBefore lines (next + 1))) := by
    rw [counted, ← isOpened]
    exact List.getElem?_concat_length
  have stands : Stands U next [] []
      ⟨memory.heap.environments.size, bindings.map Prod.fst, .standardFrom 0, limit⟩
      ⟨0, declaredBefore lines next, .standardFrom 0, limit⟩ := by
    refine ⟨⟨_, chain, rfl, rfl, rfl, ?_, ?_, rfl⟩, rfl, rfl, rfl⟩
    · rw [ready.names, Chain.names, declaredBefore_succ]
      exact List.subset_append_left ..
    · rw [ready.names]
      exact List.Subset.refl _
  have counts : bindings.map Prod.fst ++ (lines next).declares ⊆ declaredBefore lines (next + 1) := by
    rw [ready.names, declaredBefore_succ]
    exact List.Subset.refl _
  have ends := Actions.perform (enters independent) (Statement.splitsTop offset stands chain
    (lines next).statements counts straight fun statement member usage mentions =>
      permits_of_mentions independent (Block.mem_mentions member mentions)) opened
  rw [Action.perform, evaluated] at ends
  obtain ⟨failure, failed, _⟩ | ⟨V, further, stores, outcomes⟩ := ends
  · cases failed
  rcases evaluated' : (Statement.evaluateAll ⟨0, declaredBefore lines next, .standardFrom 0, limit⟩
    ((lines next).statements.map (Statement.shift offset))).perform memory' with
      ⟨failure' | value', after'⟩
  · rw [evaluated'] at outcomes
    cases outcomes
  rw [evaluated'] at stores outcomes
  cases outcomes with
  | ok concludes =>
      refine ⟨V, value', after', le_trans later further, rfl, concludes.1, .succ stores
        (getElem?_mono further.1 chain) fun name member => ?_⟩
      rw [declaredBefore_succ] at member
      rcases List.mem_append.1 member with before | here
      · refine further.2.2 (isOpened ▸ List.mem_append_left _ (List.mem_map.2 ⟨name, ?_, ?_⟩))
        · exact ready.names ▸ before
        · rw [counted]
      · exact concludes.2 name here

end Splitting

end PointFree
