import PointFree.Proofs.Compilation.Placement
import PointFree.Proofs.Correspondence
import PointFree.Proofs.Meaning.Evaluation
import PointFree.Proofs.Spans.Roles

/-!
Contract: a program evaluated line by line and evaluated at once.

A line of a program reads, changes and defines variables of the top level. It does so
where it stands, or later, when a function is called whose literal stands in it. Names that
are declared in a literal, or in a literal around it, are not counted: they never mean a
variable of the top level.

Line by line, every line has an environment of its own, which begins with copies of what the
lines before it have left, and the functions of a line keep its environment. Evaluated at once,
there is one environment for all lines. The two make functions, literals and other environments in
step. A world records for each environment of the first evaluation where it belongs, the literals
met so far, and some variables that are known to have a value.

The copies of a variable are only kept in step with the one variable as long as somebody will look:
the current line or a later one mentions it, or a function of the line that has the copy may
read it.
-/

namespace PointFree

/-- A variable of the top level that is read or gets a value. -/
structure Usage where
  name : String
  updates : Bool
  /-- It happens when a function is called. -/
  deferred : Bool
deriving DecidableEq, Repr

namespace Usage

/-- The same usage in the body of a function. -/
def defer (usage : Usage) : Usage :=
  { usage with deferred := true }

/-- The names that are not hidden by variables of functions. -/
def visible (hidden : List String) (updates : Bool) (names : List String) : List Usage :=
  (names.filter (· ∉ hidden)).map (⟨·, updates, false⟩)

/-- Both are to one variable, and it gets a value. -/
def Conflicts (first second : Usage) : Prop :=
  first.name = second.name ∧ (first.updates = true ∨ second.updates = true)

instance (first second : Usage) : Decidable (first.Conflicts second) :=
  inferInstanceAs (Decidable (_ ∧ _))

theorem mem_visible {hidden names : List String} {updates : Bool} {name : String}
    (member : name ∈ names) (shown : name ∉ hidden) :
    ⟨name, updates, false⟩ ∈ visible hidden updates names :=
  List.mem_map_of_mem (List.mem_filter.2 ⟨member, decide_eq_true shown⟩)

end Usage

mutual

/-- What an expression reads and changes at the top level. Here some names are hidden, and
others in the literals inside. -/
def Expression.usages (hidden inside : List String) : Expression → List Usage
  | .name word => Usage.visible hidden false [word]
  | .list items => Expression.usagesOfAll hidden inside items
  | .call function right => right.usages hidden inside ++ function.usages hidden inside
  | .callBoth function left right =>
      right.usages hidden inside ++ function.usages hidden inside ++
        left.usages hidden inside
  | .modifyOne _ operand => operand.usages hidden inside
  | .modifyTwo _ left right => right.usages hidden inside ++ left.usages hidden inside
  | .atop left right => right.usages hidden inside ++ left.usages hidden inside
  | .fork left middle right =>
      right.usages hidden inside ++ middle.usages hidden inside ++
        left.usages hidden inside
  | .block body => (body.usages inside).map Usage.defer
  | _ => []
termination_by structural expression => expression

def Expression.usagesOfAll (hidden inside : List String) : List Expression → List Usage
  | [] => []
  | item :: items =>
      item.usages hidden inside ++ Expression.usagesOfAll hidden inside items
termination_by structural items => items

def Clause.usages (hidden inside : List String) : Clause → List Usage
  | .expression result => result.usages hidden inside
  | .define _ value => value.usages hidden inside
  | .assign target value =>
      value.usages hidden inside ++ Usage.visible hidden true target.names
  | .modify name function none =>
      function.usages hidden inside ++ Usage.visible hidden true [name]
  | .modify name function (some argument) =>
      argument.usages hidden inside ++ function.usages hidden inside ++
        Usage.visible hidden true [name]
  | .guard test fallback => test.usages hidden inside ++ fallback.usages hidden inside
termination_by structural clause => clause

def Statement.usages (hidden inside : List String) : Statement → List Usage
  | .mk clause _ => clause.usages hidden inside
termination_by structural statement => statement

/-- Of the names of a body only those hide others that have been declared before. -/
def Statement.usagesOfAll (hidden inside : List String) : List Statement → List Usage
  | [] => []
  | statement :: statements =>
      statement.usages hidden inside ++
        Statement.usagesOfAll (hidden ++ statement.clause.declares) inside statements
termination_by structural statements => statements

/-- What a function with this body reads and changes at the top level. -/
def Block.usages (hidden : List String) : Block → List Usage
  | .mk statements =>
      Statement.usagesOfAll hidden
        (hidden ++ statements.flatMap fun statement => statement.clause.declares) statements
termination_by structural block => block

end

/-- What a statement of the top level has to do with the top level, its own definitions
included. -/
def Statement.mentions (statement : Statement) : List Usage :=
  statement.clause.usages [] [] ++ statement.clause.declares.map (⟨·, true, false⟩)

/-- All that a program has to do with its top level. -/
def Block.mentions (block : Block) : List Usage :=
  block.statements.flatMap Statement.mentions

/-- What the functions of a program have to do with its top level. -/
def Block.reaches (block : Block) : List Usage :=
  block.mentions.filter Usage.deferred

/-- No variable that functions of the one have to do with gets a value from them or from the
other, if the other mentions it. -/
def Block.Independent (earlier later : Block) : Prop :=
  ∀ usage ∈ earlier.reaches, ∀ mention ∈ later.mentions, ¬usage.Conflicts mention

instance (earlier later : Block) : Decidable (earlier.Independent later) :=
  inferInstanceAs (Decidable (∀ usage ∈ earlier.reaches, ∀ mention ∈ later.mentions,
    ¬usage.Conflicts mention))

/-- No statement that may end its body early. -/
def Clause.IsPlain : Clause → Prop
  | .guard _ _ => False
  | _ => True

instance : (clause : Clause) → Decidable clause.IsPlain
  | .guard _ _ => inferInstanceAs (Decidable False)
  | .expression _ | .define _ _ | .assign _ _ | .modify _ _ _ => inferInstanceAs (Decidable True)

/-- A program without guards at its top level. -/
def Block.IsStraight (block : Block) : Prop :=
  ∀ statement ∈ block.statements, statement.clause.IsPlain

instance (block : Block) : Decidable block.IsStraight :=
  inferInstanceAs (Decidable (∀ statement ∈ block.statements, statement.clause.IsPlain))

theorem Block.mem_reaches {block : Block} {usage : Usage} :
    usage ∈ block.reaches ↔ usage ∈ block.mentions ∧ usage.deferred = true :=
  List.mem_filter

theorem Block.mem_mentions {block : Block} {statement : Statement} {usage : Usage}
    (member : statement ∈ block.statements) (mentions : usage ∈ statement.mentions) :
    usage ∈ block.mentions :=
  List.mem_flatMap.2 ⟨statement, member, mentions⟩

namespace Splitting

/-! ### Sharing variables -/

section Sharing

variable (lines : Nat → Block) (current : Nat)

/-- The copy of a variable that a line has must be up to date. -/
def Shares (line : Nat) (name : String) : Prop :=
  if line = current then
    ∃ later ≥ current, ∃ usage ∈ (lines later).mentions, usage.name = name
  else ∃ usage ∈ (lines line).reaches, usage.name = name

/-- What code of a line may do: it finds its own copy up to date and outdates no other. -/
structure Permits (line : Nat) (usage : Usage) : Prop where
  shared : Shares lines current line usage.name
  alone : usage.updates = true → ∀ other ≤ current, other ≠ line →
    ¬Shares lines current other usage.name
  reached : usage.deferred = true → usage ∈ (lines line).reaches

variable {lines current} {line : Nat} {usage : Usage}

theorem Shares.mentioned {name : String} (shares : Shares lines current line name) :
    ∃ later, (line = current → current ≤ later) ∧ (line ≠ current → later = line) ∧
      ∃ usage ∈ (lines later).mentions, usage.name = name := by
  rw [Shares] at shares
  split at shares
  · next same =>
      obtain ⟨later, after, mentions⟩ := shares
      exact ⟨later, fun _ => after, fun other => absurd same other, mentions⟩
  · next other =>
      obtain ⟨usage, reaches, same⟩ := shares
      exact ⟨line, fun same => absurd same other, fun _ => rfl, usage,
        (Block.mem_reaches.1 reaches).1, same⟩

variable (independent : ∀ {earlier later}, earlier < later →
  (lines earlier).Independent (lines later))

include independent

/-- The current line may do what it mentions. -/
theorem permits_of_mentions (mentions : usage ∈ (lines current).mentions) :
    Permits lines current current usage where
  shared := by
    rw [Shares, if_pos rfl]
    exact ⟨current, Nat.le_refl _, usage, mentions, rfl⟩
  alone updates other before apart shares := by
    rw [Shares, if_neg apart] at shares
    obtain ⟨reached, reaches, same⟩ := shares
    exact independent (Nat.lt_of_le_of_ne before apart) reached reaches usage mentions
      ⟨same, .inr updates⟩
  reached deferred := Block.mem_reaches.2 ⟨mentions, deferred⟩

/-- Functions may do what they do. -/
theorem permits_of_reaches (before : line ≤ current) (reaches : usage ∈ (lines line).reaches) :
    Permits lines current line usage := by
  by_cases now : line = current
  · subst now
    exact permits_of_mentions independent (Block.mem_reaches.1 reaches).1
  refine ⟨?_, fun updates other within apart shares => ?_, fun _ => reaches⟩
  · rw [Shares, if_neg now]
    exact ⟨usage, reaches, rfl⟩
  · have first := Nat.lt_of_le_of_ne before now
    rcases Nat.lt_or_gt_of_ne apart with earlier | later
    · rw [Shares, if_neg (by omega)] at shares
      obtain ⟨reached, others, same⟩ := shares
      exact independent earlier reached others usage (Block.mem_reaches.1 reaches).1
        ⟨same, .inr updates⟩
    · obtain ⟨further, since, here, mention, mentions, same⟩ := shares.mentioned
      have after : line < further := by
        by_cases isCurrent : other = current
        · exact Nat.lt_of_lt_of_le first (since isCurrent)
        · exact here isCurrent ▸ later
      exact independent after usage reaches mention mentions ⟨same.symm, .inl updates⟩

end Sharing

/-! ### Worlds -/

/-- What is known of an environment: the line it is the top level of, or the number of the
environment that stands for it, its names and where it is linked to. -/
inductive Chain where
  | top (line : Nat) (names : List String)
  | inner (place : Nat) (names : List String) (outer : Chain)

namespace Chain

def line : Chain → Nat
  | top line _ => line
  | inner _ _ outer => outer.line

/-- The number in the evaluation at once, where the top level comes first. -/
def place : Chain → Nat
  | top _ _ => 0
  | inner place _ _ => place + 1

def names : Chain → List String
  | top _ names => names
  | inner _ names _ => names

/-- The names that do not mean a variable of the top level. -/
def hidden : Chain → List String
  | top _ _ => []
  | inner _ names outer => outer.hidden ++ names

/-- What no two environments have in common. -/
def key : Chain → Nat ⊕ Nat
  | top line _ => .inl line
  | inner place _ _ => .inr place

end Chain

structure World where
  chains : List Chain
  literals : List Literal
  /-- Variables that have a value. -/
  assigned : List (Nat × String)

instance : Preorder World where
  le first second :=
    first.chains <+: second.chains ∧ first.literals <+: second.literals ∧
      first.assigned ⊆ second.assigned
  le_refl _ := ⟨List.prefix_rfl, List.prefix_rfl, List.Subset.refl _⟩
  le_trans _ _ _ first second :=
    ⟨first.1.trans second.1, first.2.1.trans second.2.1, List.Subset.trans first.2.2 second.2.2⟩

/-- Functions of one literal, which was met in environments that belong together. -/
structure Partners (lines : Nat → Block) (W : World) (number environment number' environment' : Nat) :
    Prop where
  same : number = number'
  known : ∃ chain literal, W.chains[environment]? = some chain ∧ environment' = chain.place ∧
    W.literals[number]? = some literal ∧
    ∀ usage ∈ literal.body.usages chain.hidden, usage.defer ∈ (lines chain.line).reaches

theorem Partners.mono {lines : Nat → Block} {W V : World}
    {number environment number' environment' : Nat} (later : W ≤ V)
    (partners : Partners lines W number environment number' environment') :
    Partners lines V number environment number' environment' := by
  obtain ⟨same, chain, literal, isChain, place, isLiteral, reaches⟩ := partners
  exact ⟨same, chain, literal, getElem?_mono later.1 isChain, place,
    getElem?_mono later.2.1 isLiteral, reaches⟩

/-! ### Memories -/

/-- The literal as it stands in the program at once. -/
def Shifted (literal literal' : Literal) : Prop :=
  ∃ offset, literal' = { literal with body := literal.body.shift offset }

/-- The top level of a line and the one top level. -/
structure Tops (shared : String → Prop) (related : Value → Value → Prop) (names : List String)
    (environment environment' : Environment) : Prop where
  implicit (variant : Implicit) : environment.implicit? variant = none
  parent : environment.parent = none
  named : environment.names = names
  declared : names ⊆ environment'.names
  values {name : String} {value : Value} : shared name → environment.value? name = some value →
    ∃ value', environment'.value? name = some value' ∧ related value value'

/-- Environments of one activation. -/
structure Inners (related : Value → Value → Prop) (W : World) (index place : Nat)
    (names : List String) (outer : Chain) (environment environment' : Environment) : Prop where
  implicit (variant : Implicit) :
    Option.Rel related (environment.implicit? variant) (environment'.implicit? variant)
  bindings : List.Forall₂ (fun binding binding' =>
    binding.1 = binding'.1 ∧ Option.Rel related binding.2 binding'.2)
    environment.bindings environment'.bindings
  named : environment.names = names
  parent : ∃ parent < index, environment.parent = some parent ∧ W.chains[parent]? = some outer
  parent' : environment'.parent = some outer.place
  before : outer.place < place + 1

def Matches (lines : Nat → Block) (current : Nat) (related : Value → Value → Prop) (W : World)
    (index : Nat) : Chain → Environment → Environment → Prop
  | .top line names => Tops (Shares lines current line) related names
  | .inner place names outer => Inners related W index place names outer

structure Stores (lines : Nat → Block) (current : Nat) (related : World → Value → Value → Prop)
    (W : World) (memory memory' : Memory Lexical) : Prop where
  stamps : memory.nextStamp = memory'.nextStamp
  depth : memory.depth = memory'.depth
  literals : memory.heap.literals.toList = W.literals
  shifted : List.Forall₂ Shifted W.literals memory'.heap.literals.toList
  vocabularies : ∀ literal ∈ W.literals, literal.vocabulary = .standardFrom 0
  environments : memory.heap.environments.size = W.chains.length
  begun : ∃ environment', memory'.heap.environments[0]? = some environment' ∧
    ∀ line, (lines line).declares ⊆ environment'.names
  apart : (W.chains.map Chain.key).Nodup
  environment {index : Nat} {chain : Chain} : W.chains[index]? = some chain →
    chain.line ≤ current ∧ ∃ environment environment',
      memory.heap.environments[index]? = some environment ∧
      memory'.heap.environments[chain.place]? = some environment' ∧
      Matches lines current (related W) W index chain environment environment'
  assigned {place : Nat} {name : String} : (place, name) ∈ W.assigned →
    ∃ value, memory.heap.value? place name = some value

end Splitting

open Splitting in
/-- The evaluation line by line against the evaluation at once, as long as the first one does not
fail. -/
def splitting (lines : Nat → Block) (current : Nat) : Correspondence Lexical Lexical where
  World := Splitting.World
  order := inferInstance
  stamps _ stamp stamp' := stamp = stamp'
  blocks W number _ environment number' _ environment' :=
    Partners lines W number environment number' environment'
  stores := Stores lines current
  texts _ _ := True
  faults fault fault' := fault.kind = fault'.kind
  pending := False
  abandons _ := True
  abandons_within _ _ := trivial
  abandons_settled _ := id
  spans_of_pending := False.elim
  stamps_mono _ same := same
  blocks_mono := Partners.mono
  stamps_unique first second := by rw [first, second]
  stores_fresh _ stores :=
    ⟨_, le_rfl, stores.stamps, { stores with stamps := congrArg (· + 1) stores.stamps }⟩
  texts_refl _ := trivial
  texts_append _ _ := trivial
  blocks_text _ := trivial
  faults_refl _ _ := rfl
  faults_noInverse _ := rfl
  faults_asserted _ := rfl
  faults_kind same := same

end PointFree
