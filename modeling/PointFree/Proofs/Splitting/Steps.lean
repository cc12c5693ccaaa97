import PointFree.Proofs.Correspondence.Function
import PointFree.Proofs.Meaning.Variables
import PointFree.Proofs.Splitting.World

/-!
Contract: steps of the two evaluations.

A name leads outward to environments that belong together. If these are those of an activation,
they hold the same. If they are top levels, the copy of the line is up to date for what the
line is permitted to read, and what the line is permitted to change outdates no other copy.

Reading and changing variables, entering environments and meeting literals keep the memories of
the evaluation line by line and of the evaluation at once in correspondence.
-/

namespace PointFree

/-! ### Environments -/

namespace Environment

variable {environment environment' : Environment}

theorem value?_bind_self {name : String} (declared : name ∈ environment.names) (value : Value) :
    (environment.bind name value).value? name = some value := by
  obtain ⟨_, _, _, bindings, _⟩ := environment
  simp only [value?, bind, names] at declared ⊢
  induction bindings with
  | nil => cases declared
  | cons first rest inductionHypothesis =>
      rw [List.map_cons, List.lookup_cons]
      by_cases here : first.1 = name
      · simp [here]
      · have different : (name == first.1) = false := beq_eq_false_iff_ne.2 (Ne.symm here)
        have later := (List.mem_cons.1 declared).resolve_left (Ne.symm here)
        simpa [here, different] using inductionHypothesis later

theorem value?_bind_other {name other : String} (different : other ≠ name) (value : Value) :
    (environment.bind name value).value? other = environment.value? other := by
  obtain ⟨_, _, _, bindings, _⟩ := environment
  simp only [value?, bind]
  induction bindings with
  | nil => rfl
  | cons first rest inductionHypothesis =>
      rw [List.map_cons, List.lookup_cons, List.lookup_cons]
      by_cases here : first.1 = name
      · have apart : (other == name) = false := beq_eq_false_iff_ne.2 different
        have apart' : (other == first.1) = false := here ▸ apart
        simpa [here, apart] using inductionHypothesis
      · rw [if_neg here]
        split
        · rfl
        · exact inductionHypothesis

theorem implicit?_bind (name : String) (value : Value) (variant : Implicit) :
    (environment.bind name value).implicit? variant = environment.implicit? variant := by
  cases variant <;> rfl

theorem mem_names_of_value? {name : String} {value : Value}
    (isSet : environment.value? name = some value) : name ∈ environment.names := by
  obtain ⟨content, found, _⟩ := Option.bind_eq_some_iff.1 isSet
  by_contra missing
  have absent : environment.bindings.lookup name = none := by
    refine List.lookup_eq_none_iff.2 fun binding member => bne_iff_ne.2 fun same => missing ?_
    exact same ▸ List.mem_map_of_mem member
  cases absent.symm.trans found

/-- The same names with related values. -/
theorem value?_of_forall₂ {related : Value → Value → Prop}
    (bindings : List.Forall₂ (fun binding binding' =>
      binding.1 = binding'.1 ∧ Option.Rel related binding.2 binding'.2)
      environment.bindings environment'.bindings) (name : String) :
    Option.Rel related (environment.value? name) (environment'.value? name) := by
  rw [value?, value?]
  generalize environment.bindings = known at bindings
  generalize environment'.bindings = known' at bindings
  induction bindings with
  | nil => exact .none
  | @cons binding binding' _ _ first _ inductionHypothesis =>
      rw [List.lookup_cons, List.lookup_cons, first.1]
      split
      · rw [Option.join_some, Option.join_some]
        exact first.2
      · exact inductionHypothesis

theorem names_of_forall₂ {related : Value → Value → Prop}
    (bindings : List.Forall₂ (fun binding binding' =>
      binding.1 = binding'.1 ∧ Option.Rel related binding.2 binding'.2)
      environment.bindings environment'.bindings) : environment'.names = environment.names := by
  rw [names, names]
  generalize environment.bindings = known at bindings
  generalize environment'.bindings = known' at bindings
  induction bindings with
  | nil => rfl
  | cons first _ inductionHypothesis =>
      rw [List.map_cons, List.map_cons, first.1, inductionHypothesis]

end Environment

namespace Lexical

theorem environments_bind (heap : Lexical) (place : Nat) (name : String) (value : Value)
    (index : Nat) :
    (heap.bind place name value).environments[index]? =
      if place = index then heap.environments[index]?.map fun found => found.bind name value
      else heap.environments[index]? :=
  Array.getElem?_modify

theorem value?_of_getElem? {heap : Lexical} {place : Nat} {environment : Environment}
    (found : heap.environments[place]? = some environment) (name : String) :
    heap.value? place name = environment.value? name := by
  rw [value?, found, Option.bind_some]

/-- What has a value has one after a variable has been changed. -/
theorem exists_value?_bind {heap : Lexical} {place : Nat} {name : String} {value : Value}
    (isSet : heap.value? place name = some value) (owner : Nat) (word : String) (new : Value) :
    ∃ later, (heap.bind owner word new).value? place name = some later := by
  obtain ⟨environment, found, content⟩ := Option.bind_eq_some_iff.1 isSet
  have here := heap.environments_bind owner word new place
  rw [found] at here
  by_cases isOwner : owner = place
  · rw [if_pos isOwner, Option.map_some] at here
    rw [value?_of_getElem? here]
    by_cases same : name = word
    · subst same
      exact ⟨new, Environment.value?_bind_self (Environment.mem_names_of_value? content) new⟩
    · exact ⟨value, (Environment.value?_bind_other same new).trans content⟩
  · rw [if_neg isOwner] at here
    exact ⟨value, (value?_of_getElem? here name).trans content⟩

end Lexical

namespace Splitting

variable {lines : Nat → Block} {current : Nat} {W V : World} {line : Nat} {name : String}
variable {hidden inside : List String} {memory memory' : Memory Lexical}
variable {related : World → Value → Value → Prop}

/-! ### Where names lead -/

/-- Environments that belong together and in which a name is declared. If they are top levels,
no variable of a function hides the name. -/
structure Owner (W : World) (line : Nat) (hidden : List String) (name : String)
    (owner owner' : Nat) : Prop where
  known : ∃ chain, W.chains[owner]? = some chain ∧ owner' = chain.place ∧ chain.line = line ∧
    name ∈ chain.names ∧ ∀ line names, chain = .top line names → name ∉ hidden

theorem Stores.owner (stores : Stores lines current related W memory memory') {chain : Chain}
    {index owner : Nat} (isChain : W.chains[index]? = some chain)
    (isOwner : memory.heap.owner? name index = some owner) :
    ∃ owner', memory'.heap.owner? name chain.place = some owner' ∧
      Owner W chain.line chain.hidden name owner owner' := by
  induction chain generalizing index with
  | top line names =>
      obtain ⟨_, environment, environment', found, found', tops⟩ := stores.environment isChain
      rw [Lexical.owner?, found] at isOwner
      dsimp only at isOwner
      rw [tops.named] at isOwner
      split at isOwner
      · next declared =>
          cases isOwner
          refine ⟨0, ?_, .top line names, isChain, rfl, rfl, declared,
            fun _ _ _ => List.not_mem_nil⟩
          rw [Lexical.owner?, found']
          exact if_pos (tops.declared declared)
      · rw [tops.parent] at isOwner
        cases isOwner
  | inner place names outer inductionHypothesis =>
      obtain ⟨_, environment, environment', found, found', inners⟩ := stores.environment isChain
      have named : environment'.names = names :=
        (Environment.names_of_forall₂ inners.bindings).trans inners.named
      rw [Lexical.owner?, found] at isOwner
      rw [Lexical.owner?, found']
      dsimp only at isOwner ⊢
      rw [inners.named] at isOwner
      rw [named]
      split at isOwner
      · next declared =>
          cases isOwner
          rw [if_pos declared]
          refine ⟨_, rfl, .inner place names outer, isChain, rfl, rfl, declared, ?_⟩
          intro _ _ isTop
          cases isTop
      · next missing =>
          obtain ⟨parent, before, isParent, parentChain⟩ := inners.parent
          rw [isParent] at isOwner
          dsimp only at isOwner
          rw [if_pos before] at isOwner
          rw [if_neg missing, inners.parent']
          dsimp only
          rw [Chain.place, if_pos inners.before]
          obtain ⟨owner', owns, further, isFurther, place', onLine, declared, shown⟩ :=
            inductionHypothesis parentChain isOwner
          refine ⟨owner', owns, further, isFurther, place', onLine, declared, ?_⟩
          intro line names isTop member
          exact (List.mem_append.1 member).elim (shown line names isTop) missing

/-- What has been declared where code stands, and what is hidden there. -/
def Chain.Here : Chain → (declared declared' hidden : List String) → Prop
  | .top _ _, declared, declared', hidden => declared ⊆ declared' ∧ hidden = []
  | .inner _ _ outer, declared, declared', hidden =>
      declared' = declared ∧ hidden = outer.hidden ++ declared

/-- Standpoints of code of a line. -/
structure Stands (W : World) (line : Nat) (hidden inside : List String)
    (standpoint standpoint' : Standpoint) : Prop where
  known : ∃ chain, W.chains[standpoint.environment]? = some chain ∧
    standpoint'.environment = chain.place ∧ chain.line = line ∧ chain.hidden = inside ∧
    standpoint.declared ⊆ chain.names ∧
    chain.Here standpoint.declared standpoint'.declared hidden
  vocabulary : standpoint.vocabulary = .standardFrom 0
  vocabulary' : standpoint'.vocabulary = .standardFrom 0
  limit : standpoint'.limit = standpoint.limit

theorem Stands.mono {standpoint standpoint' : Standpoint} (later : W ≤ V)
    (stands : Stands W line hidden inside standpoint standpoint') :
    Stands V line hidden inside standpoint standpoint' := by
  obtain ⟨chain, isChain, known⟩ := stands.known
  exact { stands with known := ⟨chain, getElem?_mono later.1 isChain, known⟩ }

theorem Stores.visible (stores : Stores lines current related W memory memory')
    {standpoint standpoint' : Standpoint}
    (stands : Stands W line hidden inside standpoint standpoint') {owner : Nat}
    (isOwner : memory.heap.visible? standpoint.declared standpoint.environment name = some owner) :
    ∃ owner',
      memory'.heap.visible? standpoint'.declared standpoint'.environment name = some owner' ∧
      Owner W line hidden name owner owner' ∧
      (name ∈ standpoint.declared → owner = standpoint.environment) := by
  obtain ⟨environment, declared, _, _⟩ := standpoint
  obtain ⟨environment', declared', _, _⟩ := standpoint'
  obtain ⟨⟨chain, isChain, rfl, rfl, _, counts, here⟩, _⟩ := stands
  dsimp only at isChain isOwner counts here ⊢
  obtain ⟨_, found, found', isFound, isFound', matched⟩ := stores.environment isChain
  rw [Lexical.visible?] at isOwner
  split at isOwner
  · next member =>
      cases isOwner
      refine ⟨chain.place, if_pos ?_, ⟨chain, isChain, rfl, rfl, counts member, ?_⟩, fun _ => rfl⟩
      · cases chain with
        | top => exact here.1 member
        | inner => exact here.1 ▸ member
      · rintro line names rfl
        rw [here.2]
        exact List.not_mem_nil
  · next missing =>
      rw [isFound, Option.bind_some] at isOwner
      cases chain with
      | top =>
          rw [Tops.parent matched] at isOwner
          cases isOwner
      | inner place names outer =>
          obtain ⟨rfl, rfl⟩ := here
          have inners : Inners _ _ _ _ _ _ _ _ := matched
          obtain ⟨parent, _, isParent, parentChain⟩ := inners.parent
          rw [isParent, Option.bind_some] at isOwner
          obtain ⟨owner', owns, further, isFurther, place', onLine, declared, shown⟩ :=
            stores.owner parentChain isOwner
          refine ⟨owner', ?_, ⟨further, isFurther, place', onLine, declared, ?_⟩,
            fun member => absurd member missing⟩
          · rw [Lexical.visible?, if_neg missing, isFound', Option.bind_some, inners.parent',
              Option.bind_some, owns]
          · intro line names isTop member
            exact (List.mem_append.1 member).elim (shown line names isTop) missing

/-! ### Contents -/

/-- A variable that may be read holds the same on both sides. -/
theorem Stores.content (stores : Stores lines current related W memory memory')
    {owner owner' : Nat} (isOwner : Owner W line hidden name owner owner')
    (shared : name ∉ hidden → Shares lines current line name) {value : Value}
    (isSet : memory.heap.value? owner name = some value) :
    ∃ value', memory'.heap.value? owner' name = some value' ∧ related W value value' := by
  obtain ⟨chain, isChain, rfl, rfl, _, shown⟩ := isOwner
  obtain ⟨_, found, found', isFound, isFound', matched⟩ := stores.environment isChain
  rw [Lexical.value?_of_getElem? isFound] at isSet
  rw [Lexical.value?_of_getElem? isFound']
  cases chain with
  | top line names => exact Tops.values matched (shared (shown line names rfl)) isSet
  | inner place names outer =>
      have options := Environment.value?_of_forall₂ (Inners.bindings matched) name
      rw [isSet] at options
      generalize found'.value? name = content at options
      cases options with
      | some values => exact ⟨_, rfl, values⟩

theorem Tops.bind {shared : String → Prop} {related : Value → Value → Prop} {names : List String}
    {environment environment' : Environment}
    (tops : Tops shared related names environment environment') (declared : name ∈ names)
    {value value' : Value} (values : related value value') :
    Tops shared related names (environment.bind name value) (environment'.bind name value') where
  implicit variant := (Environment.implicit?_bind name value variant).trans (tops.implicit variant)
  parent := tops.parent
  named := (environment.names_bind name value).trans tops.named
  declared := by
    rw [Environment.names_bind]
    exact tops.declared
  values {other content} isShared isSet := by
    by_cases same : other = name
    · subst same
      rw [Environment.value?_bind_self (tops.named ▸ declared)] at isSet
      cases isSet
      exact ⟨value', Environment.value?_bind_self (tops.declared declared) value', values⟩
    · rw [Environment.value?_bind_other same] at isSet
      rw [Environment.value?_bind_other same]
      exact tops.values isShared isSet

/-- The one variable changes while the copy is not looked at any more. -/
theorem Tops.outdate {shared : String → Prop} {related : Value → Value → Prop} {names : List String}
    {environment environment' : Environment}
    (tops : Tops shared related names environment environment') (free : ¬shared name)
    (value' : Value) : Tops shared related names environment (environment'.bind name value') :=
  { tops with
    declared := by
      rw [Environment.names_bind]
      exact tops.declared
    values := fun {other content} isShared isSet => by
      have different : other ≠ name := fun same => free (same ▸ isShared)
      rw [Environment.value?_bind_other different]
      exact tops.values isShared isSet }

theorem Inners.bind {related : Value → Value → Prop} {index place : Nat} {names : List String}
    {outer : Chain} {environment environment' : Environment}
    (inners : Inners related W index place names outer environment environment') (name : String)
    {value value' : Value} (values : related value value') :
    Inners related W index place names outer (environment.bind name value)
      (environment'.bind name value') where
  implicit variant := by
    rw [Environment.implicit?_bind, Environment.implicit?_bind]
    exact inners.implicit variant
  bindings := by
    refine List.forall₂_map_left_iff.2 (List.forall₂_map_right_iff.2
      (inners.bindings.imp fun binding binding' both => ?_))
    rw [both.1]
    split
    · exact ⟨rfl, .some values⟩
    · exact both
  named := (environment.names_bind name value).trans inners.named
  parent := inners.parent
  parent' := inners.parent'
  before := inners.before

section Matching

variable {index : Nat} {chain : Chain} {environment environment' : Environment}

theorem Matches.named {related : Value → Value → Prop}
    (matched : Matches lines current related W index chain environment environment') :
    environment.names = chain.names := by
  cases chain with
  | top => exact Tops.named matched
  | inner => exact Inners.named matched

theorem Matches.bind {related : Value → Value → Prop}
    (matched : Matches lines current related W index chain environment environment')
    (declared : name ∈ chain.names) {value value' : Value} (values : related value value') :
    Matches lines current related W index chain (environment.bind name value)
      (environment'.bind name value') := by
  cases chain with
  | top => exact Tops.bind matched declared values
  | inner => exact Inners.bind matched name values

/-- A variable of another block changes that has its place in the copy. -/
theorem Matches.outdate {related : Value → Value → Prop} {other : Chain}
    (matched : Matches lines current related W index chain environment environment')
    (apart : other.key ≠ chain.key) (place : other.place = chain.place)
    (free : ∀ line names, chain = .top line names → ∀ line' names', other = .top line' names' →
      line ≠ line' → ¬Shares lines current line name) (value' : Value) :
    Matches lines current related W index chain environment (environment'.bind name value') := by
  cases chain with
  | top line names =>
      cases other with
      | top line' names' =>
          have different : line ≠ line' := fun same => apart (congrArg Sum.inl same.symm)
          exact Tops.outdate matched (free line names rfl line' names' rfl different) value'
      | inner => cases place
  | inner =>
      cases other with
      | top => cases place
      | inner => exact absurd (congrArg Sum.inr (Nat.succ.inj place)) apart

theorem Matches.imp {related related' : Value → Value → Prop}
    (matched : Matches lines current related W index chain environment environment')
    (later : W.chains <+: V.chains)
    (weaken : ∀ {value value'}, related value value' → related' value value') :
    Matches lines current related' V index chain environment environment' := by
  have options {option option' : Option Value} (rel : Option.Rel related option option') :
      Option.Rel related' option option' := by
    cases rel with
    | none => exact .none
    | some values => exact .some (weaken values)
  cases chain with
  | top line names =>
      have tops : Tops _ _ _ _ _ := matched
      exact { tops with
        values := fun isShared isSet =>
          (tops.values isShared isSet).imp fun _ both => ⟨both.1, weaken both.2⟩ }
  | inner place names outer =>
      have inners : Inners _ _ _ _ _ _ _ _ := matched
      obtain ⟨parent, before, isParent, parentChain⟩ := inners.parent
      exact { inners with
        implicit := fun variant => options (inners.implicit variant)
        bindings := inners.bindings.imp fun _ _ both => ⟨both.1, options both.2⟩
        parent := ⟨parent, before, isParent, getElem?_mono later parentChain⟩ }

end Matching

end Splitting

end PointFree

namespace PointFree

namespace Splitting

open Correspondence

variable {lines : Nat → Block} {current : Nat} {W V : World} {line : Nat} {name : String}
variable {hidden inside : List String} {memory memory' : Memory Lexical}

/-! ### Growing worlds -/

def World.assign (W : World) (entries : List (Nat × String)) : World :=
  { W with assigned := entries ++ W.assigned }

def World.withChain (W : World) (chain : Chain) : World :=
  { W with chains := W.chains ++ [chain] }

def World.withLiteral (W : World) (literal : Literal) : World :=
  { W with literals := W.literals ++ [literal] }

theorem World.le_assign (entries : List (Nat × String)) : W ≤ W.assign entries :=
  ⟨List.prefix_rfl, List.prefix_rfl, List.subset_append_right ..⟩

theorem World.le_withChain (chain : Chain) : W ≤ W.withChain chain :=
  ⟨List.prefix_append .., List.prefix_rfl, List.Subset.refl _⟩

theorem World.le_withLiteral (literal : Literal) : W ≤ W.withLiteral literal :=
  ⟨List.prefix_rfl, List.prefix_append .., List.Subset.refl _⟩

/-! ### What the steps preserve -/

theorem Stores.unique {related : World → Value → Value → Prop}
    (stores : Stores lines current related W memory memory') {index index' : Nat}
    {chain chain' : Chain} (isChain : W.chains[index]? = some chain)
    (isChain' : W.chains[index']? = some chain') (same : chain.key = chain'.key) :
    index = index' := by
  have inside : index < (W.chains.map Chain.key).length := by
    rw [List.length_map]
    exact (List.getElem?_eq_some_iff.1 isChain).1
  refine (List.getElem?_inj inside stores.apart).1 ?_
  rw [List.getElem?_map, List.getElem?_map, isChain, isChain', Option.map_some, Option.map_some,
    same]

/-- A variable gets values that correspond. -/
theorem Stores.bind (stores : Stores lines current (splitting lines current).Values W memory memory')
    {owner owner' : Nat} (isOwner : Owner W line hidden name owner owner')
    (alone : name ∉ hidden → ∀ other ≤ current, other ≠ line → ¬Shares lines current other name)
    {value value' : Value} (values : (splitting lines current).Values W value value') :
    Stores lines current (splitting lines current).Values (W.assign [(owner, name)])
      { memory with heap := memory.heap.bind owner name value }
      { memory' with heap := memory'.heap.bind owner' name value' } := by
  have later : W ≤ W.assign [(owner, name)] := World.le_assign _
  obtain ⟨chain, isChain, rfl, rfl, declared, shown⟩ := isOwner.known
  refine { stores with environments := ?_, begun := ?_, environment := ?_, assigned := ?_ }
  · exact (Array.size_modify ..).trans stores.environments
  · obtain ⟨environment', isFirst, declares⟩ := stores.begun
    have there := memory'.heap.environments_bind chain.place name value' 0
    rw [isFirst] at there
    split at there
    · exact ⟨_, there, (environment'.names_bind name value').symm ▸ declares⟩
    · exact ⟨_, there, declares⟩
  · intro index chain' isChain'
    obtain ⟨within, environment, environment', found, found', matched⟩ :=
      stores.environment isChain'
    have matched := matched.imp later.1 fun values =>
      Correspondence.Values.mono (c := splitting lines current) later values
    have values := Correspondence.Values.mono (c := splitting lines current) later values
    have here := memory.heap.environments_bind owner name value index
    have there := memory'.heap.environments_bind chain.place name value' chain'.place
    rw [found] at here
    rw [found'] at there
    refine ⟨within, ?_⟩
    by_cases same : owner = index
    · subst same
      cases isChain.symm.trans isChain'
      rw [if_pos rfl] at here there
      exact ⟨_, _, here, there, matched.bind declared values⟩
    · rw [if_neg same] at here
      have apart : chain.key ≠ chain'.key :=
        fun keys => same (stores.unique isChain isChain' keys)
      by_cases place : chain.place = chain'.place
      · rw [if_pos place] at there
        refine ⟨_, _, here, there, matched.outdate apart place ?_ value'⟩
        rintro line' names' rfl line names rfl different
        exact alone (shown line names rfl) line' within different
      · rw [if_neg place] at there
        exact ⟨_, _, here, there, matched⟩
  · intro place word member
    rcases List.mem_cons.1 member with same | old
    · obtain ⟨rfl, rfl⟩ := Prod.mk.inj same
      obtain ⟨_, environment, _, found, _, matched⟩ := stores.environment isChain
      have here := memory.heap.environments_bind place word value place
      rw [found, if_pos rfl, Option.map_some] at here
      refine ⟨value, (Lexical.value?_of_getElem? here word).trans ?_⟩
      exact Environment.value?_bind_self (matched.named ▸ declared) value
    · obtain ⟨content, isSet⟩ := stores.assigned old
      exact Lexical.exists_value?_bind isSet owner name value

theorem Lexical.value?_push {heap : Lexical} {environment : Environment} {place : Nat}
    {word : String} {content : Value} (isSet : heap.value? place word = some content) :
    Lexical.value? { heap with environments := heap.environments.push environment } place word =
      some content := by
  obtain ⟨found, isFound, isContent⟩ := Option.bind_eq_some_iff.1 isSet
  have inside := (Array.getElem?_eq_some_iff.1 isFound).1
  rw [Lexical.value?, Array.getElem?_push_lt inside, ← Array.getElem?_eq_getElem inside, isFound,
    Option.bind_some, isContent]

/-- Another environment that is known. The evaluation at once may have it already. -/
theorem Stores.withChain
    (stores : Stores lines current (splitting lines current).Values W memory memory')
    {chain : Chain} {environment environment' : Environment} {environments' : Array Environment}
    (grows : ∀ {index : Nat} {found : Environment}, memory'.heap.environments[index]? = some found →
      environments'[index]? = some found)
    (new : chain.key ∉ W.chains.map Chain.key) (within : chain.line ≤ current)
    (found' : environments'[chain.place]? = some environment')
    (matched : Matches lines current ((splitting lines current).Values W) W W.chains.length chain
      environment environment') :
    Stores lines current (splitting lines current).Values (W.withChain chain)
      { memory with heap.environments := memory.heap.environments.push environment }
      { memory' with heap.environments := environments' } := by
  have later : W ≤ W.withChain chain := World.le_withChain _
  refine { stores with environments := ?_, begun := ?_, apart := ?_, environment := ?_, assigned := ?_ }
  · rw [Array.size_push, stores.environments, World.withChain, List.length_append]
    rfl
  · obtain ⟨environment', isFirst, declares⟩ := stores.begun
    exact ⟨environment', grows isFirst, declares⟩
  · rw [World.withChain, List.map_append]
    refine List.nodup_append.2 ⟨stores.apart, List.pairwise_singleton _ _, fun key member => ?_⟩
    exact List.forall_mem_singleton.2 fun same => new (same ▸ member)
  · intro index other isChain
    rw [World.withChain, List.getElem?_append] at isChain
    rw [Array.getElem?_push, stores.environments]
    split at isChain
    · next inside =>
        obtain ⟨before, found, _, isFound, isFound', matched⟩ := stores.environment isChain
        rw [if_neg (Nat.ne_of_lt inside)]
        exact ⟨before, found, _, isFound, grows isFound', matched.imp later.1 fun values =>
          Correspondence.Values.mono (c := splitting lines current) later values⟩
    · next outside =>
        obtain ⟨last, same⟩ := List.getElem?_eq_some_iff.1 isChain
        have here : index = W.chains.length := by
          rw [List.length_singleton] at last
          omega
        subst here
        simp only [Nat.sub_self, List.getElem_singleton] at same
        subst same
        rw [if_pos rfl]
        exact ⟨within, environment, environment', rfl, found', matched.imp later.1 fun values =>
          Correspondence.Values.mono (c := splitting lines current) later values⟩
  · intro owner word member
    obtain ⟨content, isSet⟩ := stores.assigned member
    exact ⟨content, Lexical.value?_push isSet⟩

/-- A new activation. -/
theorem Stores.withInner
    (stores : Stores lines current (splitting lines current).Values W memory memory')
    {names : List String} {outer : Chain} {environment environment' : Environment} {place : Nat}
    (counted : memory'.heap.environments.size = place + 1) (within : outer.line ≤ current)
    (inners : Inners ((splitting lines current).Values W) W W.chains.length place names outer
      environment environment') :
    Stores lines current (splitting lines current).Values (W.withChain (.inner place names outer))
      { memory with heap.environments := memory.heap.environments.push environment }
      { memory' with heap.environments := memory'.heap.environments.push environment' } := by
  have last : (memory'.heap.environments.push environment')[place + 1]? = some environment' :=
    counted ▸ Array.getElem?_push_size
  have grows {index : Nat} {found : Environment}
      (isFound : memory'.heap.environments[index]? = some found) :
      (memory'.heap.environments.push environment')[index]? = some found := by
    have inside := (Array.getElem?_eq_some_iff.1 isFound).1
    rw [Array.getElem?_push, if_neg (Nat.ne_of_lt inside), isFound]
  refine stores.withChain grows (fun member => ?_) within last inners
  obtain ⟨chain, isMember, isKey⟩ := List.mem_map.1 member
  obtain ⟨index, isChain⟩ := List.mem_iff_getElem?.1 isMember
  obtain ⟨_, _, _, _, found', _⟩ := stores.environment isChain
  have inside := (Array.getElem?_eq_some_iff.1 found').1
  cases chain with
  | top => cases isKey
  | inner =>
      cases isKey
      rw [counted] at inside
      exact absurd inside (Nat.lt_irrefl _)

/-- The top level of a line that begins. -/
theorem Stores.withTop
    (stores : Stores lines current (splitting lines current).Values W memory memory')
    {names : List String} {environment environment' : Environment}
    (new : ∀ chain ∈ W.chains, chain.line < current)
    (isFirst : memory'.heap.environments[0]? = some environment')
    (tops : Tops (Shares lines current current) ((splitting lines current).Values W) names
      environment environment') :
    Stores lines current (splitting lines current).Values (W.withChain (.top current names))
      { memory with heap.environments := memory.heap.environments.push environment } memory' := by
  refine stores.withChain id (fun member => ?_) le_rfl isFirst tops
  obtain ⟨chain, isMember, isKey⟩ := List.mem_map.1 member
  cases chain with
  | inner => cases isKey
  | top =>
      cases isKey
      exact absurd (new _ isMember) (Nat.lt_irrefl _)

/-- Variables that are found to have a value. -/
theorem Stores.assign
    (stores : Stores lines current (splitting lines current).Values W memory memory')
    {entries : List (Nat × String)}
    (set : ∀ entry ∈ entries, ∃ value, memory.heap.value? entry.1 entry.2 = some value) :
    Stores lines current (splitting lines current).Values (W.assign entries) memory memory' := by
  have later : W ≤ W.assign entries := World.le_assign _
  refine { stores with environment := ?_, assigned := ?_ }
  · intro index chain isChain
    obtain ⟨before, found, found', isFound, isFound', matched⟩ := stores.environment isChain
    exact ⟨before, found, found', isFound, isFound', matched.imp later.1 fun values =>
      Correspondence.Values.mono (c := splitting lines current) later values⟩
  · intro place name member
    exact (List.mem_append.1 member).elim (set _) stores.assigned

theorem Stores.withLiteral
    (stores : Stores lines current (splitting lines current).Values W memory memory')
    {literal literal' : Literal} (shifted : Shifted literal literal')
    (standard : literal.vocabulary = .standardFrom 0) :
    Stores lines current (splitting lines current).Values (W.withLiteral literal)
      { memory with heap.literals := memory.heap.literals.push literal }
      { memory' with heap.literals := memory'.heap.literals.push literal' } := by
  have later : W ≤ W.withLiteral literal := World.le_withLiteral _
  refine { stores with literals := ?_, shifted := ?_, vocabularies := ?_, environment := ?_ }
  · rw [Array.toList_push, stores.literals]
    rfl
  · rw [Array.toList_push]
    exact List.rel_append stores.shifted (.cons shifted .nil)
  · intro other member
    rcases List.mem_append.1 member with old | new
    · exact stores.vocabularies other old
    · exact List.mem_singleton.1 new ▸ standard
  · intro index chain isChain
    obtain ⟨before, found, found', isFound, isFound', matched⟩ := stores.environment isChain
    exact ⟨before, found, found', isFound, isFound', matched.imp later.1 fun values =>
      Correspondence.Values.mono (c := splitting lines current) later values⟩

end Splitting

end PointFree
