import PointFree.Proofs.Compilation.Loading
import PointFree.Proofs.Correspondence.Routine

/-!
Contract: the constants of a program.

A constant of a routine is data that was written in the program or a value that the
program knows by name from the start.

A program is compiled with the values it knows by name from the start, and adds a constant
only for what is written in it. So what holds of both holds of its whole pool, and a
listing, which shows constants, comes across nothing else.
-/

namespace PointFree

/-! ### Data written in programs -/

theorem ShapedArray.isData_nil : ShapedArray.nil.IsData :=
  .bare _ _ fun _ => .failure rfl

theorem ShapedArray.isData_stored {row : Array Value} (isData : ∀ value ∈ row, value.IsData)
    (index : Nat) : (ShapedArray.stored row index).IsData := by
  rw [ShapedArray.stored]
  cases found : row[index]? with
  | none => exact .failure rfl
  | some value => exact .value (isData value (Array.mem_of_getElem? found))

theorem ShapedArray.isData_list {row : Array Value} (isData : ∀ value ∈ row, value.IsData) :
    (ShapedArray.list row).IsData := by
  rw [ShapedArray.list, ShapedArray.ofView]
  split
  · exact ShapedArray.isData_nil
  · exact .bare _ _ (ShapedArray.isData_stored isData)

theorem Value.isData_ofString (text : String) : (Value.ofString text).IsData := by
  refine .array (ShapedArray.isData_list fun value member => ?_)
  obtain ⟨letter, _, rfl⟩ := List.mem_map.1 (by simpa using member)
  exact .character letter

/-- The property holds of all that a program can spell out. -/
structure Written (holds : Value → Prop) : Prop where
  number (number : Float) : holds (.number number)
  character (letter : Char) : holds (.character letter)
  string (text : String) : holds (.ofString text)
  nil : holds (.array .nil)

theorem Written.of_isData {holds : Value → Prop}
    (data : ∀ {value : Value}, value.IsData → holds value) : Written holds where
  number number := data (.number number)
  character letter := data (.character letter)
  string text := data (Value.isData_ofString text)
  nil := data (.array ShapedArray.isData_nil)

/-! ### Lowered code -/

section Lowered

variable {holds : Value → Prop} {site : Site} {scope : Scope}

mutual

theorem Expression.Lowers.allConstants (written : Written holds)
    (known : ∀ entry ∈ site.vocabulary.entries, holds entry.2) :
    ∀ {expression : Expression} {code : List Instruction} {node : Node},
    expression.Lowers site scope code node → node.AllConstants holds
  | _, _, _, .number _ => .constant (written.number _)
  | _, _, _, .character _ => .constant (written.character _)
  | _, _, _, .string _ => .constant (written.string _)
  | _, _, _, .name _ => .load _ _
  | _, _, _, .primitive isValue _ => by
      obtain ⟨entry, found, rfl⟩ := Option.map_eq_some_iff.1 isValue
      exact .constant (known entry (Array.mem_of_find?_eq_some found))
  | _, _, _, .implicit _ => .load _ _
  | _, _, _, .list items => .list (items.allConstants written known)
  | _, _, _, .call right function =>
      .call (right.allConstants written known) (function.allConstants written known)
  | _, _, _, .callBoth right function left =>
      .callBoth (right.allConstants written known) (function.allConstants written known)
        (left.allConstants written known)
  | _, _, _, .modifyOne _ operand => .modifyOne _ (operand.allConstants written known)
  | _, _, _, .modifyTwo _ right left =>
      .modifyTwo _ (right.allConstants written known) (left.allConstants written known)
  | _, _, _, .atop right left =>
      .atop (right.allConstants written known) (left.allConstants written known)
  | _, _, _, .fork right middle left =>
      .fork (right.allConstants written known) (middle.allConstants written known)
        (left.allConstants written known)
  | _, _, _, .block _ => .closure _

theorem Expression.LowersAll.allConstants (written : Written holds)
    (known : ∀ entry ∈ site.vocabulary.entries, holds entry.2) :
    ∀ {items : List Expression} {code : List Instruction} {nodes : List Node},
    Expression.LowersAll site scope items code nodes → ∀ node ∈ nodes, node.AllConstants holds
  | _, _, _, .nil => nofun
  | _, _, _, .cons item rest =>
      List.forall_mem_cons.2 ⟨item.allConstants written known, rest.allConstants written known⟩

end

theorem Clause.Lowers.allConstants (written : Written holds)
    (known : ∀ entry ∈ site.vocabulary.entries, holds entry.2) {clause : Clause}
    {extended : Scope} {code : List Instruction} {node : Node}
    (lowers : clause.Lowers site scope extended code node) : node.AllConstants holds := by
  cases lowers with
  | expression result => exact result.allConstants written known
  | define value => exact .define _ (value.allConstants written known)
  | assign value => exact .assign _ (value.allConstants written known)
  | update function => exact .update _ (function.allConstants written known)
  | updateWith argument function =>
      exact .updateWith _ (argument.allConstants written known)
        (function.allConstants written known)

theorem Statement.Lowers.allConstants (written : Written holds)
    (known : ∀ entry ∈ site.vocabulary.entries, holds entry.2) {statements : List Statement}
    {whole : Scope} {placed : List Marked} {steps : List Step}
    (lowers : Statement.Lowers site scope statements whole placed steps) :
    ∀ step ∈ steps, step.AllConstants holds := by
  induction lowers with
  | finish clause =>
      exact List.forall_mem_singleton.2 (.finish _ (clause.allConstants written known))
  | evaluate clause _ inductionHypothesis =>
      exact List.forall_mem_cons.2
        ⟨.evaluate _ (clause.allConstants written known), inductionHypothesis⟩
  | guard test fallback _ inductionHypothesis =>
      exact List.forall_mem_cons.2
        ⟨.guard _ (test.allConstants written known) (fallback.allConstants written known),
          inductionHypothesis⟩

theorem Block.Lowers.allConstants (written : Written holds)
    (known : ∀ entry ∈ site.vocabulary.entries, holds entry.2) {block : Block} {whole : Scope}
    {placed : List Marked} {steps : List Step}
    (lowers : block.Lowers site scope whole placed steps) :
    ∀ step ∈ steps, step.AllConstants holds := by
  cases lowers with
  | empty =>
      exact List.forall_mem_singleton.2 (.finish _ (.constant written.nil))
  | statements lowers => exact lowers.allConstants written known

end Lowered

theorem Machine.IsLoaded.allConstantsWritten {holds : Value → Prop} {machine : Machine}
    {program : Program} {vocabulary : Vocabulary} {tasks : List Task} {limit : Nat}
    (loaded : machine.IsLoaded program vocabulary tasks limit)
    (written : Written holds)
    (known : ∀ entry ∈ vocabulary.entries, holds entry.2) :
    ∀ routine ∈ machine.top :: machine.others, routine.AllConstants holds := by
  intro routine member
  obtain ⟨index, isRoutine⟩ := List.mem_iff_getElem?.1 member
  obtain ⟨_, _, _, _, _, _, _, holdsBlock, rfl⟩ := loaded.routine index routine isRoutine
  exact holdsBlock.lowers.allConstants written known

theorem Machine.IsLoaded.allConstants {holds : Value → Prop} {machine : Machine}
    {program : Program} {vocabulary : Vocabulary} {tasks : List Task} {limit : Nat}
    (loaded : machine.IsLoaded program vocabulary tasks limit)
    (data : ∀ {value : Value}, value.IsData → holds value)
    (known : ∀ entry ∈ vocabulary.entries, holds entry.2) :
    ∀ routine ∈ machine.top :: machine.others, routine.AllConstants holds :=
  loaded.allConstantsWritten (.of_isData data) known

end PointFree

namespace PointFree

/-! ### Code that draws on the pool -/

/-- Every constant that the code draws from the pool has the property. -/
def Draws (constants : Array Value) (holds : Value → Prop) (code : List Instruction) : Prop :=
  ∀ ⦃place value⦄, .push place ∈ code → constants[place]? = some value → holds value

section Draws

variable {constants : Array Value} {holds : Value → Prop} {code more : List Instruction}

theorem Draws.append (first : Draws constants holds code) (second : Draws constants holds more) :
    Draws constants holds (code ++ more) :=
  fun _ _ member found => (List.mem_append.1 member).elim (first · found) (second · found)

theorem Draws.single {place : Nat} {value : Value} (found : constants[place]? = some value)
    (here : holds value) : Draws constants holds [.push place] := by
  intro other value' member found'
  cases List.mem_singleton.1 member
  cases found.symm.trans found'
  exact here

theorem Draws.none (others : ∀ place, .push place ∉ code) : Draws constants holds code :=
  fun place _ member _ => absurd member (others place)

theorem Draws.concat (first : Draws constants holds code) {instruction : Instruction}
    (other : ∀ place, instruction ≠ .push place) :
    Draws constants holds (code ++ [instruction]) :=
  first.append (.none fun place member => other place (List.mem_singleton.1 member).symm)

end Draws

section Lowered

variable {holds : Value → Prop} {site : Site} {scope : Scope}

mutual

theorem Expression.Lowers.draws (written : Written holds)
    (known : ∀ entry ∈ site.vocabulary.entries, holds entry.2) :
    ∀ {expression : Expression} {code : List Instruction} {node : Node},
      expression.Lowers site scope code node → Draws site.constants holds code
  | _, _, _, .number found => .single found (written.number _)
  | _, _, _, .character found => .single found (written.character _)
  | _, _, _, .string found => .single found (written.string _)
  | _, _, _, .name _ => .none (by simp)
  | _, _, _, .primitive isWord found => by
      obtain ⟨entry, isEntry, rfl⟩ := Option.map_eq_some_iff.1 isWord
      exact .single found (known entry (Array.mem_of_find?_eq_some isEntry))
  | _, _, _, .implicit _ => .none (by simp)
  | _, _, _, .list items => (items.draws written known).concat nofun
  | _, _, _, .call right function =>
      ((right.draws written known).append (function.draws written known)).concat nofun
  | _, _, _, .callBoth right function left =>
      (((right.draws written known).append (function.draws written known)).append
        (left.draws written known)).concat nofun
  | _, _, _, .modifyOne _ operand => (operand.draws written known).concat nofun
  | _, _, _, .modifyTwo _ right left =>
      ((right.draws written known).append (left.draws written known)).concat nofun
  | _, _, _, .atop right left =>
      ((right.draws written known).append (left.draws written known)).concat nofun
  | _, _, _, .fork right middle left =>
      (((right.draws written known).append (middle.draws written known)).append
        (left.draws written known)).concat nofun
  | _, _, _, .block _ => .none (by simp)

theorem Expression.LowersAll.draws (written : Written holds)
    (known : ∀ entry ∈ site.vocabulary.entries, holds entry.2) :
    ∀ {items : List Expression} {code : List Instruction} {nodes : List Node},
      Expression.LowersAll site scope items code nodes → Draws site.constants holds code
  | _, _, _, .nil => .none nofun
  | _, _, _, .cons item rest => (item.draws written known).append (rest.draws written known)

end

mutual

theorem Target.Lowers.not_push {scopes : List Scope} :
    ∀ {target : Target} {code : List Instruction} {place : Place},
      target.Lowers scopes code place → ∀ number, .push number ∉ code
  | _, _, _, .name _ => by simp
  | _, _, _, .list targets => by simpa using targets.not_push

theorem Target.LowersAll.not_push {scopes : List Scope} :
    ∀ {targets : List Target} {code : List Instruction} {places : List Place},
      Target.LowersAll scopes targets code places → ∀ number, .push number ∉ code
  | _, _, _, .nil => nofun
  | _, _, _, .cons target rest => by
      intro number member
      exact (List.mem_append.1 member).elim (target.not_push number) (rest.not_push number)

end

theorem Clause.Lowers.draws (written : Written holds)
    (known : ∀ entry ∈ site.vocabulary.entries, holds entry.2) {clause : Clause}
    {extended : Scope} {code : List Instruction} {node : Node}
    (lowers : clause.Lowers site scope extended code node) :
    Draws site.constants holds code := by
  cases lowers with
  | expression result => exact result.draws written known
  | define value _ target =>
      exact ((value.draws written known).append (.none target.not_push)).concat nofun
  | assign value target =>
      exact ((value.draws written known).append (.none target.not_push)).concat nofun
  | update function target =>
      exact ((function.draws written known).append (.none target.not_push)).concat nofun
  | updateWith argument function target =>
      exact (((argument.draws written known).append (function.draws written known)).append
        (.none target.not_push)).concat nofun

theorem Statement.Lowers.draws (written : Written holds)
    (known : ∀ entry ∈ site.vocabulary.entries, holds entry.2) {statements : List Statement}
    {whole : Scope} {placed : List Marked} {steps : List Step}
    (lowers : Statement.Lowers site scope statements whole placed steps) :
    Draws site.constants holds (placed.map Prod.fst) := by
  induction lowers with
  | finish clause =>
      rw [map_placedAt]
      exact (clause.draws written known).concat (by simp)
  | evaluate clause _ inductionHypothesis =>
      rw [List.map_append, map_placedAt]
      exact ((clause.draws written known).concat (by simp)).append inductionHypothesis
  | guard test fallback _ inductionHypothesis =>
      rw [List.map_append, map_placedAt]
      exact ((((test.draws written known).concat (by simp)).append
        (fallback.draws written known)).concat (by simp)).append inductionHypothesis

theorem Block.Lowers.draws (written : Written holds)
    (known : ∀ entry ∈ site.vocabulary.entries, holds entry.2) {block : Block} {whole : Scope}
    {placed : List Marked} {steps : List Step}
    (lowers : block.Lowers site scope whole placed steps) :
    Draws site.constants holds (placed.map Prod.fst) := by
  cases lowers with
  | empty found =>
      exact (Draws.single found written.nil).concat nofun
  | statements lowers => exact lowers.draws written known

end Lowered

/-! ### What is emitted -/

def Emitted.literal? : Emitted → Option Value
  | .literal value => some value
  | _ => none

/-- A pool in which everything emitted finds its constant. -/
theorem Emitted.exists_fills {constants : Array Value} {emitted : Emitted}
    (pooled : ∀ value ∈ emitted.literal?, value ∈ constants) :
    ∃ instruction, Fills constants (fun _ _ => True) emitted instruction := by
  cases emitted with
  | instruction instruction => exact ⟨_, .instruction instruction⟩
  | literal value =>
      obtain ⟨place, found⟩ := Array.mem_iff_getElem?.1 (pooled value rfl)
      exact ⟨_, .literal found⟩
  | closure body => exact ⟨.closure 0, .closure trivial⟩

theorem exists_fillsAt {constants : Array Value} {located : List Located}
    (pooled : ∀ entry ∈ located, ∀ value ∈ entry.1.literal?, value ∈ constants) :
    ∃ placed, List.Forall₂ (FillsAt constants fun _ _ => True) located placed := by
  induction located with
  | nil => exact ⟨[], .nil⟩
  | cons entry rest inductionHypothesis =>
      obtain ⟨here, later⟩ := List.forall_mem_cons.1 pooled
      obtain ⟨instruction, fills⟩ := Emitted.exists_fills here
      obtain ⟨placed, others⟩ := inductionHypothesis later
      exact ⟨(instruction, entry.2) :: placed, .cons ⟨fills, rfl⟩ others⟩

variable {holds : Value → Prop} {vocabulary : Vocabulary}

/-- What a block emits as a literal has been written in it. -/
theorem Block.written_of_emit (written : Written holds)
    (known : ∀ entry ∈ vocabulary.entries, holds entry.2) {outer : List Scope} {scope whole : Scope}
    {block : Block} {located : List Located}
    (emits : block.emit vocabulary outer scope = .ok (located, whole)) {entry : Located}
    (member : entry ∈ located) {value : Value} (isLiteral : value ∈ entry.1.literal?) :
    holds value := by
  -- The property is read off a lowering, so the block is laid down over a pool of its own.
  let site : Site := ⟨vocabulary, vocabulary.values ++ (located.filterMap fun entry =>
    entry.1.literal?).toArray, outer, fun _ _ => True⟩
  have pooled (entry : Located) (isEntry : entry ∈ located) (found : Value)
      (isLiteral : found ∈ entry.1.literal?) : found ∈ site.constants :=
    Array.mem_append_right _ (List.mem_toArray.2 (List.mem_filterMap.2 ⟨entry, isEntry, isLiteral⟩))
  have provided : site.Known := fun place value found => by
    rw [Array.getElem?_append_left (Array.getElem?_eq_some_iff.1 found).1]
    exact found
  obtain ⟨placed, fills⟩ := exists_fillsAt pooled
  obtain ⟨steps, lowers⟩ := Block.emit_lowers provided emits fills
  obtain ⟨⟨instruction, span⟩, isPlaced, filled, _⟩ := Correspondence.exists_of_forall₂ fills member
  obtain ⟨emitted, place⟩ := entry
  cases emitted with
  | instruction | closure => cases isLiteral
  | literal found =>
      cases isLiteral
      cases filled with
      | literal isConstant =>
          exact lowers.draws written known (List.mem_map_of_mem isPlaced) isConstant

/-! ### The pool -/

theorem Assembly.lay_constants {assembly after : Assembly} {span : Option Span}
    {instruction : Instruction} (laid : assembly.lay span instruction = .ok after) :
    after.constants = assembly.constants := by
  obtain ⟨_, rfl⟩ := lay_eq_ok laid
  rfl

theorem Assembly.layEmitted_constants {assembly after : Assembly} {bodies all : List Block}
    {located : Located} (laid : layEmitted (assembly, bodies) located = .ok (after, all))
    (pool : ∀ value ∈ assembly.constants, holds value)
    (literals : ∀ value ∈ located.1.literal?, holds value) :
    ∀ value ∈ after.constants, holds value := by
  obtain ⟨emitted, span⟩ := located
  have laid := Outcome.eq_ok_of_within laid
  cases emitted with
  | instruction | closure =>
      obtain ⟨after', done, same⟩ := Outcome.map_eq_ok.1 laid
      cases same
      rw [lay_constants done]
      exact pool
  | literal value =>
      obtain ⟨after', done, same⟩ := Outcome.map_eq_ok.1 laid
      cases same
      rw [lay_constants done]
      intro found member
      rcases Array.mem_push.1 member with old | rfl
      · exact pool found old
      · exact literals found rfl

theorem Assembly.foldlM_layEmitted_constants {located : List Located} {assembly after : Assembly}
    {bodies all : List Block}
    (laid : located.foldlM layEmitted (assembly, bodies) = .ok (after, all))
    (pool : ∀ value ∈ assembly.constants, holds value)
    (literals : ∀ entry ∈ located, ∀ value ∈ entry.1.literal?, holds value) :
    ∀ value ∈ after.constants, holds value := by
  induction located generalizing assembly bodies with
  | nil =>
      cases laid
      exact pool
  | cons first rest inductionHypothesis =>
      rw [List.foldlM_cons] at laid
      obtain ⟨⟨between, some⟩, firstLaid, restLaid⟩ := Outcome.bind_eq_ok.1 laid
      obtain ⟨here, later⟩ := List.forall_mem_cons.1 literals
      exact inductionHypothesis restLaid (layEmitted_constants firstLaid pool here) later

section Queue

variable (written : Written holds) (known : ∀ entry ∈ vocabulary.entries, holds entry.2)

include written known

theorem Assembly.perform_constants {assembly after : Assembly} {task : Task} {new : List Task}
    {whole : Scope} (performed : assembly.perform vocabulary task = .ok (after, new, whole))
    (pool : ∀ value ∈ assembly.constants, holds value) :
    ∀ value ∈ after.constants, holds value := by
  obtain ⟨located, between, bodies, emits, lays, rfl, rfl⟩ := perform_eq_ok performed
  have kept : ∀ value ∈ between.constants, holds value :=
    foldlM_layEmitted_constants lays pool fun entry member value isLiteral =>
      Block.written_of_emit written known emits member isLiteral
  exact kept

theorem Assembly.performAll_constants {budget : Nat} {assembly final : Assembly}
    {waiting : List Task} (performed : performAll vocabulary budget assembly waiting = .ok final)
    (pool : ∀ value ∈ assembly.constants, holds value) :
    ∀ value ∈ final.constants, holds value := by
  induction budget generalizing assembly waiting with
  | zero =>
      cases performed
      exact pool
  | succ budget inductionHypothesis =>
      cases waiting with
      | nil =>
          cases performed
          exact pool
      | cons task waiting =>
          obtain ⟨⟨after, new, whole⟩, first, performed⟩ := Outcome.bind_eq_ok.1 performed
          exact inductionHypothesis performed (perform_constants written known first pool)

/-- The pool of a program holds what the program knows from the start and what is written
in it. -/
theorem Block.compile_constants {block : Block} {externals : List String} {program : Program}
    (compiled : block.compile vocabulary externals = .ok program) :
    ∀ value ∈ program.constants, holds value := by
  obtain ⟨scope, _, compiled⟩ := Outcome.bind_eq_ok.1 compiled
  obtain ⟨⟨after, new, whole⟩, first, compiled⟩ := Outcome.bind_eq_ok.1 compiled
  obtain ⟨assembly, performed, done⟩ := Outcome.bind_eq_ok.1 compiled
  cases done
  refine Assembly.performAll_constants written known performed ?_
  refine Assembly.perform_constants written known first fun value member => ?_
  obtain ⟨entry, isEntry, rfl⟩ := Array.mem_map.1 member
  exact known entry isEntry

end Queue

end PointFree
