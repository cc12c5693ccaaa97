import PointFree.Proofs.Registering.Recompiling

/-!
Contract: every word keeps its place.

A vocabulary stands for a table: names and values side by side, and an index that finds the place of
a name. One call of `register` keeps the three in step, says where the name stands, and leaves every
other name and every other value where it was; so the place of a name is where it was registered
first. A program is compiled with a copy of the values. The words that it pushes have the values of
that time, and when it is compiled again after further calls, these words stand where they stood.
-/

namespace PointFree

namespace Vocabulary

/-- The calls of `register` one after the other. -/
def registerAll (vocabulary : Vocabulary) (calls : List (String × Value)) : Vocabulary :=
  calls.foldl (fun vocabulary call => (vocabulary.register call.1 call.2).1) vocabulary

/-- The vocabulary that calls make. -/
def ofCalls (calls : List (String × Value)) : Vocabulary :=
  empty.registerAll calls

/-- The calls that make the standard vocabulary. -/
def standardCalls (stamp : Nat) : List (String × Value) :=
  Primitive.all.zipIdx.map fun entry =>
    (String.singleton entry.1.glyph, .function (.mk (stamp + entry.2) (.primitive entry.1)))

/-! ### Tables -/

/-- Names and values by their places, with an index that finds names. -/
structure Table where
  names : Array String
  values : Array Value
  index : Std.HashMap String Nat

namespace Table

def empty : Table :=
  ⟨#[], #[], ∅⟩

/-- A name that the index finds gets a new value; any other name comes last. -/
def register (table : Table) (name : String) (value : Value) : Table × Nat :=
  match table.index[name]? with
  | some place => ({ table with values := table.values.setIfInBounds place value }, place)
  | none =>
      (⟨table.names.push name, table.values.push value,
        table.index.insert name table.values.size⟩, table.values.size)

def registerAll (table : Table) (calls : List (String × Value)) : Table :=
  calls.foldl (fun table call => (table.register call.1 call.2).1) table

/-- The table that calls make. -/
def ofCalls (calls : List (String × Value)) : Table :=
  empty.registerAll calls

/-- Names, values and index fit together. -/
structure InStep (table : Table) : Prop where
  sizes : table.names.size = table.values.size
  index : ∀ (name : String) (place : Nat),
    table.index[name]? = some place ↔ table.names[place]? = some name

/-- What a call of `register` does that answers a place. -/
structure Registers (table after : Table) (name : String) (value : Value) (place : Nat) :
    Prop where
  index : after.index[name]? = some place
  value : after.values[place]? = some value
  kept : ∀ old, table.index[name]? = some old → place = old
  others : ∀ other, other ≠ name → after.index[other]? = table.index[other]?
  names : ∀ other, other ≠ place → after.names[other]? = table.names[other]?
  values : ∀ other, other ≠ place → after.values[other]? = table.values[other]?

section Calls

variable {table : Table} {name : String} {place : Nat}

theorem register_known (known : table.index[name]? = some place) (value : Value) :
    table.register name value =
      ({ table with values := table.values.setIfInBounds place value }, place) := by
  rw [register, known]

theorem register_new (new : table.index[name]? = none) (value : Value) :
    table.register name value = (⟨table.names.push name, table.values.push value,
      table.index.insert name table.values.size⟩, table.values.size) := by
  rw [register, new]

namespace InStep

/-- No name stands at two places. -/
theorem nodup (inStep : table.InStep) : table.names.toList.Nodup := by
  refine List.pairwise_iff_getElem.2 fun first second inside inside' before same => ?_
  have finds {place : Nat} (inside : place < table.names.toList.length) :
      table.index[table.names.toList[place]]? = some place := by
    rw [inStep.index, ← Array.getElem?_toList]
    exact List.getElem?_eq_getElem inside
  have here := finds inside
  rw [same, finds inside'] at here
  exact absurd (Option.some.inj here) (Nat.ne_of_gt before)

theorem lt_size (inStep : table.InStep) (known : table.index[name]? = some place) :
    place < table.values.size :=
  inStep.sizes ▸ (Array.getElem?_eq_some_iff.1 ((inStep.index name place).1 known)).1

theorem empty : Table.empty.InStep :=
  ⟨rfl, fun name place => by
    rw [Table.empty, Std.HashMap.getElem?_empty, Array.getElem?_empty]
    exact iff_of_false nofun nofun⟩

/-- One call keeps names, values and index in step. -/
theorem register (inStep : table.InStep) (name : String) (value : Value) :
    (table.register name value).1.InStep := by
  cases known : table.index[name]? with
  | some place =>
      rw [register_known known]
      exact ⟨inStep.sizes.trans (Array.size_setIfInBounds ..).symm, inStep.index⟩
  | none =>
      rw [register_new known]
      refine ⟨by rw [Array.size_push, Array.size_push, inStep.sizes], fun other place => ?_⟩
      dsimp only
      rw [Std.HashMap.getElem?_insert, Array.getElem?_push, inStep.sizes]
      by_cases last : place = table.values.size
      · subst last
        have behind : table.index[other]? ≠ some table.values.size := fun found =>
          Nat.lt_irrefl _ (inStep.lt_size found)
        rw [if_pos rfl, Option.some.injEq]
        split
        · next same => exact iff_of_true rfl (eq_of_beq same)
        · next different => exact iff_of_false behind fun same => different (beq_iff_eq.2 same)
      · rw [if_neg last, ← inStep.index]
        split
        · next same =>
            rw [← eq_of_beq same, known]
            exact iff_of_false (fun found => last (Option.some.inj found).symm) nofun
        · exact Iff.rfl

/-- One call leaves all other names and values where they were. -/
theorem registers (inStep : table.InStep) (name : String) (value : Value) :
    table.Registers (table.register name value).1 name value (table.register name value).2 := by
  cases known : table.index[name]? with
  | some place =>
      rw [register_known known]
      refine ⟨known, ?_, fun old found => Option.some.inj (known.symm.trans found),
        fun _ _ => rfl, fun _ _ => rfl, fun other different => ?_⟩
      · rw [Array.getElem?_setIfInBounds, if_pos rfl, if_pos (inStep.lt_size known)]
      · rw [Array.getElem?_setIfInBounds, if_neg (Ne.symm different)]
  | none =>
      rw [register_new known]
      refine ⟨Std.HashMap.getElem?_insert_self, Array.getElem?_push_size,
        fun old found => (nomatch known.symm.trans found), fun other different => ?_,
        fun other different => ?_, fun other different => ?_⟩
      · rw [Std.HashMap.getElem?_insert, if_neg (by simpa using Ne.symm different)]
      · rw [Array.getElem?_push, inStep.sizes, if_neg different]
      · rw [Array.getElem?_push, if_neg different]

/-- Further calls keep the place of every name. -/
theorem registerAll (inStep : table.InStep) (calls : List (String × Value)) :
    (table.registerAll calls).InStep ∧ ∀ (name : String) (place : Nat),
      table.index[name]? = some place → (table.registerAll calls).index[name]? = some place := by
  induction calls generalizing table with
  | nil => exact ⟨inStep, fun _ _ found => found⟩
  | cons call calls inductionHypothesis =>
      obtain ⟨after, keeps⟩ := inductionHypothesis (inStep.register call.1 call.2)
      refine ⟨after, fun name place found => keeps name place ?_⟩
      have registers := inStep.registers call.1 call.2
      by_cases same : name = call.1
      · subst same
        rw [registers.index, registers.kept place found]
      · rw [registers.others name same, found]

/-- A value stays until its name is registered again. -/
theorem value_registerAll (inStep : table.InStep) {calls : List (String × Value)} {value : Value}
    (known : table.index[name]? = some place) (isValue : table.values[place]? = some value)
    (others : ∀ call ∈ calls, call.1 ≠ name) :
    (table.registerAll calls).values[place]? = some value := by
  induction calls generalizing table with
  | nil => exact isValue
  | cons call calls inductionHypothesis =>
      obtain ⟨different, others⟩ := List.forall_mem_cons.1 others
      have after := inStep.register call.1 call.2
      have registers := inStep.registers call.1 call.2
      have still := (registers.others name different.symm).trans known
      have apart : place ≠ (table.register call.1 call.2).2 := by
        intro same
        have here := (after.index _ _).1 still
        have there := (after.index _ _).1 registers.index
        rw [same, there] at here
        exact different (Option.some.inj here)
      exact inductionHypothesis after still ((registers.values place apart).trans isValue) others

/-- Names that are not registered are not found. -/
theorem unregistered (inStep : table.InStep) {calls : List (String × Value)}
    (new : table.index[name]? = none) (others : ∀ call ∈ calls, call.1 ≠ name) :
    (table.registerAll calls).index[name]? = none := by
  induction calls generalizing table with
  | nil => exact new
  | cons call calls inductionHypothesis =>
      obtain ⟨different, others⟩ := List.forall_mem_cons.1 others
      refine inductionHypothesis (inStep.register call.1 call.2) ?_ others
      rw [(inStep.registers call.1 call.2).others name different.symm, new]

end InStep

end Calls

end Table

/-! ### Vocabularies that stand for tables -/

/-- The vocabulary stands for the table. -/
structure Presents (vocabulary : Vocabulary) (table : Table) : Prop where
  names : vocabulary.entries.map Prod.fst = table.names
  values : vocabulary.values = table.values

section Presentation

variable {vocabulary : Vocabulary} {table : Table}

theorem Presents.size (presents : vocabulary.Presents table) :
    vocabulary.size = table.values.size := by
  rw [← vocabulary.size_values, presents.values]

/-- A word is looked up where the index finds it. -/
theorem Presents.lookup (presents : vocabulary.Presents table) (inStep : table.InStep)
    (name : String) : vocabulary.lookup name = table.index[name]? := by
  have stands (place : Nat) (inside : place < vocabulary.entries.size) :
      table.index[vocabulary.entries[place].1]? = some place := by
    rw [inStep.index, ← presents.names, Array.getElem?_map, Array.getElem?_eq_getElem inside]
    rfl
  cases known : table.index[name]? with
  | some place =>
      have isName := (inStep.index name place).1 known
      rw [← presents.names, Array.getElem?_map] at isName
      obtain ⟨entry, isEntry, rfl⟩ := Option.map_eq_some_iff.1 isName
      obtain ⟨inside, rfl⟩ := Array.getElem?_eq_some_iff.1 isEntry
      refine Array.findIdx?_eq_some_iff_getElem.2 ⟨inside, beq_self_eq_true _, ?_⟩
      intro earlier before same
      have found := stands earlier (Nat.lt_trans before inside)
      rw [eq_of_beq same, known] at found
      exact absurd (Option.some.inj found) (Nat.ne_of_gt before)
  | none =>
      refine Array.findIdx?_eq_none_iff.2 fun entry member => ?_
      obtain ⟨place, inside, rfl⟩ := Array.mem_iff_getElem.1 member
      rw [beq_eq_false_iff_ne]
      rintro rfl
      cases known.symm.trans (stands place inside)

theorem Presents.empty : Vocabulary.empty.Presents .empty :=
  ⟨Array.map_empty, Array.map_empty⟩

/-- A call answers the same place, whether the vocabulary is kept as a table or not. -/
theorem Presents.register (presents : vocabulary.Presents table) (inStep : table.InStep)
    (name : String) (value : Value) :
    (vocabulary.register name value).1.Presents (table.register name value).1 ∧
      (vocabulary.register name value).2 = (table.register name value).2 := by
  have found := presents.lookup inStep name
  cases known : table.index[name]? with
  | some place =>
      rw [known] at found
      rw [Vocabulary.register, found, Table.register_known known]
      refine ⟨⟨?_, ?_⟩, rfl⟩
      · dsimp only
        rw [Array.map_setIfInBounds, presents.names]
        refine Array.ext_getElem? fun other => ?_
        rw [Array.getElem?_setIfInBounds]
        split
        · next same =>
            subst same
            have isName := (inStep.index name place).1 known
            rw [if_pos (Array.getElem?_eq_some_iff.1 isName).1, isName]
        · rfl
      · dsimp only
        rw [← presents.values, Vocabulary.values, Array.map_setIfInBounds]
        rfl
  | none =>
      rw [known] at found
      rw [Vocabulary.register, found, Table.register_new known]
      refine ⟨⟨?_, ?_⟩, presents.size⟩
      · rw [Array.map_push, presents.names]
      · rw [Vocabulary.values, Array.map_push]
        exact congrArg (·.push value) presents.values

theorem Presents.registerAll (presents : vocabulary.Presents table) (inStep : table.InStep)
    (calls : List (String × Value)) :
    (vocabulary.registerAll calls).Presents (table.registerAll calls) := by
  induction calls generalizing vocabulary table with
  | nil => exact presents
  | cons call calls inductionHypothesis =>
      exact inductionHypothesis (presents.register inStep call.1 call.2).1
        (inStep.register call.1 call.2)

/-- Further calls make a larger vocabulary. -/
theorem Presents.extends (presents : vocabulary.Presents table) (inStep : table.InStep)
    (calls : List (String × Value)) : (vocabulary.registerAll calls).Extends vocabulary := by
  intro word place known
  obtain ⟨after, keeps⟩ := inStep.registerAll calls
  rw [presents.lookup inStep] at known
  rw [(presents.registerAll inStep calls).lookup after]
  exact keeps word place known

end Presentation

/-! ### The standard vocabulary -/

/-- New words come one after the other. -/
theorem registerAll_of_new {vocabulary : Vocabulary} {calls : List (String × Value)}
    (distinct : (calls.map Prod.fst).Nodup)
    (new : ∀ call ∈ calls, vocabulary.lookup call.1 = none) :
    vocabulary.registerAll calls = ⟨vocabulary.entries ++ calls.toArray⟩ := by
  induction calls generalizing vocabulary with
  | nil => exact congrArg mk Array.append_empty.symm
  | cons call calls inductionHypothesis =>
      obtain ⟨first, later⟩ := List.forall_mem_cons.1 new
      obtain ⟨apart, distinct⟩ := List.nodup_cons.1 distinct
      have pushed : (vocabulary.register call.1 call.2).1 = ⟨vocabulary.entries.push call⟩ := by
        rw [register, first]
      have others : ∀ other ∈ calls,
          (⟨vocabulary.entries.push call⟩ : Vocabulary).lookup other.1 = none := by
        intro other member
        have different : ¬(call.1 == other.1) = true := fun same =>
          apart (eq_of_beq same ▸ List.mem_map_of_mem member)
        have none := later other member
        rw [lookup] at none ⊢
        rw [Array.findIdx?_push, none, if_neg different]
        rfl
      rw [registerAll, List.foldl_cons, pushed]
      refine (inductionHypothesis distinct others).trans (congrArg mk (Array.toList_inj.1 ?_))
      rw [Array.toList_append, Array.toList_push, Array.toList_append, List.append_assoc]
      rfl

/-- The standard vocabulary is made by calls. -/
theorem standardFrom_eq_ofCalls (stamp : Nat) :
    standardFrom stamp = ofCalls (standardCalls stamp) := by
  have glyphs : (Primitive.all.map fun primitive => String.singleton primitive.glyph).Nodup := by
    decide
  have names : (standardCalls stamp).map Prod.fst =
      Primitive.all.map fun primitive => String.singleton primitive.glyph := by
    rw [standardCalls, List.map_map, ← List.zipIdx_map_fst 0 Primitive.all, List.map_map]
    rfl
  have new : ∀ call ∈ standardCalls stamp, empty.lookup call.1 = none :=
    fun _ _ => Array.findIdx?_empty
  rw [ofCalls, registerAll_of_new (names ▸ glyphs) new]
  exact congrArg mk Array.empty_append.symm

/-! ### Places and programs -/

/-- After these calls every name has its place. -/
structure KeepsPlaces (calls : List (String × Value)) : Prop where
  inStep : (Table.ofCalls calls).InStep
  distinct : (Table.ofCalls calls).names.toList.Nodup
  presents : (ofCalls calls).Presents (Table.ofCalls calls)
  lookup : ∀ name, (ofCalls calls).lookup name = (Table.ofCalls calls).index[name]?
  /-- What one more call does. -/
  registers : ∀ name value,
    ((ofCalls calls).register name value).2 = ((Table.ofCalls calls).register name value).2 ∧
    (Table.ofCalls calls).Registers ((Table.ofCalls calls).register name value).1 name value
      ((Table.ofCalls calls).register name value).2
  /-- A name stands where it came to stand when it was new. -/
  first : ∀ earlier name value later, calls = earlier ++ (name, value) :: later →
    (∀ call ∈ earlier, call.1 ≠ name) →
    ((ofCalls earlier).register name value).2 = (ofCalls earlier).size ∧
    ∀ next, ((ofCalls calls).register name next).2 = (ofCalls earlier).size
  /-- A name has the value that was given last. -/
  latest : ∀ earlier name value later, calls = earlier ++ (name, value) :: later →
    (∀ call ∈ later, call.1 ≠ name) → (ofCalls calls).value? name = some value

section Places

theorem registerAll_append (vocabulary : Vocabulary) (calls more : List (String × Value)) :
    vocabulary.registerAll (calls ++ more) = (vocabulary.registerAll calls).registerAll more :=
  List.foldl_append

/-- The table after a call among others. -/
theorem Table.ofCalls_split (earlier later : List (String × Value)) (name : String)
    (value : Value) :
    ofCalls (earlier ++ (name, value) :: later) =
      ((ofCalls earlier).register name value).1.registerAll later :=
  List.foldl_append

theorem inStep_ofCalls (calls : List (String × Value)) : (Table.ofCalls calls).InStep :=
  (Table.InStep.empty.registerAll calls).1

theorem presents_ofCalls (calls : List (String × Value)) :
    (ofCalls calls).Presents (Table.ofCalls calls) :=
  Presents.empty.registerAll .empty calls

theorem first_ofCalls {earlier later : List (String × Value)} {name : String} {value : Value}
    (new : ∀ call ∈ earlier, call.1 ≠ name) :
    ((ofCalls earlier).register name value).2 = (ofCalls earlier).size ∧
    (Table.ofCalls (earlier ++ (name, value) :: later)).index[name]? =
      some (ofCalls earlier).size := by
  have inStep := inStep_ofCalls earlier
  have presents := presents_ofCalls earlier
  have unknown : (Table.ofCalls earlier).index[name]? = none :=
    Table.InStep.empty.unregistered Std.HashMap.getElem?_empty new
  have last : ((Table.ofCalls earlier).register name value).2 = (ofCalls earlier).size := by
    rw [Table.register_new unknown, presents.size]
  refine ⟨(presents.register inStep name value).2.trans last, ?_⟩
  have placed := (inStep.registers name value).index
  rw [Table.ofCalls_split]
  exact ((inStep.register name value).registerAll later).2 name _ (last ▸ placed)

theorem latest_ofCalls {earlier later : List (String × Value)} {name : String} {value : Value}
    (last : ∀ call ∈ later, call.1 ≠ name) :
    (ofCalls (earlier ++ (name, value) :: later)).value? name = some value := by
  have inStep := inStep_ofCalls earlier
  have registers := inStep.registers name value
  have after := inStep.register name value
  have placed := (after.registerAll later).2 name _ registers.index
  have stays := after.value_registerAll registers.index registers.value last
  rw [← Table.ofCalls_split] at placed stays
  have presents := presents_ofCalls (earlier ++ (name, value) :: later)
  rw [← presents.lookup (inStep_ofCalls _)] at placed
  obtain ⟨found, isValue, stored⟩ := value?_of_lookup placed
  rw [presents.values, stays] at stored
  exact isValue.trans stored.symm

theorem keepsPlaces (calls : List (String × Value)) : KeepsPlaces calls where
  inStep := inStep_ofCalls calls
  distinct := (inStep_ofCalls calls).nodup
  presents := presents_ofCalls calls
  lookup := (presents_ofCalls calls).lookup (inStep_ofCalls calls)
  registers name value :=
    ⟨((presents_ofCalls calls).register (inStep_ofCalls calls) name value).2,
      (inStep_ofCalls calls).registers name value⟩
  first := by
    rintro earlier name value later rfl new
    obtain ⟨answered, placed⟩ := @first_ofCalls earlier later name value new
    refine ⟨answered, fun next => ?_⟩
    have inStep := inStep_ofCalls (earlier ++ (name, value) :: later)
    rw [((presents_ofCalls _).register inStep name next).2]
    exact (inStep.registers name next).kept _ placed
  latest := by
    rintro earlier name value later rfl last
    exact latest_ofCalls last

end Places

/-- Names keep their places, whatever is registered, in a vocabulary that begins empty or as the
standard one. So a program pushes for each word the value of the time when it was compiled, and
compiled again after further calls it has the same code but for the places of literals. -/
theorem register_stable (calls : List (String × Value)) :
    KeepsPlaces calls ∧
    (∀ stamp, (standardFrom stamp).registerAll calls = ofCalls (standardCalls stamp ++ calls)) ∧
    ∀ (block : Block) (externals : List String) (program : Program),
      block.compile (ofCalls calls) externals = .ok program →
      ∃ code, program.PushesFrom code (ofCalls calls) block.pushesThroughout ∧
        ∀ later, let larger := ofCalls (calls ++ later)
          (∀ program', block.compile larger externals = .ok program' →
            program'.PushesFrom (code.map (Instruction.moved (ofCalls calls).size larger.size))
              larger block.pushesThroughout ∧
            program'.locations = program.locations ∧ program'.blocks = program.blocks ∧
            program'.externals = program.externals ∧ program'.globals = program.globals) ∧
          (larger.HasRoom block.pushesThroughout →
            ∃ program', block.compile larger externals = .ok program') := by
  refine ⟨keepsPlaces calls, fun stamp => ?_, fun block externals program compiled => ?_⟩
  · rw [standardFrom_eq_ofCalls, ofCalls, ofCalls, registerAll_append]
  · obtain ⟨code, pushes⟩ := Block.compile_pushes compiled
    refine ⟨code, pushes, fun later => ?_⟩
    have grows : (ofCalls (calls ++ later)).Extends (ofCalls calls) := by
      rw [ofCalls, registerAll_append]
      exact (presents_ofCalls calls).extends (inStep_ofCalls calls) later
    exact ⟨fun program' again => Block.compile_again grows compiled pushes again,
      (Block.compile_accompanies grows block externals program compiled).2⟩

/-- A program of two letters and two words, one of which has been registered behind the standard
vocabulary. -/
def doublingBlock : Block :=
  .mk [.mk (.expression (.callBoth (.primitive "+")
    (.call (.primitive "double") (.character 'a')) (.character 'b'))) none]

/-- Registrations behind the standard vocabulary, which replace one of its words. -/
def doublingCalls : List (String × Value) :=
  standardCalls 0 ++ [("double", .character 'd'), ("+", .character 'p')]

/-- Registrations that come when the program has been compiled. -/
def laterCalls : List (String × Value) :=
  [("double", .character 'e'), ("half", .character 'h')]

theorem register_stable_doubling :
    ((ofCalls doublingCalls).register "double" (.character 'f')).2 = (standardFrom 0).size ∧
    (ofCalls doublingCalls).value? "+" = some (.character 'p') ∧
    ∃ program program' code,
      doublingBlock.compile (ofCalls doublingCalls) [] = .ok program ∧
      doublingBlock.compile (ofCalls (doublingCalls ++ laterCalls)) [] = .ok program' ∧
      program.PushesFrom code (ofCalls doublingCalls)
        [.literal (.character 'b'), .word "+", .literal (.character 'a'), .word "double"] ∧
      program'.PushesFrom
        (code.map (Instruction.moved (ofCalls doublingCalls).size
          (ofCalls (doublingCalls ++ laterCalls)).size))
        (ofCalls (doublingCalls ++ laterCalls))
        [.literal (.character 'b'), .word "+", .literal (.character 'a'), .word "double"] := by
  obtain ⟨keeps, _, compiles⟩ := register_stable doublingCalls
  have size : ofCalls (standardCalls 0) = standardFrom 0 := (standardFrom_eq_ofCalls 0).symm
  have isOk : (doublingBlock.compile (ofCalls doublingCalls) []).isOk = true := by decide +kernel
  obtain ⟨program, compiled⟩ := Outcome.exists_of_isOk isOk
  obtain ⟨code, pushes, later⟩ := compiles doublingBlock [] program compiled
  obtain ⟨again, exists'⟩ := later laterCalls
  obtain ⟨program', compiled'⟩ := exists' (by decide +kernel)
  refine ⟨?_, keeps.latest (standardCalls 0 ++ [("double", .character 'd')]) "+" (.character 'p') []
      (by rw [List.append_assoc]; rfl) nofun,
    program, program', code, compiled, compiled', pushes, (again program' compiled').1⟩
  rw [← size]
  exact (keeps.first (standardCalls 0) "double" (.character 'd') [("+", .character 'p')] rfl
    (by decide +kernel)).2 _

end Vocabulary

end PointFree
