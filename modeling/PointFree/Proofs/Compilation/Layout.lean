import PointFree.Program.Listing
import PointFree.Proofs.Compilation.Loading
import PointFree.Proofs.Stepping.Code

/-!
Contract: where the blocks of a compiled program stand.

The code of the blocks stands end to end in the order of their numbers, from the first word to the
last. Each block is the lowering of the body of its task, and ends at the first instruction of it
that returns; so what a block is read as from its start are all its words, up to the start of the
next block. Beside each word stands the span of the statement that it was emitted for.

The listing goes through the words from the first to the last and knows nothing of blocks but their
starts. Over code that is laid out, it is always at the first word of an instruction where it looks
for one. So it shows each instruction of each block once, with its operands, after a heading that
stands before the first instruction of the block.
-/

namespace PointFree

/-! ### Code that ends where it returns -/

def IsReturning (code : List Instruction) : Prop :=
  ∃ body, code = body ++ [.finish] ∧ Instruction.finish ∉ body

theorem IsReturning.append {first second : List Instruction} (goes : Instruction.finish ∉ first)
    (returns : IsReturning second) : IsReturning (first ++ second) := by
  obtain ⟨body, rfl, others⟩ := returns
  refine ⟨first ++ body, (List.append_assoc ..).symm, fun member => ?_⟩
  exact (List.mem_append.1 member).elim goes others

theorem IsReturning.finish_mem {code : List Instruction} (returns : IsReturning code) :
    Instruction.finish ∈ code := by
  obtain ⟨body, rfl, _⟩ := returns
  exact List.mem_append_right body (List.mem_singleton_self _)

theorem IsPlainCode.finish_notMem {code : List Instruction} (plain : IsPlainCode code) :
    Instruction.finish ∉ code :=
  fun member => (plain _ member).1 rfl

theorem Statement.Lowers.isReturning {site : Site} {scope whole : Scope}
    {statements : List Statement} {placed : List Marked} {steps : List Step}
    (lowers : Statement.Lowers site scope statements whole placed steps) :
    IsReturning (placed.map Prod.fst) := by
  induction lowers with
  | finish clause =>
      rw [map_placedAt]
      exact ⟨_, rfl, clause.isPlain.finish_notMem⟩
  | evaluate clause _ inductionHypothesis =>
      rw [List.map_append, map_placedAt]
      refine .append (fun member => ?_) inductionHypothesis
      rcases List.mem_append.1 member with inside | last
      · exact clause.isPlain.finish_notMem inside
      · cases List.mem_singleton.1 last
  | guard test fallback _ inductionHypothesis =>
      rw [List.map_append, map_placedAt]
      refine .append (fun member => ?_) inductionHypothesis
      rcases List.mem_append.1 member with inside | last
      · rcases List.mem_append.1 inside with inside | inside
        · rcases List.mem_append.1 inside with inside | last
          · exact test.isPlain.finish_notMem inside
          · cases List.mem_singleton.1 last
        · exact fallback.isPlain.finish_notMem inside
      · cases List.mem_singleton.1 last

theorem Block.Lowers.isReturning {site : Site} {scope whole : Scope} {block : Block}
    {placed : List Marked} {steps : List Step}
    (lowers : block.Lowers site scope whole placed steps) : IsReturning (placed.map Prod.fst) := by
  cases lowers with
  | empty => exact ⟨[.push _], rfl, by simp⟩
  | statements lowers => exact lowers.isReturning

/-- Code that returns at its end is known by how it is read. -/
theorem IsReturning.eq_of_ofList {code code' : List Instruction} (returns : IsReturning code)
    (returns' : IsReturning code') {position : Nat}
    (same : Reading.ofList position code = Reading.ofList position code') : code = code' := by
  obtain ⟨body, rfl, others⟩ := returns
  obtain ⟨body', rfl, others'⟩ := returns'
  refine congrArg (· ++ [Instruction.finish]) ?_
  induction body generalizing body' position with
  | nil =>
      cases body' with
      | nil => rfl
      | cons instruction body' =>
          rw [List.cons_append, Reading.ofList_cons (List.ne_of_not_mem_cons others').symm] at same
          cases same
  | cons instruction body inductionHypothesis =>
      have goes := (List.ne_of_not_mem_cons others).symm
      cases body' with
      | nil =>
          rw [List.cons_append, Reading.ofList_cons goes] at same
          cases same
      | cons instruction' body' =>
          rw [List.cons_append, List.cons_append, Reading.ofList_cons goes,
            Reading.ofList_cons (List.ne_of_not_mem_cons others').symm] at same
          injection same with _ first rest
          subst first
          rw [inductionHypothesis (List.not_mem_of_not_mem_cons others) body'
            (List.not_mem_of_not_mem_cons others') rest]

/-! ### Code end to end -/

namespace Marked

/-- The words of marked instructions. -/
def words (placed : List Marked) : List UInt32 :=
  placed.flatMap fun entry => entry.1.words

/-- The statement of each of these words. -/
def origins (placed : List Marked) : List (Option Span) :=
  placed.flatMap Marked.spans

theorem length_words (placed : List Marked) :
    (words placed).length = codeWidth (placed.map Prod.fst) := by
  rw [words, List.length_flatMap, codeWidth, List.map_map]
  exact congrArg List.sum (List.map_congr_left fun entry _ => entry.1.length_words)

theorem length_origins (placed : List Marked) :
    (origins placed).length = codeWidth (placed.map Prod.fst) := by
  rw [origins, List.length_flatMap, codeWidth, List.map_map]
  exact congrArg List.sum (List.map_congr_left fun entry _ => List.length_replicate)

end Marked

/-- Where pieces of code start that stand end to end from a position on. -/
def startsFrom : (position : Nat) → List (List Marked) → List Nat
  | _, [] => []
  | position, placed :: rest =>
      position :: startsFrom (position + codeWidth (placed.map Prod.fst)) rest

theorem length_startsFrom (position : Nat) (codes : List (List Marked)) :
    (startsFrom position codes).length = codes.length := by
  induction codes generalizing position with
  | nil => rfl
  | cons placed rest inductionHypothesis => exact congrArg (· + 1) (inductionHypothesis _)

theorem getElem?_startsFrom (position : Nat) {codes : List (List Marked)} {index : Nat}
    (inside : index < codes.length) :
    (startsFrom position codes)[index]? =
      some (position + ((codes.take index).flatMap Marked.words).length) := by
  induction codes generalizing position index with
  | nil => cases inside
  | cons placed rest inductionHypothesis =>
      cases index with
      | zero => rfl
      | succ index =>
          rw [startsFrom, List.getElem?_cons_succ,
            inductionHypothesis _ (Nat.lt_of_succ_lt_succ inside),
            List.take_succ_cons, List.flatMap_cons, List.length_append, Marked.length_words,
            Nat.add_assoc]

theorem le_of_mem_startsFrom {position start : Nat} {codes : List (List Marked)}
    (member : start ∈ startsFrom position codes) : position ≤ start := by
  induction codes generalizing position with
  | nil => cases member
  | cons placed rest inductionHypothesis =>
      rcases List.mem_cons.1 member with rfl | later
      · exact Nat.le_refl _
      · exact Nat.le_of_add_right_le (inductionHypothesis later)

theorem IsReturning.width_pos {code : List Instruction} (returns : IsReturning code) :
    0 < codeWidth code := by
  obtain ⟨body, rfl, _⟩ := returns
  rw [codeWidth_append, codeWidth_singleton]
  exact Nat.lt_of_lt_of_le Nat.zero_lt_one (Nat.le_add_left _ _)

/-- Code that returns takes up words, so what stands after it starts later. -/
theorem pairwise_startsFrom (position : Nat) {codes : List (List Marked)}
    (returns : ∀ placed ∈ codes, IsReturning (placed.map Prod.fst)) :
    (startsFrom position codes).Pairwise (· < ·) := by
  induction codes generalizing position with
  | nil => exact .nil
  | cons placed rest inductionHypothesis =>
      obtain ⟨here, later⟩ := List.forall_mem_cons.1 returns
      refine .cons (fun start member => ?_) (inductionHypothesis _ later)
      have behind := le_of_mem_startsFrom member
      have wide := here.width_pos
      omega

theorem startsFrom_concat (position : Nat) (codes : List (List Marked)) (placed : List Marked) :
    startsFrom position (codes ++ [placed]) =
      startsFrom position codes ++ [position + (codes.flatMap Marked.words).length] := by
  induction codes generalizing position with
  | nil => rfl
  | cons first rest inductionHypothesis =>
      rw [List.cons_append, startsFrom, inductionHypothesis, startsFrom, List.cons_append,
        List.flatMap_cons, List.length_append, Marked.length_words, Nat.add_assoc]

/-- Pieces of code stand end to end from the first word to the last, and each returns at its end. -/
structure LaidOut (code : List UInt32) (locations : List (Option Span)) (starts : List Nat)
    (codes : List (List Marked)) : Prop where
  code : code = codes.flatMap Marked.words
  locations : locations = codes.flatMap Marked.origins
  starts : starts = startsFrom 0 codes
  fits : ∀ placed ∈ codes, ∀ entry ∈ placed, entry.1.Fits
  returns : ∀ placed ∈ codes, IsReturning (placed.map Prod.fst)

/-- One more piece of code at the end. -/
theorem LaidOut.concat {code : List UInt32} {locations : List (Option Span)} {starts : List Nat}
    {codes : List (List Marked)} (laidOut : LaidOut code locations starts codes)
    {placed : List Marked} (fits : ∀ entry ∈ placed, entry.1.Fits)
    (returns : IsReturning (placed.map Prod.fst)) :
    LaidOut (code ++ Marked.words placed) (locations ++ Marked.origins placed)
      (starts ++ [code.length]) (codes ++ [placed]) where
  code := by rw [List.flatMap_append, List.flatMap_singleton, laidOut.code]
  locations := by rw [List.flatMap_append, List.flatMap_singleton, laidOut.locations]
  starts := by rw [startsFrom_concat, Nat.zero_add, laidOut.starts, laidOut.code]
  fits := List.forall_mem_append.2 ⟨laidOut.fits, List.forall_mem_singleton.2 fits⟩
  returns := List.forall_mem_append.2 ⟨laidOut.returns, List.forall_mem_singleton.2 returns⟩

/-- The blocks of an assembly, with the values that are known by name in its pool. -/
structure Assembly.IsLaidOut (vocabulary : Vocabulary) (assembly : Assembly)
    (codes : List (List Marked)) : Prop where
  known : vocabulary.values.toList <+: assembly.constants.toList
  laidOut : LaidOut assembly.code.toList assembly.locations.toList
    (assembly.blocks.map BlockEntry.start) codes

theorem Assembly.IsLaidOut.start (vocabulary : Vocabulary) :
    (Assembly.start vocabulary).IsLaidOut vocabulary [] where
  known := List.prefix_rfl
  laidOut := ⟨rfl, rfl, rfl, nofun, nofun⟩

/-- One task adds a piece of code. -/
theorem Assembly.IsLaidOut.perform {vocabulary : Vocabulary} {assembly after : Assembly}
    {codes : List (List Marked)} (isLaidOut : assembly.IsLaidOut vocabulary codes) {task : Task}
    {new : List Task} {whole : Scope}
    (performed : assembly.perform vocabulary task = .ok (after, new, whole)) :
    ∃ placed, after.IsLaidOut vocabulary (codes ++ [placed]) := by
  obtain ⟨located, between, bodies, emits, lays, rfl, rfl⟩ := Assembly.perform_eq_ok performed
  obtain ⟨placed, laid, rfl⟩ := Laid.foldlM lays
  have known : vocabulary.values.toList <+: between.constants.toList :=
    isLaidOut.known.trans laid.constants
  have provided : Site.Known ⟨vocabulary, between.constants, task.outer, fun number body =>
      assembly.numbered ≤ number ∧ (mentioned located)[number - assembly.numbered]? = some body⟩ :=
    fun _ _ => getElem?_of_isPrefix known
  obtain ⟨steps, lowers⟩ := Block.emit_lowers provided emits laid.fills
  refine ⟨placed, known, ?_⟩
  have added := isLaidOut.laidOut.concat laid.fits lowers.isReturning
  rw [Marked.words, ← laid.code, Marked.origins, ← laid.locations] at added
  rw [laid.blocks, List.map_append]
  exact added

theorem Assembly.IsLaidOut.performAll {vocabulary : Vocabulary} {budget : Nat}
    {assembly final : Assembly} {codes : List (List Marked)} {waiting : List Task}
    (isLaidOut : assembly.IsLaidOut vocabulary codes)
    (performed : Assembly.performAll vocabulary budget assembly waiting = .ok final) :
    ∃ all, final.IsLaidOut vocabulary all := by
  induction budget generalizing assembly codes waiting with
  | zero =>
      cases performed
      exact ⟨codes, isLaidOut⟩
  | succ budget inductionHypothesis =>
      cases waiting with
      | nil =>
          cases performed
          exact ⟨codes, isLaidOut⟩
      | cons task waiting =>
          obtain ⟨⟨after, new, whole⟩, first, performed⟩ := Outcome.bind_eq_ok.1 performed
          obtain ⟨placed, added⟩ := isLaidOut.perform first
          exact inductionHypothesis added performed

/-! ### The blocks of a program -/

/-- Where the words of a block end: at the start of the next block, or at the end of the code. -/
def Program.blockEnd (program : Program) (index : Nat) : Nat :=
  ((program.blocks.map BlockEntry.start)[index + 1]?).getD program.code.size

/-- The code stands at the place of a block and fills it, each word with the statement that it was
emitted for, and it returns with its last instruction and with no other. -/
structure Program.IsBlockCode (program : Program) (vocabulary : Vocabulary) (tasks : List Task)
    (index : Nat) (entry : BlockEntry) (placed : List Marked) : Prop where
  words : (program.code.toList.take (program.blockEnd index)).drop entry.start = Marked.words placed
  origins : (program.locations.toList.take (program.blockEnd index)).drop entry.start =
    Marked.origins placed
  fits : ∀ instruction ∈ placed, instruction.1.Fits
  returns : IsReturning (placed.map Prod.fst)
  holds : ∃ task whole steps, tasks[index]? = some task ∧
    program.Holds vocabulary tasks index entry task whole placed steps

/-- The words of a program are those of its blocks, one block after the other. -/
structure Program.IsDivided (program : Program) (vocabulary : Vocabulary) (tasks : List Task)
    (codes : List (List Marked)) : Prop where
  taskCount : tasks.length = program.blocks.length
  codeCount : codes.length = program.blocks.length
  first : (program.blocks.map BlockEntry.start).head? = some 0
  increasing : (program.blocks.map BlockEntry.start).Pairwise (· < ·)
  parallel : program.locations.size = program.code.size
  block : ∀ (index : Nat) (entry : BlockEntry) (placed : List Marked),
    program.blocks[index]? = some entry → codes[index]? = some placed →
    program.IsBlockCode vocabulary tasks index entry placed

section Division

variable {code : List UInt32} {locations : List (Option Span)} {starts : List Nat}
variable {codes : List (List Marked)} {index : Nat} {placed : List Marked}

/-- The middle of a list by where it begins and where it ends. -/
theorem drop_take_of_append {α : Type} {all before middle after : List α} {start : Nat}
    (whole : all = before ++ middle ++ after) (length : before.length = start) :
    (all.take (start + middle.length)).drop start = middle := by
  rw [whole, List.take_left' (by rw [List.length_append, length]), List.drop_left' length]

theorem LaidOut.split (laidOut : LaidOut code locations starts codes)
    (found : codes[index]? = some placed) :
    ∃ before after before' after', code = before ++ Marked.words placed ++ after ∧
      locations = before' ++ Marked.origins placed ++ after' ∧ before'.length = before.length ∧
      starts[index]? = some before.length ∧
      (starts[index + 1]?).getD code.length = before.length + (Marked.words placed).length := by
  obtain ⟨inside, rfl⟩ := List.getElem?_eq_some_iff.1 found
  have pieces : codes = codes.take index ++ (codes[index] :: codes.drop (index + 1)) := by
    rw [← List.drop_eq_getElem_cons, List.take_append_drop]
  have widths : ((codes.take index).flatMap Marked.origins).length =
      ((codes.take index).flatMap Marked.words).length := by
    rw [List.length_flatMap, List.length_flatMap]
    refine congrArg List.sum (List.map_congr_left fun entry _ => ?_)
    rw [Marked.length_origins, Marked.length_words]
  have whole : code = (codes.take index).flatMap Marked.words ++ Marked.words codes[index] ++
      (codes.drop (index + 1)).flatMap Marked.words := by
    rw [laidOut.code]
    conv_lhs => rw [pieces]
    rw [List.flatMap_append, List.flatMap_cons, List.append_assoc]
  refine ⟨_, _, (codes.take index).flatMap Marked.origins,
    (codes.drop (index + 1)).flatMap Marked.origins, whole, ?_, widths, ?_, ?_⟩
  · rw [laidOut.locations]
    conv_lhs => rw [pieces]
    rw [List.flatMap_append, List.flatMap_cons, List.append_assoc]
  · rw [laidOut.starts, getElem?_startsFrom 0 inside, Nat.zero_add]
  · by_cases later : index + 1 < codes.length
    · rw [laidOut.starts, getElem?_startsFrom 0 later, Nat.zero_add, Option.getD_some,
        List.take_succ_eq_append_getElem inside, List.flatMap_append, List.flatMap_singleton,
        List.length_append]
    · have none : starts[index + 1]? = none := by
        rw [laidOut.starts, List.getElem?_eq_none]
        rw [length_startsFrom]
        omega
      have last : codes.drop (index + 1) = [] := List.drop_eq_nil_of_le (by omega)
      rw [none, Option.getD_none, whole, last, List.flatMap_nil, List.append_nil,
        List.length_append]

end Division

/-- Two lists of marked instructions, at one position, whose words know the same statements. -/
theorem Spanned.eq_of_map {locate : Nat → Option Span} {position : Nat}
    {placed placed' : List Marked} (spanned : Spanned locate position placed)
    (spanned' : Spanned locate position placed')
    (same : placed.map Prod.fst = placed'.map Prod.fst) : placed = placed' := by
  induction placed generalizing position placed' with
  | nil =>
      cases placed' with
      | nil => rfl
      | cons => cases same
  | cons first rest inductionHypothesis =>
      cases placed' with
      | nil => cases same
      | cons first' rest' =>
          obtain ⟨here, later⟩ := spanned
          obtain ⟨here', later'⟩ := spanned'
          obtain ⟨instructions, others⟩ := List.cons.inj same
          rw [← instructions] at later'
          rw [inductionHypothesis later later' others,
            Prod.ext instructions (here.symm.trans here')]

/-- A program that is compiled and laid out is divided into its blocks. -/
theorem Program.IsCompiled.isDivided {program : Program} {vocabulary : Vocabulary}
    {tasks : List Task} {codes : List (List Marked)}
    (compiled : program.IsCompiled vocabulary tasks) (filled : tasks ≠ [])
    (parallel : program.locations.size = program.code.size)
    (laidOut : LaidOut program.code.toList program.locations.toList
      (program.blocks.map BlockEntry.start) codes) :
    program.IsDivided vocabulary tasks codes := by
  have count : codes.length = program.blocks.length := by
    rw [← length_startsFrom 0, ← laidOut.starts, List.length_map]
  refine ⟨compiled.blocks.symm, count, ?_, ?_, parallel, ?_⟩
  · rw [laidOut.starts]
    cases codes with
    | nil => exact absurd (List.length_eq_zero_iff.1 (compiled.blocks.symm.trans count.symm)) filled
    | cons placed rest => rfl
  · rw [laidOut.starts]
    exact pairwise_startsFrom 0 laidOut.returns
  · intro index entry placed isEntry isPlaced
    have member := List.mem_of_getElem? isPlaced
    have returns := laidOut.returns placed member
    obtain ⟨before, after, before', after', code, locations, length, start, ends⟩ :=
      laidOut.split isPlaced
    rw [List.getElem?_map, isEntry] at start
    have start : entry.start = before.length := Option.some.inj start
    have fits := laidOut.fits placed member
    have standing : Standing program.code.toList program.locations.toList entry.start placed :=
      ⟨⟨before, after, start.symm, code⟩,
        ⟨before', after', length.trans start.symm, locations⟩, fits⟩
    obtain ⟨task, whole, placed', steps, isTask, holds⟩ := compiled.holds index entry isEntry
    -- Both are read at the start of the block, so the code laid out is the one that is lowered.
    have sameCode : placed'.map Prod.fst = placed.map Prod.fst :=
      holds.lowers.isReturning.eq_of_ofList returns
        (holds.reading.symm.trans (reading_of_standing standing returns.finish_mem))
    obtain rfl : placed' = placed :=
      holds.spanned.eq_of_map (spanned_of_standing standing) sameCode
    have blockEnd : program.blockEnd index = entry.start + (Marked.words placed').length := by
      rw [blockEnd, start, ← ends, Array.length_toList]
    refine ⟨?_, ?_, fits, returns, task, whole, steps, isTask, holds⟩
    · rw [blockEnd]
      exact drop_take_of_append code start.symm
    · rw [blockEnd, Marked.length_words, ← Marked.length_origins]
      exact drop_take_of_append locations (length.trans start.symm)

theorem Block.compile_laidOut {block : Block} {vocabulary : Vocabulary} {externals : List String}
    {program : Program} (compiled : block.compile vocabulary externals = .ok program) :
    ∃ codes, LaidOut program.code.toList program.locations.toList
      (program.blocks.map BlockEntry.start) codes := by
  obtain ⟨scope, _, compiled⟩ := Outcome.bind_eq_ok.1 compiled
  obtain ⟨⟨after, new, whole⟩, first, compiled⟩ := Outcome.bind_eq_ok.1 compiled
  obtain ⟨assembly, performed, done⟩ := Outcome.bind_eq_ok.1 compiled
  cases done
  obtain ⟨placed, added⟩ := (Assembly.IsLaidOut.start vocabulary).perform first
  obtain ⟨codes, ended⟩ := added.performAll performed
  exact ⟨codes, ended.laidOut⟩

/-- A compiled program is divided into the code of its blocks, the first of which is the whole. -/
theorem Block.compile_isDivided {block : Block} {vocabulary : Vocabulary} {externals : List String}
    {program : Program} (compiled : block.compile vocabulary externals = .ok program) :
    ∃ tasks codes, tasks.head? = some ⟨block, [], externals⟩ ∧
      LaidOut program.code.toList program.locations.toList
        (program.blocks.map BlockEntry.start) codes ∧
      program.IsDivided vocabulary tasks codes := by
  obtain ⟨codes, laidOut⟩ := Block.compile_laidOut compiled
  obtain ⟨assembly, tasks, _, whole, assembled, isFirst, _, _, rfl⟩ := Block.compile_eq_ok compiled
  have isFirst : tasks.head? = some ⟨block, [], externals⟩ := by
    rw [List.head?_eq_getElem?, isFirst]
  have filled : tasks ≠ [] := by
    rintro rfl
    cases isFirst
  exact ⟨tasks, codes, isFirst, laidOut,
    (assembled.isCompiled _ _).isDivided filled assembled.parallel laidOut⟩

/-! ### The listing -/

/-- The lines that show instructions from a position on. -/
def linesFrom : (position : Nat) → List Instruction → List ListingLine
  | _, [] => []
  | position, instruction :: rest =>
      .instruction position instruction.opcode (instruction.operands.map Nat.toUInt32) ::
        linesFrom (position + instruction.width) rest

/-- The lines that show a block: its heading, and then its instructions. -/
def blockLines (index : Nat) (entry : BlockEntry) (placed : List Marked) : List ListingLine :=
  .heading ⟨entry.start, index, entry.frameSize⟩ :: linesFrom entry.start (placed.map Prod.fst)

section Sweep

variable {position : Nat} {heading : BlockHeading} {headings : List BlockHeading}
variable {rest : List UInt32}

/-- The operands belong to the line before. -/
theorem listingFrom_skip (operands : List UInt32) (position : Nat) :
    listingFrom operands.length position headings (operands ++ rest) =
      listingFrom 0 (position + operands.length) headings rest := by
  induction operands generalizing position with
  | nil => rfl
  | cons operand operands inductionHypothesis =>
      rw [List.length_cons, List.cons_append, listingFrom, inductionHypothesis, Nat.add_right_comm,
        Nat.add_assoc]

/-- A heading whose block starts no later than here comes first. -/
theorem listingFrom_due (due : heading.start ≤ position) (filled : rest ≠ []) :
    listingFrom 0 position (heading :: headings) rest =
      .heading heading :: listingFrom 0 position headings rest := by
  obtain ⟨word, rest, rfl⟩ := List.exists_cons_of_ne_nil filled
  have taken : ((heading :: headings).takeWhile fun heading => heading.start ≤ position) =
      heading :: headings.takeWhile fun heading => heading.start ≤ position :=
    List.takeWhile_cons_of_pos (by simpa using due)
  have dropped : ((heading :: headings).dropWhile fun heading => heading.start ≤ position) =
      headings.dropWhile fun heading => heading.start ≤ position :=
    List.dropWhile_cons_of_pos (by simpa using due)
  rw [listingFrom, listingFrom, taken, dropped]
  rfl

/-- Before the next block starts, an instruction is shown on a line. -/
theorem listingFrom_words (instruction : Instruction)
    (later : ∀ heading ∈ headings, position < heading.start) :
    listingFrom 0 position headings (instruction.words ++ rest) =
      .instruction position instruction.opcode (instruction.operands.map Nat.toUInt32) ::
        listingFrom 0 (position + instruction.width) headings rest := by
  have skip : _ = listingFrom 0 _ headings rest :=
    listingFrom_skip (instruction.operands.map Nat.toUInt32) (position + 1)
  rw [List.length_map, Nat.add_assoc] at skip
  have none : (headings.takeWhile fun heading => heading.start ≤ position) = [] := by
    cases headings with
    | nil => rfl
    | cons heading headings =>
        have behind := later heading (.head _)
        exact List.takeWhile_cons_of_neg (by simpa using behind)
  have all : (headings.dropWhile fun heading => heading.start ≤ position) = headings := by
    cases headings with
    | nil => rfl
    | cons heading headings =>
        have behind := later heading (.head _)
        exact List.dropWhile_cons_of_neg (by simpa using behind)
  rw [Instruction.words, List.map_cons, List.cons_append, listingFrom, none, all,
    instruction.opcode_of_word]
  dsimp only
  rw [instruction.operandCount_opcode, skip, List.take_left' (List.length_map ..)]
  rfl

/-- Before the next block starts, instructions are shown line by line. -/
theorem listingFrom_code {code : List Instruction}
    (later : ∀ heading ∈ headings, position + codeWidth code ≤ heading.start) :
    listingFrom 0 position headings (code.flatMap Instruction.words ++ rest) =
      linesFrom position code ++ listingFrom 0 (position + codeWidth code) headings rest := by
  induction code generalizing position with
  | nil => rfl
  | cons instruction code inductionHypothesis =>
      have width : codeWidth (instruction :: code) = instruction.width + codeWidth code := rfl
      have wide : 0 < instruction.width := by
        rw [Instruction.width]
        omega
      rw [width] at later
      rw [List.flatMap_cons, List.append_assoc, listingFrom_words instruction fun heading member => by
          have behind := later heading member
          omega,
        inductionHypothesis fun heading member => by
          have behind := later heading member
          omega,
        width, Nat.add_assoc]
      rfl

end Sweep

/-- The headings of blocks that are numbered from an index on. -/
def headingsFrom (index : Nat) (blocks : List BlockEntry) : List BlockHeading :=
  (blocks.zipIdx index).map fun entry => ⟨entry.1.start, entry.2, entry.1.frameSize⟩

theorem starts_headingsFrom (index : Nat) (blocks : List BlockEntry) :
    (headingsFrom index blocks).map BlockHeading.start = blocks.map BlockEntry.start := by
  induction blocks generalizing index with
  | nil => rfl
  | cons entry rest inductionHypothesis =>
      exact congrArg (entry.start :: ·) (inductionHypothesis (index + 1))

/-- Blocks whose starts increase are in the order in which their headings are shown. -/
theorem Program.headings_of_increasing {program : Program}
    (increasing : (program.blocks.map BlockEntry.start).Pairwise (· < ·)) :
    program.headings = headingsFrom 0 program.blocks := by
  refine List.mergeSort_of_pairwise ?_
  rw [← starts_headingsFrom 0, List.pairwise_map] at increasing
  refine increasing.imp fun before => ?_
  rw [BlockHeading.precedes, decide_eq_true before, Bool.true_or]

/-- The sweep over blocks that stand end to end shows one block after the other. -/
theorem listingFrom_blocks {position index : Nat} {blocks : List BlockEntry}
    {codes : List (List Marked)} (starts : blocks.map BlockEntry.start = startsFrom position codes)
    (returns : ∀ placed ∈ codes, IsReturning (placed.map Prod.fst)) :
    listingFrom 0 position (headingsFrom index blocks) (codes.flatMap Marked.words) =
      ((blocks.zip codes).zipIdx index).flatMap fun block =>
        blockLines block.2 block.1.1 block.1.2 := by
  induction codes generalizing position index blocks with
  | nil =>
      rw [List.map_eq_nil_iff.1 starts]
      rfl
  | cons placed codes inductionHypothesis =>
      obtain ⟨here, later⟩ := List.forall_mem_cons.1 returns
      obtain ⟨entry, rest, rfl, start, others⟩ := List.map_eq_cons_iff.1 starts
      have words : Marked.words placed = (placed.map Prod.fst).flatMap Instruction.words :=
        (List.flatMap_map ..).symm
      have filled : Marked.words placed ++ codes.flatMap Marked.words ≠ [] := by
        intro empty
        have none := congrArg List.length (List.append_eq_nil_iff.1 empty).1
        rw [Marked.length_words] at none
        exact absurd none (Nat.ne_of_gt here.width_pos)
      have behind : ∀ heading ∈ headingsFrom (index + 1) rest,
          position + codeWidth (placed.map Prod.fst) ≤ heading.start := by
        intro heading member
        have isStart := List.mem_map_of_mem (f := BlockHeading.start) member
        rw [starts_headingsFrom, others] at isStart
        exact le_of_mem_startsFrom isStart
      have due : listingFrom 0 position (headingsFrom index (entry :: rest))
          (Marked.words placed ++ codes.flatMap Marked.words) =
          .heading ⟨entry.start, index, entry.frameSize⟩ ::
            listingFrom 0 position (headingsFrom (index + 1) rest)
              (Marked.words placed ++ codes.flatMap Marked.words) :=
        listingFrom_due (Nat.le_of_eq start) filled
      rw [List.flatMap_cons, due, words, listingFrom_code behind, inductionHypothesis others later,
        List.zip_cons_cons, List.zipIdx_cons, List.flatMap_cons, blockLines, start]
      rfl

/-- A program that is laid out is shown block by block. -/
theorem Program.listingLines_of_laidOut {program : Program} {codes : List (List Marked)}
    (laidOut : LaidOut program.code.toList program.locations.toList
      (program.blocks.map BlockEntry.start) codes) :
    program.listingLines = (program.blocks.zip codes).zipIdx.flatMap fun block =>
      blockLines block.2 block.1.1 block.1.2 := by
  have increasing := laidOut.starts ▸ pairwise_startsFrom 0 laidOut.returns
  rw [listingLines, headings_of_increasing increasing, laidOut.code]
  exact listingFrom_blocks laidOut.starts laidOut.returns

/-- The code of a compiled program is that of its blocks, one block after the other, and its
listing shows each block once, in the order of their numbers, and each instruction once. -/
theorem Block.compile_lists_blocks {block : Block} {vocabulary : Vocabulary}
    {externals : List String} {program : Program}
    (compiled : block.compile vocabulary externals = .ok program) :
    ∃ tasks codes, tasks.head? = some ⟨block, [], externals⟩ ∧
      program.IsDivided vocabulary tasks codes ∧
      program.listingLines = (program.blocks.zip codes).zipIdx.flatMap fun block =>
        blockLines block.2 block.1.1 block.1.2 := by
  obtain ⟨tasks, codes, isFirst, laidOut, divided⟩ := Block.compile_isDivided compiled
  exact ⟨tasks, codes, isFirst, divided, Program.listingLines_of_laidOut laidOut⟩

theorem Block.compile_lists_blocks_callingBlock :
    ∃ program, callingBlock.compile .empty [] = .ok program ∧
    ∃ tasks codes, tasks.head? = some ⟨callingBlock, [], []⟩ ∧
      program.IsDivided .empty tasks codes ∧
      program.listingLines = (program.blocks.zip codes).zipIdx.flatMap fun block =>
        blockLines block.2 block.1.1 block.1.2 := by
  obtain ⟨program, compiled⟩ := Outcome.exists_of_isOk callingBlock_isOk
  exact ⟨program, compiled, Block.compile_lists_blocks compiled⟩

end PointFree
