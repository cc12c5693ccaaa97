import PointFree.Program.Assembly
import PointFree.Proofs.Compilation.Emission
import PointFree.Proofs.Compilation.Replay

/-!
Contract: instructions as words.

Laid down instructions are read back as they were, as long as their operands fit in
a word, and each word knows the statement it belongs to. `Laid` says what laying
down a list of instructions does to a program in the making; it composes, so the
run over the whole list follows from a single instruction.
-/

namespace PointFree

namespace Instruction

def words (instruction : Instruction) : List UInt32 :=
  (instruction.opcode.code :: instruction.operands).map Nat.toUInt32

def Fits (instruction : Instruction) : Prop :=
  ∀ operand ∈ instruction.operands, operand < operandLimit

theorem length_words (instruction : Instruction) :
    instruction.words.length = instruction.width := by
  rw [words, List.length_map, List.length_cons, width, Nat.add_comm]

theorem toNat_toUInt32 {operand : Nat} (small : operand < operandLimit) :
    operand.toUInt32.toNat = operand :=
  Nat.mod_eq_of_lt small

theorem opcode_of_word (instruction : Instruction) :
    Opcode.ofCode? instruction.opcode.code.toUInt32.toNat = some instruction.opcode := by
  rw [toNat_toUInt32 (by cases instruction.opcode <;> decide)]
  exact Opcode.ofCode?_code _

theorem operandCount_opcode (instruction : Instruction) :
    instruction.opcode.operandCount = instruction.operands.length := by
  cases instruction <;> rfl

theorem complete_operands {instruction : Instruction} (fits : instruction.Fits)
    (rest : List UInt32) :
    complete? instruction.opcode (instruction.operands.map Nat.toUInt32 ++ rest) =
      some instruction := by
  have same {operand : Nat} (member : operand ∈ instruction.operands) :
      operand.toUInt32.toNat = operand :=
    toNat_toUInt32 (fits operand member)
  cases instruction with
  | load depth slot =>
      exact congrArg₂ (fun depth slot => some (load depth slot)) (same (by simp [operands]))
        (same (by simp [operands]))
  | place depth slot =>
      exact congrArg₂ (fun depth slot => some (place depth slot)) (same (by simp [operands]))
        (same (by simp [operands]))
  | push operand => exact congrArg (fun operand => some (push operand)) (same (by simp [operands]))
  | closure operand =>
      exact congrArg (fun operand => some (closure operand)) (same (by simp [operands]))
  | list operand => exact congrArg (fun operand => some (list operand)) (same (by simp [operands]))
  | places operand =>
      exact congrArg (fun operand => some (places operand)) (same (by simp [operands]))
  | modifyOne operand =>
      exact congrArg (fun operand => some (modifyOne operand)) (same (by simp [operands]))
  | modifyTwo operand =>
      exact congrArg (fun operand => some (modifyTwo operand)) (same (by simp [operands]))
  | _ => rfl

end Instruction

namespace Reading

theorem ofWords_skip (operands rest : List UInt32) (position : Nat) :
    ofWords operands.length position (operands ++ rest) =
      ofWords 0 (position + operands.length) rest := by
  induction operands generalizing position with
  | nil => rfl
  | cons operand operands inductionHypothesis =>
      rw [List.length_cons, List.cons_append, ofWords, inductionHypothesis, Nat.add_right_comm,
        Nat.add_assoc]

theorem ofWords_finish (position : Nat) (rest : List UInt32) :
    ofWords 0 position (Instruction.finish.words ++ rest) = .finish position :=
  rfl

theorem ofWords_words {instruction : Instruction} (goes : instruction ≠ .finish)
    (fits : instruction.Fits) (position : Nat) (rest : List UInt32) :
    ofWords 0 position (instruction.words ++ rest) =
      .next position instruction (ofWords 0 (position + instruction.width) rest) := by
  have skip := ofWords_skip (instruction.operands.map Nat.toUInt32) rest (position + 1)
  rw [List.length_map, Nat.add_assoc] at skip
  rw [Instruction.words, List.map_cons, List.cons_append, ofWords, instruction.opcode_of_word]
  dsimp only
  rw [Instruction.complete_operands fits, instruction.operandCount_opcode, skip]
  cases instruction with
  | finish => exact absurd rfl goes
  | _ => rfl

/-- Laid down code is read back up to the instruction that returns. -/
theorem ofWords_flatMap {code : List Instruction}
    (fits : ∀ instruction ∈ code, instruction.Fits) (returns : Instruction.finish ∈ code)
    (position : Nat) (rest : List UInt32) :
    ofWords 0 position (code.flatMap Instruction.words ++ rest) = ofList position code := by
  induction code generalizing position with
  | nil => cases returns
  | cons instruction code inductionHypothesis =>
      rw [List.flatMap_cons, List.append_assoc]
      by_cases goes : instruction = .finish
      · subst goes
        exact ofWords_finish position _
      · have later : Instruction.finish ∈ code := by
          cases returns with
          | head => exact absurd rfl goes
          | tail _ later => exact later
        rw [ofWords_words goes (fits _ (.head _)),
          inductionHypothesis (fun _ member => fits _ (.tail _ member)) later]
        cases instruction with
        | finish => exact absurd rfl goes
        | _ => rfl

end Reading

/-- The statement of each word. -/
def Marked.spans (placed : Marked) : List (Option Span) :=
  List.replicate placed.1.width placed.2

def Emitted.body? : Emitted → Option Block
  | .closure body => some body
  | _ => none

/-- The bodies that are mentioned, in order. -/
def mentioned (located : List Located) : List Block :=
  located.filterMap fun entry => entry.1.body?

/-- Instructions that have been laid down at the end of an assembly. -/
structure Laid (located : List Located) (before after : Assembly) (placed : List Marked) :
    Prop where
  code : after.code.toList = before.code.toList ++ placed.flatMap fun entry => entry.1.words
  locations : after.locations.toList = before.locations.toList ++ placed.flatMap Marked.spans
  constants : before.constants.toList <+: after.constants.toList
  blocks : after.blocks = before.blocks
  numbered : after.numbered = before.numbered + (mentioned located).length
  fits : ∀ entry ∈ placed, entry.1.Fits
  fills : List.Forall₂ (FillsAt after.constants fun number body =>
    before.numbered ≤ number ∧ (mentioned located)[number - before.numbered]? = some body)
    located placed

theorem Assembly.lay_eq_ok {assembly after : Assembly} {span : Option Span}
    {instruction : Instruction} (laid : assembly.lay span instruction = .ok after) :
    instruction.Fits ∧ after = { assembly with
      code := assembly.code ++ instruction.words
      locations := assembly.locations ++ Marked.spans (instruction, span) } := by
  obtain ⟨_, checked, done⟩ := Outcome.bind_eq_ok.1 laid
  constructor
  · rw [checkOperands] at checked
    split at checked
    · cases checked
    · next fits =>
        intro operand member
        have small := List.find?_eq_none.1 fits operand member
        simpa using small
  · cases done
    rw [Marked.spans, ← Instruction.length_words, ← List.map_const']
    rfl

theorem getElem?_mono {α : Type} {first second : List α} {index : Nat} {item : α}
    (grows : first <+: second) (found : first[index]? = some item) :
    second[index]? = some item := by
  obtain ⟨rest, rfl⟩ := grows
  rw [List.getElem?_append_left (List.getElem?_eq_some_iff.1 found).1]
  exact found

theorem getElem?_of_isPrefix {α : Type} {first second : Array α} {index : Nat} {item : α}
    (grows : first.toList <+: second.toList) (found : first[index]? = some item) :
    second[index]? = some item := by
  rw [← Array.getElem?_toList] at found ⊢
  exact getElem?_mono grows found

theorem Laid.nil (assembly : Assembly) : Laid [] assembly assembly [] :=
  ⟨(List.append_nil _).symm, (List.append_nil _).symm, List.prefix_rfl, rfl, rfl, by simp, .nil⟩

theorem Laid.append {first second : List Located} {before between after : Assembly}
    {firstPlaced secondPlaced : List Marked} (firsts : Laid first before between firstPlaced)
    (seconds : Laid second between after secondPlaced) :
    Laid (first ++ second) before after (firstPlaced ++ secondPlaced) where
  code := by rw [seconds.code, firsts.code, List.flatMap_append, List.append_assoc]
  locations := by rw [seconds.locations, firsts.locations, List.flatMap_append, List.append_assoc]
  constants := firsts.constants.trans seconds.constants
  blocks := seconds.blocks.trans firsts.blocks
  numbered := by
    rw [seconds.numbered, firsts.numbered, mentioned, mentioned, mentioned, List.filterMap_append,
      List.length_append, Nat.add_assoc]
  fits := by
    intro entry member
    cases List.mem_append.1 member with
    | inl here => exact firsts.fits entry here
    | inr later => exact seconds.fits entry later
  fills := by
    have bodies : mentioned (first ++ second) = mentioned first ++ mentioned second :=
      List.filterMap_append ..
    rw [bodies]
    refine List.rel_append (firsts.fills.imp fun located placed => ?_)
      (seconds.fills.imp fun located placed => ?_)
    · refine FillsAt.imp (fun _ _ => getElem?_of_isPrefix seconds.constants) ?_
      rintro number body ⟨bound, found⟩
      refine ⟨bound, ?_⟩
      rw [List.getElem?_append_left (List.getElem?_eq_some_iff.1 found).1]
      exact found
    · refine FillsAt.imp (fun _ _ found => found) ?_
      rintro number body ⟨bound, found⟩
      rw [firsts.numbered] at bound found
      refine ⟨by omega, ?_⟩
      rw [List.getElem?_append_right (by omega), Nat.sub_sub]
      exact found

theorem Laid.single {assembly after : Assembly} {bodies all : List Block} {located : Located}
    (laid : Assembly.layEmitted (assembly, bodies) located = .ok (after, all)) :
    ∃ placed, Laid [located] assembly after [placed] ∧ all = bodies ++ mentioned [located] := by
  obtain ⟨emitted, span⟩ := located
  have laid := Outcome.eq_ok_of_within laid
  -- What one instruction adds, whatever was noted for it before.
  have lays {base : Assembly} {instruction : Instruction}
      (done : base.lay span instruction = .ok after) (code : base.code = assembly.code)
      (locations : base.locations = assembly.locations)
      (constants : assembly.constants.toList <+: base.constants.toList)
      (blocks : base.blocks = assembly.blocks)
      (numbered : base.numbered = assembly.numbered + (mentioned [(emitted, span)]).length)
      (fills : Fills base.constants (fun number body => assembly.numbered ≤ number ∧
        (mentioned [(emitted, span)])[number - assembly.numbered]? = some body)
        emitted instruction) :
      Laid [(emitted, span)] assembly after [(instruction, span)] := by
    obtain ⟨fits, rfl⟩ := Assembly.lay_eq_ok done
    refine ⟨?_, ?_, constants, blocks, numbered, by simpa using fits, .cons ⟨fills, rfl⟩ .nil⟩
    · simp [code]
    · simp [locations]
  cases emitted with
  | instruction instruction =>
      obtain ⟨after', done, same⟩ := Outcome.map_eq_ok.1 laid
      cases same
      exact ⟨_, lays done rfl rfl List.prefix_rfl rfl rfl (.instruction _),
        (List.append_nil _).symm⟩
  | literal value =>
      obtain ⟨after', done, same⟩ := Outcome.map_eq_ok.1 laid
      cases same
      refine ⟨_, lays done rfl rfl ?_ rfl rfl (.literal ?_), (List.append_nil _).symm⟩
      · rw [Array.toList_push]
        exact List.prefix_append _ _
      · exact Array.getElem?_push_size
  | closure body =>
      obtain ⟨after', done, same⟩ := Outcome.map_eq_ok.1 laid
      cases same
      refine ⟨_, lays done rfl rfl List.prefix_rfl rfl rfl (.closure ⟨Nat.le_refl _, ?_⟩), rfl⟩
      rw [Nat.sub_self]
      rfl

theorem Laid.foldlM {located : List Located} {assembly after : Assembly} {bodies all : List Block}
    (laid : located.foldlM Assembly.layEmitted (assembly, bodies) = .ok (after, all)) :
    ∃ placed, Laid located assembly after placed ∧ all = bodies ++ mentioned located := by
  induction located generalizing assembly bodies with
  | nil =>
      cases laid
      exact ⟨[], .nil _, (List.append_nil _).symm⟩
  | cons first rest inductionHypothesis =>
      rw [List.foldlM_cons] at laid
      obtain ⟨⟨between, some⟩, firstLaid, restLaid⟩ := Outcome.bind_eq_ok.1 laid
      obtain ⟨firstPlaced, firsts, rfl⟩ := Laid.single firstLaid
      obtain ⟨placed, others, rfl⟩ := inductionHypothesis restLaid
      refine ⟨[firstPlaced] ++ placed, firsts.append others, ?_⟩
      rw [List.append_assoc, mentioned, mentioned, mentioned, ← List.filterMap_append]
      rfl

end PointFree
