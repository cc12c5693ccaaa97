import PointFree.Proofs.Compilation.Constants
import PointFree.Proofs.Legibility.Routine
import PointFree.Proofs.Views.Laziness

/-!
Contract: no element fails after the call that made it.

A function whose data is legible makes legible values of legible ones, by recursion on how it
was made; so do calls, by induction on how many may be inside one another. What a program
computes from legible globals is therefore legible, and so is what it leaves in its top-level
frame, on whichever memory it runs: whoever reads an element of it finds a value.
-/

namespace PointFree

open Likeness Legibility

variable {pending : Element → Prop}

/-! ### Calls -/

namespace Legibility

/-- The way back through a function, where there is one. -/
theorem wayBack {form : Form} {able : Bool} {action : Run Value}
    (keeps : (legible pending).Keeps (Value.IsLegible pending) action) :
    (legible pending).Keeps (Value.IsLegible pending)
      (if able then action else Action.refuse (.noInverse form.name)) := by
  split
  · exact keeps
  · exact Keeps.refuse _

mutual

theorem applyFunction [(legible pending).Lawful] : (function : Function) →
    function.IsLegible pending → (direction : Direction) →
    Operation.KeepsLegible pending (function.apply direction)
  | .mk stamp form, contents, direction => applyForm form contents stamp direction
termination_by structural function => function

theorem applyForm [(legible pending).Lawful] : (form : Form) → form.IsLegible pending →
    (stamp : Nat) → (direction : Direction) →
    Operation.KeepsLegible pending (form.apply stamp direction)
  | .primitive primitive, _, _, .forward => fun _ _ rights lefts =>
      (Twins.apply primitive rights lefts.rel).keeps
  | .primitive primitive, _, _, .backward => fun _ _ rights lefts =>
      wayBack (Twins.applyInverse primitive rights lefts.rel).keeps
  | .constant content _, contents, _, .forward => fun _ _ _ _ =>
      Keeps.pure (contents content (List.mem_singleton_self content))
  | .atop outer inner, contents, _, .forward => fun _ _ rights lefts => by
      obtain ⟨outers, inners⟩ := List.forall_mem_append.1 contents
      refine Keeps.bind (applyFunction inner inners .forward rights lefts) fun between => ?_
      exact applyFunction outer outers .forward between Option.isLegible_none
  | .atop outer inner, contents, _, .backward => fun _ _ rights lefts => by
      obtain ⟨outers, inners⟩ := List.forall_mem_append.1 contents
      refine wayBack (Keeps.bind
        (applyFunction outer outers .backward rights Option.isLegible_none) fun between => ?_)
      exact applyFunction inner inners .backward between lefts
  | .fork before middle after, contents, _, .forward => fun _ _ rights lefts => by
      obtain ⟨befores, others⟩ := List.forall_mem_append.1 contents
      obtain ⟨middles, afters⟩ := List.forall_mem_append.1 others
      refine Keeps.bind (applyFunction after afters .forward rights lefts) fun second => ?_
      refine Keeps.bind (applyFunction before befores .forward rights lefts) fun first => ?_
      exact applyFunction middle middles .forward second (Option.isLegible_some first)
  | .over outer inner, contents, _, .forward => fun _ left rights lefts => by
      obtain ⟨outers, inners⟩ := List.forall_mem_append.1 contents
      refine Keeps.bind (applyFunction inner inners .forward rights Option.isLegible_none) ?_
      intro _ second
      cases left with
      | none => exact applyFunction outer outers .forward second Option.isLegible_none
      | some other =>
          refine Keeps.bind (applyFunction inner inners .forward (lefts other rfl)
            Option.isLegible_none) fun first => ?_
          exact applyFunction outer outers .forward second (Option.isLegible_some first)
  | .under work guise, contents, _, .forward => fun _ _ rights lefts => by
      obtain ⟨works, guises⟩ := List.forall_mem_append.1 contents
      refine Keeps.bind (applyFunction guise guises .forward rights lefts) fun inside => ?_
      refine Keeps.bind (applyFunction work works .forward inside Option.isLegible_none) ?_
      exact fun worked => applyFunction guise guises .backward worked Option.isLegible_none
  | .under work guise, contents, _, .backward => fun _ _ rights lefts => by
      obtain ⟨works, guises⟩ := List.forall_mem_append.1 contents
      refine wayBack (Keeps.bind (applyFunction guise guises .forward rights lefts) ?_)
      refine fun inside => Keeps.bind
        (applyFunction work works .backward inside Option.isLegible_none) fun worked => ?_
      exact applyFunction guise guises .backward worked Option.isLegible_none
  | .rank operand degree, contents, _, .forward => fun _ _ rights lefts => by
      obtain ⟨operands, degrees⟩ := List.forall_mem_append.1 contents
      refine Keeps.bind (applyFunction degree degrees .forward rights lefts) fun _ => ?_
      refine Keeps.bind (P := fun _ => True) (Keeps.lift fun _ => trivial) fun {rank} _ => ?_
      exact (applyFunction operand operands .forward).atRank rank rights lefts
  | .before early late, contents, _, .forward => fun _ _ rights lefts => by
      obtain ⟨earlies, lates⟩ := List.forall_mem_append.1 contents
      refine Keeps.bind (applyFunction early earlies .forward (lefts.getD rights)
        Option.isLegible_none) fun first => ?_
      exact applyFunction late lates .forward rights (Option.isLegible_some first)
  | .after late early, contents, _, .forward => fun _ _ rights lefts => by
      obtain ⟨lates, earlies⟩ := List.forall_mem_append.1 contents
      refine Keeps.bind (applyFunction early earlies .forward rights Option.isLegible_none) ?_
      exact fun second => applyFunction late lates .forward second
        (Option.isLegible_some (lefts.getD rights))
  | .swap operand, contents, _, .forward => fun _ _ rights lefts =>
      applyFunction operand contents .forward (lefts.getD rights) (Option.isLegible_some rights)
  | .each operand, contents, _, .forward => (applyFunction operand contents .forward).each
  | .each operand, contents, _, .backward => fun _ _ rights lefts =>
      wayBack ((applyFunction operand contents .backward).each rights lefts)
  | .table operand, contents, _, .forward => (applyFunction operand contents .forward).table
  | .cells operand, contents, _, .forward => (applyFunction operand contents .forward).cells
  | .fold operand, contents, _, .forward => (applyFunction operand contents .forward).fold
  | .scan operand, contents, _, .forward => (applyFunction operand contents .forward).scan
  | .inverse operand, contents, _, direction => applyFunction operand contents direction.turn
  | .block program block frame, contents, _, .forward => fun _ _ rights lefts =>
      enter program block frame contents rights lefts
  | .constant .., _, _, .backward | .fork .., _, _, .backward | .over .., _, _, .backward
  | .rank .., _, _, .backward | .before .., _, _, .backward | .after .., _, _, .backward
  | .swap .., _, _, .backward | .table .., _, _, .backward | .cells .., _, _, .backward
  | .fold .., _, _, .backward | .scan .., _, _, .backward | .block .., _, _, .backward =>
      fun _ _ _ _ => Keeps.refuse _
termination_by structural form => form

end

theorem calls_callAt [(legible pending).Lawful] (budget : Nat) :
    (legible pending).Calls (callAt budget) := by
  induction budget with
  | zero => exact ⟨⟨0, rfl⟩, fun _ _ _ _ _ _ _ memories => ⟨memories, nofun⟩⟩
  | succ budget inductionHypothesis =>
      refine ⟨⟨budget + 1, rfl⟩, ?_⟩
      intro function right left functions rights lefts memory memories
      exact applyFunction function (Function.isLegible_iff.1 functions) .forward rights lefts
        inductionHypothesis memories

/-! ### Programs -/

theorem topSlots (frameSize : Nat) {globals : Array Value}
    (known : ∀ value ∈ globals, value.IsLegible pending) :
    ∀ value, some value ∈ Machine.topSlots frameSize globals → value.IsLegible pending := by
  intro value member
  rw [Machine.topSlots, List.mem_toArray, List.mem_map] at member
  obtain ⟨slot, _, found⟩ := member
  split at found
  · cases found
  · exact known value (Array.mem_of_getElem? found)

theorem run [(legible pending).Lawful] {machine : Machine} {globals : Array Value}
    (constants : ∀ routine ∈ machine.top :: machine.others,
      routine.AllConstants (Value.IsLegible pending))
    (known : ∀ value ∈ globals, value.IsLegible pending) :
    (legible pending).Keeps (fun result => result.1.IsLegible pending)
      (machine.run globals : Run (Value × Nat)) := by
  rw [Machine.run]
  split
  · exact Keeps.refuse _
  · refine Keeps.bind (install constants) fun {program} _ => ?_
    refine Keeps.bind (newFrame none (topSlots _ known)) fun {frame} _ => ?_
    refine Keeps.bind (execute _ program frame ?_) fun value => Keeps.pure value
    exact constants machine.top List.mem_cons_self

end Legibility

theorem Written.isLegible : Written (Value.IsLegible pending) where
  number number := .number number
  character letter := .character letter
  string text := by
    refine Values.list (Operation.KeepsLegible.row fun value member => ?_)
    obtain ⟨letter, _, rfl⟩ := List.mem_map.1 (by simpa using member)
    exact .character letter
  nil := .array .nil

theorem Value.isLegible_standardFrom (stamp : Nat) :
    ∀ entry ∈ (Vocabulary.standardFrom stamp).entries, entry.2.IsLegible pending := by
  intro entry member
  obtain ⟨numbered, _, rfl⟩ := List.mem_map.1 (List.mem_toArray.1 member)
  exact .function nofun

/-- Reading a legible array at a legible memory gives a legible value. -/
theorem ShapedArray.IsLegible.pick_ok (reliable : Element.Reliable pending) {array : ShapedArray}
    (legible : array.IsLegible pending) {memory : Store} (memories : memory.IsLegible pending)
    {index : Nat} (inside : index < array.count) :
    ∃ (item : Value) (after : Store), (array.pick index).perform memory = (.ok item, after) ∧
      item.IsLegible pending ∧ after.IsLegible pending := by
  rw [ShapedArray.pick]
  have elements := legible.elementAt inside
  generalize array.elementAt index = element at elements
  cases elements with
  | value contents => exact ⟨_, memory, rfl, contents, memories⟩
  | pending reads =>
      obtain ⟨item, after, ended⟩ := reliable.succeeds reads.2 memory memories
      obtain ⟨kept, holds⟩ := reliable.keeps reads.2 callBudget memory memories
      rw [Action.perform] at ended
      rw [ended] at kept holds
      exact ⟨item, after, ended, holds item rfl, kept⟩

/-- Programs make legible values of legible globals, and every element of those can be read.
Also when a run fails, what it leaves is legible. -/
theorem Block.compile_run_legible (block : Block) (stamp : Nat) (externals : List String)
    (program : Program) (succeeds : block.compile (.standardFrom stamp) externals = .ok program)
    (limit : Nat) :
    ∃ machine, Machine.load program limit = .ok machine ∧
      ∀ (pending : Element → Prop) (memory : Store) (globals : Array Value),
        Element.Reliable pending → memory.IsLegible pending →
        (∀ value ∈ globals, value.IsLegible pending) →
        ∃ ended : Outcome (Value × Nat) × Store,
          (machine.run globals).perform memory = ended ∧ ended.2.IsLegible pending ∧
          (∀ value frame, ended.1 = .ok (value, frame) → value.IsLegible pending ∧
            ∀ slot found, ended.2.value? frame slot = some found → found.IsLegible pending) ∧
          ∀ array : ShapedArray, array.IsLegible pending →
            ∀ later : Store, later.IsLegible pending → ∀ index < array.count,
              ∃ (item : Value) (after : Store),
                (array.pick index).perform later = (.ok item, after) ∧
                item.IsLegible pending ∧ after.IsLegible pending := by
  obtain ⟨machine, tasks, entry, whole, placed, steps, loaded, made⟩ :=
    Block.compile_machine succeeds limit
  refine ⟨machine, loaded, ?_⟩
  intro pending memory globals reliable memories known
  have := Legibility.lawful reliable
  have written : Written (Value.IsLegible pending) := Written.isLegible
  have constants := made.loaded.allConstantsWritten written (Value.isLegible_standardFrom stamp)
  obtain ⟨kept, holds⟩ :=
    Legibility.run constants known (Legibility.calls_callAt callBudget) memories
  refine ⟨_, rfl, kept, fun value frame ended => ⟨holds _ ended, fun slot found isFound => ?_⟩,
    fun array legible later laters index inside => legible.pick_ok reliable laters inside⟩
  obtain ⟨owner, isFrame, isSlot⟩ := Option.bind_eq_some_iff.1 (Option.join_eq_some_iff.1 isFound)
  exact kept.frames owner (Array.mem_of_getElem? isFrame) found (Array.mem_of_getElem? isSlot)

/-! ### A program that turns a zip around -/

namespace Paired

open ShapedArray.Paired

/-- What a pairing zip of letters with numbers has yet to compute. -/
inductive IsPending : Element → Prop where
  | pair (letter : Char) (number : Float) :
      IsPending (.combined pairing (.value (.character letter)) (.value (.number number)))

theorem reliable : Element.Reliable IsPending where
  unsettled := by
    rintro _ ⟨letter, number⟩ _ ⟨⟩
  keeps := by
    rintro _ ⟨letter, number⟩ budget memory memories
    cases budget with
    | zero => exact ⟨memories, nofun⟩
    | succ budget =>
        have ends : (Element.combined pairing (.value (.character letter))
            (.value (.number number))).force (callAt (budget + 1)) memory =
              (.ok (.list #[.character letter, .number number]), memory) :=
          callAt_pairing (Nat.succ_pos budget) _ _ memory
        rw [ends]
        refine ⟨memories, fun value same => Except.ok.inj same ▸ ?_⟩
        refine Values.list (Operation.KeepsLegible.row ?_)
        simp only [List.mem_toArray, List.mem_cons, List.not_mem_nil, or_false, forall_eq_or_imp,
          forall_eq]
        exact ⟨.character letter, .number number⟩
  succeeds := by
    rintro _ ⟨letter, number⟩ memory _
    exact ⟨_, memory, callAt_pairing (show 0 < callBudget by decide) _ _ memory⟩

theorem pairs_legible : pairs.IsLegible IsPending := by
  refine .ofView _ _ _ .none fun index inside => ?_
  obtain rfl | rfl : index = 0 ∨ index = 1 := by
    have small : index < 2 := inside
    omega
  · exact .pending ⟨rfl, .pair 'a' 1.0⟩
  · exact .pending ⟨rfl, .pair 'b' 2.0⟩

/-- `⌽a` -/
def turning : Block :=
  .mk [.mk (.expression (.call (.primitive "⌽") (.name "a"))) none]

theorem turning_isOk : (turning.compile (.standardFrom 0) ["a"]).isOk = true := by
  decide +kernel

end Paired

theorem Block.compile_run_legible_pairs :
    ∃ (program : Program) (machine : Machine) (ended : Outcome (Value × Nat) × Store),
      Paired.turning.compile (.standardFrom 0) ["a"] = .ok program ∧
      Machine.load program defaultCallLimit = .ok machine ∧
      Element.Reliable Paired.IsPending ∧ Store.empty.IsLegible Paired.IsPending ∧
      (Value.array ShapedArray.Paired.pairs).IsLegible Paired.IsPending ∧
      (machine.run #[.array ShapedArray.Paired.pairs]).perform Store.empty = ended ∧
      ended.2.IsLegible Paired.IsPending ∧
      ∀ value frame, ended.1 = .ok (value, frame) → value.IsLegible Paired.IsPending ∧
        ∀ slot found, ended.2.value? frame slot = some found →
          found.IsLegible Paired.IsPending := by
  obtain ⟨program, succeeds⟩ := Outcome.exists_of_isOk Paired.turning_isOk
  obtain ⟨machine, loaded, runs⟩ :=
    Block.compile_run_legible Paired.turning 0 ["a"] program succeeds defaultCallLimit
  have empty : Store.empty.IsLegible Paired.IsPending := ⟨nofun, nofun⟩
  have legible := Values.array Paired.pairs_legible
  obtain ⟨ended, performs, kept, ends, _⟩ :=
    runs Paired.IsPending Store.empty #[.array ShapedArray.Paired.pairs] Paired.reliable empty
      fun value member => List.mem_singleton.1 (List.mem_toArray.1 member) ▸ legible
  exact ⟨program, machine, ended, succeeds, loaded, Paired.reliable, empty, legible, performs,
    kept, ends⟩

/-! ### A program that brings out a fill -/

namespace Padded

def product : Function :=
  .mk 0 (.primitive .multiply)

/-- Letters cannot be multiplied. -/
def faulty : ShapedArray :=
  .ofView .zip [1] none fun index =>
    .combined product ((ShapedArray.list #[.character 'a']).elementAt (index % 1))
      ((ShapedArray.list #[.character 'b']).elementAt (index % 1))

/-- A table with one number, whose fill cannot be read. -/
def grid : ShapedArray :=
  .ofView .owned [1, 1] (some (.array faulty)) (ShapedArray.stored #[.number 5.0])

/-- `2↑a` -/
def taking : Block :=
  .mk [.mk (.expression (.callBoth (.primitive "↑") (.number 2.0) (.name "a"))) none]

/-- Whether the value of the program has a second element, an array that is not empty, and
reading what is in there fails. -/
def isUnreadable : Bool :=
  match taking.compile (.standardFrom 0) ["a"] with
  | .error _ => false
  | .ok program =>
      match Machine.load program defaultCallLimit with
      | .error _ => false
      | .ok machine =>
          match (machine.run #[.array grid]).perform Store.empty with
          | (.ok (.array result, _), after) =>
              match (result.pick 1).perform after with
              | (.ok (.array inner), later) =>
                  decide (1 < result.count) && decide (0 < inner.count) &&
                    !((inner.pick 0).perform later).1.isOk
              | _ => false
          | _ => false

end Padded

/-- Every element of the global can be read, but its fill cannot. The program makes it an
element of its value. -/
theorem Block.compile_run_unreadable :
    (∀ index < Padded.grid.count, (Padded.grid.pick index : Run Value) = return .number 5.0) ∧
    ∃ (program : Program) (machine : Machine) (result inner : ShapedArray) (frame : Nat)
        (after later : Store),
      Padded.taking.compile (.standardFrom 0) ["a"] = .ok program ∧
      Machine.load program defaultCallLimit = .ok machine ∧
      (machine.run #[.array Padded.grid]).perform Store.empty =
        (.ok (.array result, frame), after) ∧
      1 < result.count ∧ (result.pick 1).perform after = (.ok (.array inner), later) ∧
      0 < inner.count ∧ ((inner.pick 0).perform later).1.isOk = false := by
  refine ⟨fun index inside => ?_, ?_⟩
  · obtain rfl : index = 0 := Nat.lt_one_iff.1 inside
    rfl
  have unreadable : Padded.isUnreadable = true := by
    decide +kernel
  unfold Padded.isUnreadable at unreadable
  split at unreadable
  · cases unreadable
  · next program compiled =>
      split at unreadable
      · cases unreadable
      · next machine loaded =>
          split at unreadable
          · next result frame after ran =>
              split at unreadable
              · next inner later picked =>
                  simp only [Bool.and_eq_true, decide_eq_true_eq, Bool.not_eq_true'] at unreadable
                  obtain ⟨⟨second, some⟩, fails⟩ := unreadable
                  exact ⟨program, machine, result, inner, frame, after, later, compiled, loaded,
                    ran, second, picked, some, fails⟩
              · cases unreadable
          · cases unreadable

end PointFree
