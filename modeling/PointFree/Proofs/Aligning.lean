import PointFree.Proofs.Broadcasting
import PointFree.Proofs.Pervasion.Redundancy

/-!
Contract: aligning shapes in any order and grouping.

Shapes align when one of them leads: all others are suffixes of it. Suffixes of one shape are
suffixes of one another, so what leads some of them and what leads the rest align as soon as one
leads all. Aligning two by two therefore comes to the shape that leads all, in whatever order and
grouping, or to nothing if none does. A chain of zips, and a chain of scalar rules that are carried
through nested arrays, has the shape that leads its operands.
-/

namespace PointFree

/-! ### The shape that leads -/

namespace Shape

variable {shapes others : List Shape} {lead other shape : Shape}

/-- One of the shapes, of which all are suffixes. -/
def Leads (shapes : List Shape) (lead : Shape) : Prop :=
  lead ∈ shapes ∧ ∀ shape ∈ shapes, shape <:+ lead

theorem Leads.unique (leads : Leads shapes lead) (leads' : Leads shapes other) : lead = other :=
  (leads'.2 lead leads.1).eq_of_length_le (leads.2 other leads'.1).length_le

theorem leads_singleton : Leads [shape] lead ↔ shape = lead := by
  constructor
  · rintro ⟨member, _⟩
    exact (List.mem_singleton.1 member).symm
  · rintro rfl
    exact ⟨List.mem_singleton_self shape, List.forall_mem_singleton.2 (List.suffix_refl shape)⟩

/-- Of suffixes of one shape, the longest leads. -/
theorem exists_leads (some : shapes ≠ []) (suffixes : ∀ shape ∈ shapes, shape <:+ other) :
    ∃ lead, Leads shapes lead := by
  induction shapes with
  | nil => exact absurd rfl some
  | cons shape rest inductionHypothesis =>
      obtain ⟨here, later⟩ := List.forall_mem_cons.1 suffixes
      by_cases last : rest = []
      · exact ⟨shape, last ▸ leads_singleton.2 rfl⟩
      · obtain ⟨lead, member, leads⟩ := inductionHypothesis last later
        obtain longer | longer := List.suffix_or_suffix_of_suffix here (later lead member)
        · exact ⟨lead, .tail _ member, List.forall_mem_cons.2 ⟨longer, leads⟩⟩
        · exact ⟨shape, .head _, List.forall_mem_cons.2
            ⟨List.suffix_refl shape, fun item isItem => (leads item isItem).trans longer⟩⟩

/-- What leads two groups of shapes aligns to what leads all of them. -/
theorem leads_append_iff : Leads (shapes ++ others) shape ∧ shapes ≠ [] ∧ others ≠ [] ↔
    ∃ lead other, Leads shapes lead ∧ Leads others other ∧ aligned? lead other = some shape := by
  constructor
  · rintro ⟨⟨member, suffixes⟩, some, some'⟩
    obtain ⟨firsts, seconds⟩ := List.forall_mem_append.1 suffixes
    obtain ⟨lead, leads⟩ := exists_leads some firsts
    obtain ⟨other, leads'⟩ := exists_leads some' seconds
    refine ⟨lead, other, leads, leads', aligned?_eq_some_iff.2 ?_⟩
    obtain here | there := List.mem_append.1 member
    · obtain rfl := Leads.unique ⟨here, firsts⟩ leads
      exact .inl ⟨seconds other leads'.1, rfl⟩
    · obtain rfl := Leads.unique ⟨there, seconds⟩ leads'
      exact .inr ⟨firsts lead leads.1, rfl⟩
  · rintro ⟨lead, other, leads, leads', aligned⟩
    refine ⟨?_, List.ne_nil_of_mem leads.1, List.ne_nil_of_mem leads'.1⟩
    obtain ⟨suffix, rfl⟩ | ⟨suffix, rfl⟩ := aligned?_eq_some_iff.1 aligned
    · exact ⟨List.mem_append_left _ leads.1, List.forall_mem_append.2
        ⟨leads.2, fun item isItem => (leads'.2 item isItem).trans suffix⟩⟩
    · exact ⟨List.mem_append_right _ leads'.1, List.forall_mem_append.2
        ⟨fun item isItem => (leads.2 item isItem).trans suffix, leads'.2⟩⟩

theorem aligned?_self (shape : Shape) : aligned? shape shape = some shape :=
  aligned?_eq_some_iff.2 (.inl ⟨List.suffix_refl shape, rfl⟩)

end Shape

/-! ### Chains -/

/-- Operands that are joined two by two, in the order and the grouping of a tree. -/
inductive Chain (α β : Type) where
  | single (item : α)
  | join (step : β) (first second : Chain α β)

namespace Chain

variable {α β : Type}

def operands : Chain α β → List α
  | single item => [item]
  | join _ first second => first.operands ++ second.operands

def steps : Chain α β → List β
  | single _ => []
  | join step first second => step :: (first.steps ++ second.steps)

theorem operands_ne_nil (chain : Chain α β) : chain.operands ≠ [] := by
  induction chain with
  | single item => exact List.cons_ne_nil item []
  | join step first second firsts _ => exact List.append_ne_nil_of_left_ne_nil firsts _

theorem eq_single_of_operands {chain : Chain α β} {item : α} (alone : chain.operands = [item]) :
    chain = single item := by
  cases chain with
  | single other => rw [List.singleton_inj.1 alone]
  | join step first second =>
      obtain ⟨none, _⟩ | ⟨_, none⟩ := List.append_eq_singleton_iff.1 alone
      · exact absurd none first.operands_ne_nil
      · exact absurd none second.operands_ne_nil

/-- The shapes of the operands, aligned as the chain joins them. -/
def aligned? (shape : α → Shape) : Chain α β → Option Shape
  | single item => some (shape item)
  | join _ first second => do
      let lead ← first.aligned? shape
      let other ← second.aligned? shape
      Shape.aligned? lead other

section Shapes

variable {shape : α → Shape} {chain other : Chain α β} {lead : Shape}

/-- A chain aligns to the shape that leads all of its operands. -/
theorem aligned?_eq_some_iff :
    chain.aligned? shape = some lead ↔ Shape.Leads (chain.operands.map shape) lead := by
  induction chain generalizing lead with
  | single item => rw [aligned?, operands, List.map_singleton, Shape.leads_singleton,
      Option.some.injEq]
  | join step first second firsts seconds =>
      have some : first.operands.map shape ≠ [] ∧ second.operands.map shape ≠ [] :=
        ⟨mt List.map_eq_nil_iff.1 first.operands_ne_nil,
          mt List.map_eq_nil_iff.1 second.operands_ne_nil⟩
      rw [aligned?, operands, List.map_append, ← and_iff_left (a := Shape.Leads _ lead) some,
        Shape.leads_append_iff]
      simp only [Option.bind_eq_bind, Option.bind_eq_some_iff, firsts, seconds]
      constructor
      · rintro ⟨lead, leads, other, leads', aligned⟩
        exact ⟨lead, other, leads, leads', aligned⟩
      · rintro ⟨lead, other, leads, leads', aligned⟩
        exact ⟨lead, leads, other, leads', aligned⟩

/-- The order and the grouping of a chain do not matter to the shape it aligns to. -/
theorem aligned?_of_perm (same : chain.operands.Perm other.operands) :
    chain.aligned? shape = other.aligned? shape := by
  refine Option.ext fun lead => ?_
  have members (item : Shape) := (same.map shape).mem_iff (a := item)
  simp only [aligned?_eq_some_iff, Shape.Leads, members]

/-- The shape that a chain aligns to is that of an operand. -/
theorem exists_operand (aligned : chain.aligned? shape = some lead) :
    ∃ item ∈ chain.operands, shape item = lead :=
  List.mem_map.1 (aligned?_eq_some_iff.1 aligned).1

end Shapes

end Chain

/-- Which two of three shapes are aligned first does not matter. -/
theorem Shape.aligned?_assoc (first second third : Shape) :
    (aligned? first second).bind (fun lead => aligned? lead third) =
      (aligned? second third).bind fun lead => aligned? first lead := by
  let left : Chain Shape Unit :=
    .join () (.join () (.single first) (.single second)) (.single third)
  let right : Chain Shape Unit :=
    .join () (.single first) (.join () (.single second) (.single third))
  have same : left.operands.Perm right.operands := .refl [first, second, third]
  exact @Chain.aligned?_of_perm Shape Unit id left right same

/-! ### Chains of zips -/

namespace ShapedArray

variable {left right zipped : ShapedArray} {function : Function}

theorem alignShapes_eq_ok_iff {left right shape : Shape} :
    alignShapes left right = .ok shape ↔ Shape.aligned? left right = some shape := by
  rw [alignShapes]
  cases Shape.aligned? left right with
  | none => simp [refuse]
  | some lead => simp

theorem alignShapes_bind_eq_ok_iff {left right shape : Shape} {next : Shape → Outcome Shape}
    {next? : Shape → Option Shape}
    (same : ∀ lead, next lead = .ok shape ↔ next? lead = some shape) :
    (alignShapes left right).bind next = .ok shape ↔
      (Shape.aligned? left right).bind next? = some shape := by
  rw [Option.bind_eq_some_iff]
  refine Outcome.bind_eq_ok.trans (exists_congr fun lead => ?_)
  rw [alignShapes_eq_ok_iff, same]

/-- The view of the shape to which two arrays align has that shape. -/
theorem shape_ofView_of_aligned (proper : left.IsProper) (proper' : right.IsProper) {shape : Shape}
    (aligned : Shape.aligned? left.shape right.shape = some shape) (view : View)
    (fill : Option Value) (element : Nat → Element) :
    (ofView view shape fill element).shape = shape := by
  obtain ⟨_, rfl⟩ | ⟨_, rfl⟩ := Shape.aligned?_eq_some_iff.1 aligned
  · exact proper.shape_ofView ..
  · exact proper'.shape_ofView ..

/-- A zip has the shape to which the operands align, and an array may have it. -/
theorem shape_zip (proper : left.IsProper) (proper' : right.IsProper)
    (zips : left.zip right function = .ok zipped) :
    Shape.aligned? left.shape right.shape = some zipped.shape ∧ zipped.IsProper ∧
      ∃ size, measure zipped.shape = .ok size := by
  obtain ⟨shape, size, aligned, measured, rfl⟩ := zip_eq_ok_iff_measure.1 zips
  refine ⟨?_, fun none => isProper_ofView _ _ _ _ none, size, ?_⟩
  · rw [shape_ofView_of_aligned proper proper' aligned, aligned]
  · rw [shape_ofView_of_aligned proper proper' aligned, measured]

/-- A suffix of a shape that an array may have is one, too. -/
theorem measure_of_suffix {whole part : Shape} (proper : whole.size = 0 → whole = [0])
    (suffix : part <:+ whole) {size : Nat} (measured : measure whole = .ok size) :
    ∃ size, measure part = .ok size := by
  by_cases none : whole.size = 0
  · rw [proper none] at suffix
    obtain rfl | rest := List.suffix_cons_iff.1 suffix
    · exact ⟨0, rfl⟩
    · exact ⟨1, by rw [List.suffix_nil.1 rest]; rfl⟩
  · have small := size_le_of_measure measured
    obtain ⟨outer, rfl⟩ := suffix
    rw [Shape.size_append] at none small
    obtain ⟨outerSome, partSome⟩ := Nat.mul_ne_zero_iff.1 none
    exact ⟨_, measure_of_size (Nat.pos_of_ne_zero partSome)
      (Nat.le_trans (Nat.le_mul_of_pos_left _ (Nat.pos_of_ne_zero outerSome)) small)⟩

end ShapedArray

namespace Chain

/-- The zips of a chain, each made of what its parts have come to. -/
def zipped : Chain ShapedArray Function → Outcome ShapedArray
  | single array => .ok array
  | join function first second => do
      let left ← first.zipped
      let right ← second.zipped
      left.zip right function

section Zips

variable {chain other : Chain ShapedArray Function} {result : ShapedArray} {shape : Shape}

/-- A chain of zips has the shape to which its operands align. -/
theorem shape_of_zipped (proper : ∀ array ∈ chain.operands, array.IsProper)
    (zips : chain.zipped = .ok result) :
    chain.aligned? ShapedArray.shape = some result.shape ∧ result.IsProper := by
  induction chain generalizing result with
  | single array =>
      cases zips
      exact ⟨rfl, proper array (List.mem_singleton_self array)⟩
  | join function first second firsts seconds =>
      obtain ⟨proper, proper'⟩ := List.forall_mem_append.1 proper
      obtain ⟨left, isLeft, zips⟩ := Outcome.bind_eq_ok.1 zips
      obtain ⟨right, isRight, zips⟩ := Outcome.bind_eq_ok.1 zips
      obtain ⟨leads, properLeft⟩ := firsts proper isLeft
      obtain ⟨leads', properRight⟩ := seconds proper' isRight
      obtain ⟨aligned, properResult, _⟩ := ShapedArray.shape_zip properLeft properRight zips
      refine ⟨?_, properResult⟩
      rw [aligned?, leads, leads']
      exact aligned

/-- A chain of zips succeeds if its operands align to a shape that an array may have: what its
parts align to are suffixes of that shape. -/
theorem zipped_of_aligned (proper : ∀ array ∈ chain.operands, array.IsProper)
    (aligned : chain.aligned? ShapedArray.shape = some shape) {size : Nat}
    (measured : ShapedArray.measure shape = .ok size) :
    ∃ result, chain.zipped = .ok result := by
  induction chain generalizing shape size with
  | single array => exact ⟨array, rfl⟩
  | join function first second firsts seconds =>
      obtain ⟨array, member, rfl⟩ := exists_operand aligned
      have whole := proper array member
      obtain ⟨proper, proper'⟩ := List.forall_mem_append.1 proper
      obtain ⟨lead, leads, aligned⟩ := Option.bind_eq_some_iff.1 aligned
      obtain ⟨other, leads', aligned⟩ := Option.bind_eq_some_iff.1 aligned
      have suffixes : lead <:+ array.shape ∧ other <:+ array.shape := by
        obtain ⟨suffix, same⟩ | ⟨suffix, same⟩ := Shape.aligned?_eq_some_iff.1 aligned
        · exact ⟨same ▸ List.suffix_refl lead, same ▸ suffix⟩
        · exact ⟨same ▸ suffix, same ▸ List.suffix_refl other⟩
      obtain ⟨_, fits⟩ := ShapedArray.measure_of_suffix whole suffixes.1 measured
      obtain ⟨_, fits'⟩ := ShapedArray.measure_of_suffix whole suffixes.2 measured
      obtain ⟨left, isLeft⟩ := firsts proper leads fits
      obtain ⟨right, isRight⟩ := seconds proper' leads' fits'
      obtain rfl := Option.some.inj (leads.symm.trans (shape_of_zipped proper isLeft).1)
      obtain rfl := Option.some.inj (leads'.symm.trans (shape_of_zipped proper' isRight).1)
      have zips := ShapedArray.zip_eq_ok_iff_measure.2 ⟨array.shape, size, aligned, measured,
        Eq.refl (ShapedArray.ofView .zip array.shape none fun index => .combined function
          (left.elementAt (index % left.count)) (right.elementAt (index % right.count)))⟩
      exact ⟨_, Outcome.bind_eq_ok.2 ⟨left, isLeft, Outcome.bind_eq_ok.2 ⟨right, isRight, zips⟩⟩⟩

/-- If a chain of zips succeeds, every other order and grouping of it does, with the same shape. -/
theorem zipped_of_perm (proper : ∀ array ∈ chain.operands, array.IsProper)
    (same : chain.operands.Perm other.operands) (zips : chain.zipped = .ok result) :
    ∃ result', other.zipped = .ok result' ∧ result'.shape = result.shape := by
  have leads := (shape_of_zipped proper zips).1
  rw [aligned?_of_perm same] at leads
  have proper' : ∀ array ∈ other.operands, array.IsProper :=
    fun array member => proper array (same.mem_iff.2 member)
  have succeeds : ∃ result', other.zipped = .ok result' := by
    cases chain with
    | single array =>
        rw [eq_single_of_operands (List.singleton_perm.1 same).symm]
        exact ⟨array, rfl⟩
    | join function first second =>
        obtain ⟨firsts, seconds⟩ := List.forall_mem_append.1 proper
        obtain ⟨left, isLeft, zips⟩ := Outcome.bind_eq_ok.1 zips
        obtain ⟨right, isRight, zips⟩ := Outcome.bind_eq_ok.1 zips
        obtain ⟨_, _, _, measured⟩ := ShapedArray.shape_zip (shape_of_zipped firsts isLeft).2
          (shape_of_zipped seconds isRight).2 zips
        exact zipped_of_aligned proper' leads measured
  obtain ⟨result', zips'⟩ := succeeds
  exact ⟨result', zips', Option.some.inj ((shape_of_zipped proper' zips').1.symm.trans leads)⟩

end Zips

end Chain

/-! ### Chains of pervasive functions -/

/-- What the rule makes of two scalars is a scalar. -/
structure Scalar.MakesScalars (rule : Value → Value → Outcome Value) : Prop where
  flat : ∀ left right result : Value, left.isArray = false → right.isArray = false →
    rule left right = .ok result → result.isArray = false

/-- The function carries a rule on scalars through two arguments. -/
def Function.CarriesScalars (H : Type) [Blocks H] (function : Function) : Prop :=
  ∃ rule, Scalar.MakesScalars rule ∧ ∀ right left,
    (function.call right (some left) : Action H Value) = left.zipLeaves rule right

namespace Scalar.MakesScalars

theorem onNumbers (function : Float → Float → Float) :
    MakesScalars (Scalar.onNumbers function) where
  flat left right result _ _ makes := by
    obtain ⟨first, _, makes⟩ := Outcome.bind_eq_ok.1 makes
    obtain ⟨second, _, makes⟩ := Outcome.bind_eq_ok.1 makes
    cases makes
    rfl

theorem flat_of_shift {letter : Char} {distance : Float} {result : Value}
    (makes : Scalar.shift letter distance = .ok result) : result.isArray = false := by
  unfold Scalar.shift at makes
  split at makes
  · cases makes
  · dsimp only at makes
    split at makes
    · cases makes
      rfl
    · cases makes

theorem add : MakesScalars Scalar.add where
  flat left right result _ _ makes := by
    unfold Scalar.add at makes
    split at makes
    · cases makes
      rfl
    · exact flat_of_shift makes
    · exact flat_of_shift makes
    · cases makes

theorem subtract : MakesScalars Scalar.subtract where
  flat left right result _ _ makes := by
    unfold Scalar.subtract at makes
    split at makes
    · cases makes
      rfl
    · exact flat_of_shift makes
    · cases makes
      rfl
    · cases makes

theorem ofBool (holds : Value → Value → Bool) :
    MakesScalars fun left right => .ok (.ofBool (holds left right)) where
  flat := by
    rintro left right _ _ _ ⟨⟩
    rfl

theorem compares (holds : Ordering → Bool) : MakesScalars (Scalar.compares holds) where
  flat left right result _ _ makes := by
    rw [Scalar.compares] at makes
    obtain ⟨order, _, rfl⟩ := Outcome.map_eq_ok.1 makes
    rfl

end Scalar.MakesScalars

section Pervasive

variable {H : Type} {calling : Call H}

/-- What is carried through two values has the shape to which they align. -/
theorem Value.shape_zipLeaves {rule : Value → Value → Outcome Value}
    (makes : Scalar.MakesScalars rule) {left right result : Value} (proper : left.toArray.IsProper)
    (proper' : right.toArray.IsProper)
    (gives : (left.zipLeaves rule right : Action H Value).Gives calling result) :
    Shape.aligned? left.shape right.shape = some result.shape ∧ result.toArray.IsProper := by
  rw [← shape_toArray, ← shape_toArray, ← shape_toArray]
  by_cases nested : left.isArray = true ∨ right.isArray = true
  · rw [zipLeaves_of_nested rule nested] at gives
    obtain ⟨shape, aligned, gives⟩ := gives.bind
    have aligned := ShapedArray.alignShapes_eq_ok_iff.1 aligned.eq_ok
    obtain ⟨_, _, gives⟩ := gives.bind
    obtain ⟨items, _, gives⟩ := gives.bind
    rw [gives.eq_of_pure]
    refine ⟨?_, fun none => ShapedArray.isProper_ofView _ _ _ _ none⟩
    exact aligned.trans
      (congrArg some (ShapedArray.shape_ofView_of_aligned proper proper' aligned ..).symm)
  · simp only [not_or, Bool.not_eq_true] at nested
    obtain ⟨flat, flat'⟩ := nested
    rw [zipLeaves_eq_step, zipLeavesThrough_of_leaves flat flat'] at gives
    have flatResult := makes.flat left right result flat flat' gives.eq_ok
    rw [toArray_of_flat flat, toArray_of_flat flat', toArray_of_flat flatResult]
    exact ⟨rfl, fun none => absurd none Nat.one_ne_zero⟩

namespace Chain

variable [Blocks H] {chain other : Chain Value Function} {result : Value}

/-- The calls of a chain, the right argument of each evaluated before the left one. -/
def evaluate : Chain Value Function → Action H Value
  | single value => return value
  | join function first second => do
      let right ← second.evaluate
      let left ← first.evaluate
      function.call right (some left)

/-- A chain of pervasive functions has the shape to which its operands align. -/
theorem shape_of_evaluate (proper : ∀ value ∈ chain.operands, value.toArray.IsProper)
    (carries : ∀ function ∈ chain.steps, function.CarriesScalars H)
    (gives : (chain.evaluate : Action H Value).Gives calling result) :
    chain.aligned? Value.shape = some result.shape ∧ result.toArray.IsProper := by
  induction chain generalizing result with
  | single value =>
      rw [gives.eq_of_pure]
      exact ⟨rfl, proper value (List.mem_singleton_self value)⟩
  | join function first second firsts seconds =>
      obtain ⟨proper, proper'⟩ := List.forall_mem_append.1 proper
      obtain ⟨⟨rule, makes, isCall⟩, carries⟩ := List.forall_mem_cons.1 carries
      obtain ⟨carries, carries'⟩ := List.forall_mem_append.1 carries
      obtain ⟨right, isRight, gives⟩ := gives.bind
      obtain ⟨left, isLeft, gives⟩ := gives.bind
      obtain ⟨leads, properLeft⟩ := firsts proper carries isLeft
      obtain ⟨leads', properRight⟩ := seconds proper' carries' isRight
      rw [isCall] at gives
      obtain ⟨aligned, properResult⟩ := Value.shape_zipLeaves makes properLeft properRight gives
      refine ⟨?_, properResult⟩
      rw [aligned?, leads, leads']
      exact aligned

end Chain

/-- The primitives whose form for two arguments carries a rule on scalars. -/
def Primitive.pervasive : List Primitive :=
  [.add, .subtract, .multiply, .divide, .power, .root, .floor, .ceiling, .modulus, .not, .and, .or,
    .equals, .notEquals, .less, .greater, .lessOrEqual, .greaterOrEqual]

theorem Function.carriesScalars_of_dyad [Blocks H] (stamp : Nat) {primitive : Primitive}
    {rule : Value → Value → Outcome Value} (makes : Scalar.MakesScalars rule)
    (dyad : primitive.dyad? = Primitive.eachPair rule) :
    (Function.mk stamp (.primitive primitive)).CarriesScalars H := by
  refine ⟨rule, makes, fun right left => ?_⟩
  change primitive.dispatch primitive.monad? primitive.dyad? right (some left) = _
  rw [dyad]
  rfl

theorem Primitive.carriesScalars [Blocks H] (stamp : Nat) {primitive : Primitive}
    (isPervasive : primitive ∈ pervasive) :
    (Function.mk stamp (.primitive primitive)).CarriesScalars H := by
  have carries := @Function.carriesScalars_of_dyad H _ stamp
  cases primitive with
  | add => exact carries .add rfl
  | subtract => exact carries .subtract rfl
  | equals | notEquals => exact carries (.ofBool _) rfl
  | less | greater | lessOrEqual | greaterOrEqual => exact carries (.compares _) rfl
  | multiply | divide | power | root | floor | ceiling | modulus | not | and | or =>
      exact carries (.onNumbers _) rfl
  | _ => exact absurd isPervasive (by decide)

end Pervasive

/-- Alignment does not depend on the order of two shapes, gives back a shape that is aligned with
itself, and does not depend on the grouping of three. So a chain of zips, in whatever order and
grouping, succeeds or fails, and has one shape, and the results of a chain of pervasive functions
all have the shape to which their operands align, in whatever order and grouping. -/
theorem ShapedArray.alignShapes_semilattice {H : Type} [Blocks H] :
    (∀ left right shape,
      alignShapes left right = .ok shape ↔ alignShapes right left = .ok shape) ∧
    (∀ shape, alignShapes shape shape = .ok shape) ∧
    (∀ first second third shape,
      ((alignShapes first second).bind fun lead => alignShapes lead third) = .ok shape ↔
        ((alignShapes second third).bind fun lead => alignShapes first lead) = .ok shape) ∧
    (∀ chain other : Chain ShapedArray Function,
      (∀ array ∈ chain.operands, array.IsProper) → chain.operands.Perm other.operands →
      ((∃ result, chain.zipped = .ok result) ↔ ∃ result, other.zipped = .ok result) ∧
      ∀ result result', chain.zipped = .ok result → other.zipped = .ok result' →
        result'.shape = result.shape) ∧
    ∀ chain other : Chain Value Function,
      (∀ value ∈ chain.operands, value.toArray.IsProper) →
      (∀ function ∈ chain.steps ++ other.steps, function.CarriesScalars H) →
      chain.operands.Perm other.operands →
      ∀ calling result, (chain.evaluate : Action H Value).Gives calling result →
        other.aligned? Value.shape = some result.shape ∧
        ∀ calling result', (other.evaluate : Action H Value).Gives calling result' →
          result'.shape = result.shape := by
  refine ⟨fun left right shape => ?_, fun shape => ?_, fun first second third shape => ?_,
    fun chain other proper same => ⟨⟨?_, ?_⟩, fun result result' zips zips' => ?_⟩,
    fun chain other proper carries same calling result gives => ?_⟩
  · rw [alignShapes_eq_ok_iff, alignShapes_eq_ok_iff, Shape.aligned?_comm]
  · exact alignShapes_eq_ok_iff.2 (Shape.aligned?_self shape)
  · rw [alignShapes_bind_eq_ok_iff fun lead => alignShapes_eq_ok_iff, Shape.aligned?_assoc,
      ← alignShapes_bind_eq_ok_iff fun lead => alignShapes_eq_ok_iff]
  · rintro ⟨result, zips⟩
    obtain ⟨result', zips', _⟩ := Chain.zipped_of_perm proper same zips
    exact ⟨result', zips'⟩
  · rintro ⟨result, zips⟩
    have proper' : ∀ array ∈ other.operands, array.IsProper :=
      fun array member => proper array (same.mem_iff.2 member)
    obtain ⟨result', zips', _⟩ := Chain.zipped_of_perm proper' same.symm zips
    exact ⟨result', zips'⟩
  · obtain ⟨found, isFound, shape⟩ := Chain.zipped_of_perm proper same zips
    cases isFound.symm.trans zips'
    exact shape
  · obtain ⟨carries, carries'⟩ := List.forall_mem_append.1 carries
    have aligned := (Chain.shape_of_evaluate proper carries gives).1
    rw [Chain.aligned?_of_perm same] at aligned
    refine ⟨aligned, fun calling' result' gives' => ?_⟩
    have proper' : ∀ value ∈ other.operands, value.toArray.IsProper :=
      fun value member => proper value (same.mem_iff.2 member)
    exact Option.some.inj
      ((Chain.shape_of_evaluate proper' carries' gives').1.symm.trans aligned)

namespace ShapedArray

namespace Rows

/-- A row, the table and the row again. -/
def zips : Chain ShapedArray Function :=
  .join minus (.join minus (.single row) (.single table)) (.single row)

/-- The rows first. -/
def zipsRegrouped : Chain ShapedArray Function :=
  .join minus (.join minus (.single row) (.single row)) (.single table)

def equals : Function :=
  .mk 0 (.primitive .equals)

def letter : Value :=
  .character 'a'

def word : Value :=
  .list #[.character 'a', .character 'b']

/-- A letter, the word and the letter again. -/
def tests : Chain Value Function :=
  .join equals (.join equals (.single letter) (.single word)) (.single letter)

/-- The word first. -/
def testsRegrouped : Chain Value Function :=
  .join equals (.single word) (.join equals (.single letter) (.single letter))

end Rows

open Rows

/-- The row is a suffix of the table, so the zips succeed with the rows first as well. The tests
have the shape of the word, and with the word first they have no other. -/
theorem alignShapes_semilattice_rows :
    (∃ result, zips.zipped = .ok result) ∧ (∃ result, zipsRegrouped.zipped = .ok result) ∧
    ∀ calling, ∃ result, (tests.evaluate : Run Value).Gives calling result ∧
      result.shape = [2] ∧ testsRegrouped.aligned? Value.shape = some result.shape := by
  obtain ⟨_, _, _, zipping, evaluating⟩ := alignShapes_semilattice (H := Heap (List Routine))
  have proper : ∀ array ∈ zips.operands, array.IsProper :=
    List.forall_mem_cons.2 ⟨row_isBounded.empty, List.forall_mem_cons.2
      ⟨table_isBounded.empty, List.forall_mem_singleton.2 row_isBounded.empty⟩⟩
  have zipped : ∃ result, zips.zipped = .ok result :=
    Chain.zipped_of_aligned proper (rfl : zips.aligned? shape = some [2, 3])
      (rfl : measure [2, 3] = .ok 6)
  have same : zips.operands.Perm zipsRegrouped.operands :=
    .cons row (.swap row table [])
  have properTests : ∀ value ∈ tests.operands, value.toArray.IsProper :=
    List.forall_mem_cons.2 ⟨(absurd · Nat.one_ne_zero), List.forall_mem_cons.2
      ⟨(absurd · (by decide)), List.forall_mem_singleton.2 (absurd · Nat.one_ne_zero)⟩⟩
  have carries : ∀ function ∈ tests.steps ++ testsRegrouped.steps,
      function.CarriesScalars (Heap (List Routine)) := by
    intro function member
    have isEquals : function = equals := by simpa [tests, testsRegrouped, Chain.steps] using member
    exact isEquals ▸ Primitive.carriesScalars 0 (by decide)
  have sameTests : tests.operands.Perm testsRegrouped.operands :=
    .swap word letter [letter]
  refine ⟨zipped, (zipping zips zipsRegrouped proper same).1.1 zipped, fun calling => ?_⟩
  have gives : (tests.evaluate : Run Value).Gives calling (.list #[.ofBool false, .ofBool false]) :=
    ⟨⟨⟨#[], #[]⟩, 0, 0⟩, _, rfl⟩
  exact ⟨_, gives, rfl, (evaluating tests testsRegrouped properTests carries sameTests _ _ gives).1⟩

end ShapedArray

end PointFree
