import PointFree.Function.Operation
import PointFree.Primitive.Forms
import PointFree.Proofs.Correspondence.Cellwise
import PointFree.Proofs.Correspondence.Pervasion

/-!
Contract: primitives on corresponding values, and operations that go the same way.

A primitive is one rule for every heap, so applying it goes the same way on both
sides, forward and backward. What a modifier does with an operation depends on the operation
only through its calls, so it goes the same way for operations that do.
-/

namespace PointFree.Correspondence

variable {H K : Type} {c : Correspondence H K} {W : c.World}

/-- A form for one argument goes the same way on both sides, if there is one. -/
inductive Monads (c : Correspondence H K) : Option Primitive.Monadic → Prop where
  | none : Monads c none
  | some {rule : Primitive.Monadic} :
      (∀ {W right right'}, c.Values W right right' →
        c.Actions W c.Values (rule right) (rule right')) →
      Monads c (some @rule)

inductive Dyads (c : Correspondence H K) : Option Primitive.Dyadic → Prop where
  | none : Dyads c none
  | some {rule : Primitive.Dyadic} :
      (∀ {W left left' right right'}, c.Values W left left' → c.Values W right right' →
        c.Actions W c.Values (rule left right) (rule left' right')) →
      Dyads c (some @rule)

theorem Monads.eachLeaf {rule : Value → Outcome Value}
    (rules : ∀ W, c.Rules W rule rule) : Monads c (Primitive.eachLeaf rule) :=
  .some fun rights => rights.mapLeaves (rules _)

theorem Monads.eachNumber (function : Float → Float) :
    Monads c (Primitive.eachLeaf (Scalar.onNumber function)) :=
  .eachLeaf fun _ => Rules.onNumber function

theorem Dyads.eachPair {rule : Value → Value → Outcome Value}
    (joins : ∀ W, c.Joins W rule rule) : Dyads c (Primitive.eachPair rule) :=
  .some fun lefts rights => lefts.zipLeaves (joins _) rights

theorem Dyads.eachNumbers (function : Float → Float → Float) :
    Dyads c (Primitive.eachPair (Scalar.onNumbers function)) :=
  .eachPair fun _ => Joins.onNumbers function

theorem Monads.forward (primitive : Primitive) : Monads c primitive.monad? := by
  cases primitive with
  | add => exact .eachLeaf fun _ => Rules.identity
  | subtract => exact .eachNumber _
  | multiply => exact .eachNumber _
  | divide => exact .eachNumber _
  | power => exact .eachNumber _
  | root => exact .eachNumber _
  | floor => exact .eachNumber _
  | ceiling => exact .eachNumber _
  | modulus => exact .eachNumber _
  | not => exact .eachNumber _
  | and => exact .none
  | or => exact .none
  | lessOrEqual => exact .none
  | greaterOrEqual => exact .none
  | equals => exact .some Actions.rank
  | notEquals => exact .some Actions.length
  | less => exact .some Actions.enclose
  | greater => exact .some Actions.mergeElements
  | right => exact .some Actions.pure
  | left => exact .some Actions.pure
  | shape => exact .some Actions.shape
  | depth => exact .some Actions.depth
  | reshape => exact .some Actions.deshape
  | range => exact .some Actions.range
  | reverse => exact .some Actions.reverse
  | pick => exact .some Actions.first
  | select => exact .some Actions.firstCell
  | take => exact .some Actions.prefixes
  | drop => exact .some Actions.suffixes
  | join => exact .some Actions.join
  | couple => exact .some Actions.solo
  | pair => exact .some Actions.enlist
  | replicate => exact .some Actions.indices
  | assert => exact .some Actions.assert

theorem Dyads.forward (primitive : Primitive) : Dyads c primitive.dyad? := by
  cases primitive with
  | add => exact .eachPair fun _ => Joins.add
  | subtract => exact .eachPair fun _ => Joins.subtract
  | multiply => exact .eachNumbers _
  | divide => exact .eachNumbers _
  | power => exact .eachNumbers _
  | root => exact .eachNumbers _
  | floor => exact .eachNumbers _
  | ceiling => exact .eachNumbers _
  | modulus => exact .eachNumbers _
  | not => exact .eachNumbers _
  | and => exact .eachNumbers _
  | or => exact .eachNumbers _
  | equals => exact .eachPair fun _ => Joins.equals
  | notEquals => exact .eachPair fun _ => Joins.differs
  | less => exact .eachPair fun _ => Joins.compares _
  | greater => exact .eachPair fun _ => Joins.compares _
  | lessOrEqual => exact .eachPair fun _ => Joins.compares _
  | greaterOrEqual => exact .eachPair fun _ => Joins.compares _
  | right => exact .some fun _ rights => Actions.pure rights
  | left => exact .some fun lefts _ => Actions.pure lefts
  | shape => exact .some Actions.differs
  | depth => exact .some Actions.equals
  | reshape => exact .some Actions.reshape
  | range => exact .none
  | reverse => exact .some Actions.rotate
  | pick => exact .some Actions.pick
  | select => exact .some Actions.select
  | take => exact .some Actions.take
  | drop => exact .some Actions.drop
  | join => exact .some Actions.joinTo
  | couple => exact .some Actions.couple
  | pair => exact .some Actions.pair
  | replicate => exact .some Actions.replicate
  | assert => exact .some Actions.assertSaying

theorem Monads.backward (primitive : Primitive) : Monads c primitive.monadInverse? := by
  cases primitive with
  | add => exact .eachLeaf fun _ => Rules.identity
  | subtract => exact .eachNumber _
  | divide => exact .eachNumber _
  | power => exact .eachNumber _
  | root => exact .eachNumber _
  | not => exact .eachNumber _
  | right => exact .some Actions.pure
  | reverse => exact .some Actions.reverse
  | _ => exact .none

theorem Dyads.backward (primitive : Primitive) : Dyads c primitive.dyadInverse? := by
  cases primitive with
  | add => exact .eachPair fun _ => Joins.unadd
  | subtract => exact .eachPair fun _ => Joins.subtract
  | multiply => exact .eachNumbers _
  | divide => exact .eachNumbers _
  | power => exact .eachNumbers _
  | root => exact .eachNumbers _
  | not => exact .eachNumbers _
  | right => exact .some fun _ rights => Actions.pure rights
  | reverse => exact .some Actions.rotateBack
  | _ => exact .none

theorem Actions.dispatch (primitive : Primitive) {monad : Option Primitive.Monadic}
    {dyad : Option Primitive.Dyadic} (monads : Monads c monad) (dyads : Dyads c dyad)
    {right right' : Value} {left left' : Option Value} (rights : c.Values W right right')
    (lefts : Options c.Values W left left') :
    c.Actions W c.Values (primitive.dispatch monad dyad right left)
      (primitive.dispatch monad dyad right' left') := by
  cases lefts with
  | none =>
      cases monads with
      | none => exact Actions.refuse rfl
      | some rules => exact rules rights
  | some lefts =>
      cases dyads with
      | none => exact Actions.refuse rfl
      | some rules => exact rules lefts rights

end PointFree.Correspondence

namespace PointFree.Correspondence

variable {H K : Type} {c : Correspondence H K} {W : c.World}
variable {right right' : Value} {left left' : Option Value}

def Operations (c : Correspondence H K) (W : c.World) (operation : Operation H)
    (operation' : Operation K) : Prop :=
  ∀ ⦃V⦄, W ≤ V → ∀ ⦃right right' left left'⦄, c.Values V right right' →
    Options c.Values V left left' →
      c.Actions V c.Values (operation right left) (operation' right' left')

variable {operation : Operation H} {operation' : Operation K}

theorem Operations.mono {V : c.World} (later : W ≤ V)
    (operations : c.Operations W operation operation') :
    c.Operations V operation operation' :=
  fun _ after => operations (le_trans later after)

/-! ### Elements -/

theorem Operations.eachElement (operations : c.Operations W operation operation')
    (rights : c.Values W right right') :
    c.Actions W c.Values (operation.eachElement right) (operation'.eachElement right') := by
  cases rights with
  | number number => exact operations le_rfl (.number number) .none
  | character letter => exact operations le_rfl (.character letter) .none
  | function functions => exact operations le_rfl (.function functions) .none
  | array arrays =>
      rw [Operation.eachElement, Operation.eachElement, arrays.count_eq, arrays.shape_eq]
      refine Actions.bind (Actions.collect (A := c.Values) (fun index => ?_) _) ?_
      · exact (arrays.pick index).bind fun later _ _ items => operations later items .none
      · intro V later row row' rows
        refine Actions.bind (Actions.lift (Arrays.new _ rows)) fun _ _ _ results => ?_
        exact Actions.pure (.array results)

theorem Operations.eachAligned {right right' left left' : ShapedArray}
    (operations : c.Operations W operation operation') (rights : c.Arrays W right right')
    (lefts : c.Arrays W left left') :
    c.Actions W c.Values (operation.eachAligned right left)
      (operation'.eachAligned right' left') := by
  rw [Operation.eachAligned, Operation.eachAligned, lefts.shape_eq, rights.shape_eq,
    lefts.count_eq, rights.count_eq]
  refine Actions.bind (Actions.lift (Outcomes.alignShapes (W := W) _ _)) ?_
  intro V before shape _ same
  cases same
  refine Actions.bind (Actions.lift (Outcomes.measure (W := V) shape)) ?_
  intro U behind size _ same
  cases same
  have present := le_trans before behind
  refine Actions.bind (Actions.collect (A := c.Values) (fun index => ?_) size) ?_
  · refine Actions.bind ((lefts.mono present).pick _) fun later _ _ firsts => ?_
    refine Actions.bind ((rights.mono (le_trans present later)).pick _) ?_
    intro _ after _ _ seconds
    exact operations (le_trans present (le_trans later after)) seconds (.some (firsts.mono after))
  · intro _ _ row row' rows
    exact Actions.pure (.array (.ofView _ _ .none (Elements.stored rows)))

theorem Operations.each (operations : c.Operations W operation operation')
    (rights : c.Values W right right') (lefts : Options c.Values W left left') :
    c.Actions W c.Values (operation.each right left) (operation'.each right' left') := by
  cases lefts with
  | none => exact operations.eachElement rights
  | some lefts =>
      rw [Operation.each, Operation.each, lefts.isArray_eq, rights.isArray_eq]
      split
      · exact operations.eachAligned rights.toArray lefts.toArray
      · exact operations le_rfl rights (.some lefts)

theorem Rows.flatten {rows rows' : Array (Array Value)}
    (related : Rows (Rows c.Values) W rows rows') :
    Rows c.Values W rows.flatten rows'.flatten := by
  rw [Rows, Lists, Array.toList_flatten, Array.toList_flatten]
  rw [Rows] at related
  generalize rows.toList = list at related
  generalize rows'.toList = list' at related
  induction related with
  | nil => exact .nil
  | cons first _ inductionHypothesis => exact List.rel_append first inductionHypothesis

theorem Operations.table (operations : c.Operations W operation operation')
    (rights : c.Values W right right') (lefts : Options c.Values W left left') :
    c.Actions W c.Values (operation.table right left) (operation'.table right' left') := by
  cases lefts with
  | none => exact operations.eachElement rights
  | some lefts =>
      have rows := lefts.toArray
      have columns := rights.toArray
      rw [Operation.table, Operation.table]
      rw [rows.shape_eq, columns.shape_eq, rows.count_eq, columns.count_eq]
      refine Actions.bind (Actions.lift (Outcomes.measure (W := W) _)) fun before _ _ _ => ?_
      refine Actions.bind (Actions.collect (A := Rows c.Values) (fun row => ?_) _) ?_
      · refine Actions.bind ((rows.mono before).pick row) fun later _ _ firsts => ?_
        refine Actions.collect (fun column => ?_) _
        refine Actions.bind ((columns.mono (le_trans before later)).pick column) ?_
        intro _ after _ _ seconds
        exact operations (le_trans before (le_trans later after)) seconds
          (.some (firsts.mono after))
      · intro _ _ _ _ results
        refine Actions.bind (Actions.lift (Arrays.new _ results.flatten)) fun _ _ _ arrays => ?_
        exact Actions.pure (.array arrays)

/-! ### Cells -/

inductive Companions (c : Correspondence H K) (W : c.World) :
    Operation.Companion → Operation.Companion → Prop where
  | whole {left left' : Option Value} :
      Options c.Values W left left' → Companions c W (.whole left) (.whole left')
  | cells {left left' : ShapedArray} :
      c.Arrays W left left' → Companions c W (.cells left) (.cells left')

instance : Lasting c.Companions where
  mono later companions := by
    cases companions with
    | whole lefts => exact .whole (lefts.mono later)
    | cells arrays => exact .cells (arrays.mono later)

theorem Outcomes.companion (frame : Shape) (lefts : Options c.Values W left left') :
    c.Outcomes (c.Companions W) (Operation.companion frame left)
      (Operation.companion frame left') := by
  cases lefts with
  | none => exact .ok (.whole .none)
  | some lefts =>
      cases lefts with
      | number number => exact .ok (.whole (.some (.number number)))
      | character letter => exact .ok (.whole (.some (.character letter)))
      | function functions => exact .ok (.whole (.some (.function functions)))
      | array arrays =>
          rw [Operation.companion, Operation.companion, arrays.rank_eq, arrays.shape_eq]
          split
          · exact .ok (.whole (.some (.array arrays)))
          split
          · exact .ok (.cells arrays)
          · exact .refuse rfl

theorem Companions.cellAt {others others' : Operation.Companion} (position : List Nat)
    (companions : c.Companions W others others') :
    c.Actions W (Options c.Values) (others.cellAt position) (others'.cellAt position) := by
  cases companions with
  | whole lefts => exact Actions.pure lefts
  | cells arrays =>
      exact (arrays.cellAt position).bind fun _ _ _ cells => Actions.pure (.some cells)

theorem Operations.atRank (operations : c.Operations W operation operation') (asked : Int)
    (rights : c.Values W right right') (lefts : Options c.Values W left left') :
    c.Actions W c.Values (operation.atRank asked right left)
      (operation'.atRank asked right' left') := by
  have arrays := rights.toArray
  rw [Operation.atRank, Operation.atRank]
  dsimp only
  rw [arrays.rank_eq, arrays.shape_eq]
  split
  · exact operations le_rfl rights lefts
  · refine Actions.bind (Actions.lift (Outcomes.companion _ lefts)) ?_
    intro V before others others' companions
    refine Actions.bind (Actions.mapM (A := c.Same) (B := c.Values) (fun present position _ same
      => ?_) (Lists.refl_of _ fun _ _ => rfl)) ?_
    · cases same
      have present := le_trans before present
      refine Actions.bind ((arrays.mono present).cellAt position) fun later _ _ cells => ?_
      refine Actions.bind ((Lasting.mono (le_trans ‹_› later) companions).cellAt position) ?_
      intro _ after _ _ beside
      exact operations (le_trans present (le_trans later after)) (cells.mono after) beside
    · intro V _ results results' related
      have rows : Rows c.Values V results.toArray results'.toArray := related
      refine Actions.bind (Arrays.merge rows .none _) fun _ _ _ merged => ?_
      exact Actions.pure (.array merged)

theorem Operations.cells (operations : c.Operations W operation operation')
    (rights : c.Values W right right') (lefts : Options c.Values W left left') :
    c.Actions W c.Values (operation.cells right left) (operation'.cells right' left') := by
  rw [Operation.cells, Operation.cells, rights.rank_eq]
  split
  · exact Actions.refuse rfl
  · exact operations.atRank (-1) rights lefts

theorem Operations.fold (operations : c.Operations W operation operation')
    (rights : c.Values W right right') (lefts : Options c.Values W left left') :
    c.Actions W c.Values (operation.fold right left) (operation'.fold right' left') := by
  cases rights with
  | number => exact Actions.refuse rfl
  | character => exact Actions.refuse rfl
  | function => exact Actions.refuse rfl
  | array arrays =>
      refine Actions.bind arrays.majorCells fun {V} later row row' rows => ?_
      have step {U : c.World} (after : V ≤ U) {total total' cell cell' : Value}
          (totals : c.Values U total total') (cells : c.Values U cell cell') :
          c.Actions U c.Values (operation total (some cell)) (operation' total' (some cell')) :=
        operations (le_trans later after) totals (.some cells)
      have backward : Lists c.Values V row.toList.reverse row'.toList.reverse :=
        Lists.reverse rows
      generalize row.toList.reverse = list at backward
      generalize row'.toList.reverse = list' at backward
      cases lefts.mono later with
      | some seed => exact Actions.foldlM step backward seed
      | none =>
          cases backward with
          | nil => exact Actions.refuse rfl
          | cons last backward => exact Actions.foldlM step backward last

theorem Operations.scanStep (operations : c.Operations W operation operation')
    {state state' : Array Value × Option Value} {cell cell' : Value}
    (states : Pairs (Rows c.Values) (Options c.Values) W state state')
    (cells : c.Values W cell cell') :
    c.Actions W (Pairs (Rows c.Values) (Options c.Values)) (operation.scanStep state cell)
      (operation'.scanStep state' cell') := by
  obtain ⟨found, before⟩ := state
  obtain ⟨found', before'⟩ := state'
  obtain ⟨rows, befores⟩ := states
  cases befores with
  | none => exact Actions.pure ⟨rows.push cells, .some cells⟩
  | some befores =>
      refine (operations le_rfl cells (.some befores)).bind fun later _ _ next => ?_
      exact Actions.pure ⟨(rows.mono later).push next, .some next⟩

theorem Operations.scan (operations : c.Operations W operation operation')
    (rights : c.Values W right right') (lefts : Options c.Values W left left') :
    c.Actions W c.Values (operation.scan right left) (operation'.scan right' left') := by
  cases rights with
  | number => exact Actions.refuse rfl
  | character => exact Actions.refuse rfl
  | function => exact Actions.refuse rfl
  | array arrays =>
      refine Actions.bind arrays.majorCells fun {V} later _ _ rows => ?_
      have step {U : c.World} (after : V ≤ U) {state state' : Array Value × Option Value}
          {cell cell' : Value} (states : Pairs (Rows c.Values) (Options c.Values) U state state')
          (cells : c.Values U cell cell') :
          c.Actions U (Pairs (Rows c.Values) (Options c.Values)) (operation.scanStep state cell)
            (operation'.scanStep state' cell') :=
        (operations.mono (le_trans later after)).scanStep states cells
      refine Actions.bind (Actions.foldRow (A := c.Values) step rows ⟨.nil, lefts.mono later⟩) ?_
      intro _ after ended ended' related
      have fills := arrays.fill.mono (le_trans later after)
      refine Actions.bind (Arrays.mergeList related.1 fills) fun _ _ _ merged => ?_
      exact Actions.pure (.array merged)

end PointFree.Correspondence
