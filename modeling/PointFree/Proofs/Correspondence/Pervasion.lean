import PointFree.Primitive.Scalar
import PointFree.Proofs.Correspondence.Nested
import PointFree.Value.Pervasion

/-!
Contract: scalar functions on corresponding values.

A rule for leaves that keeps the correspondence keeps it when it is carried
through nested arrays, and every scalar rule of the primitives does.
-/

namespace PointFree.Correspondence

variable {H K : Type} {c : Correspondence H K} {W : c.World}

/-! ### One operand -/

theorem Actions.computed (shape : Shape) {item : Nat → Action H Value}
    {item' : Nat → Action K Value}
    (items : ∀ index, c.Actions W c.Values (item index) (item' index)) :
    c.Actions W c.Values (computed shape item) (computed shape item') := by
  refine Actions.bind (Actions.lift (Outcomes.measure (W := W) shape)) fun later size _ same => ?_
  cases same
  refine Actions.bind (Actions.collect (fun index => (items index).mono later) size) ?_
  exact fun _ _ _ rows => Actions.pure (.array (.ofView _ _ .none (Elements.stored rows)))

/-- A rule for leaves that keeps the correspondence. -/
def Rules (c : Correspondence H K) (W : c.World) (rule rule' : Value → Outcome Value) : Prop :=
  ∀ ⦃V⦄, W ≤ V → ∀ ⦃leaf leaf'⦄, c.Values V leaf leaf' →
    c.Outcomes (c.Values V) (rule leaf) (rule' leaf')

theorem Rules.mono {V : c.World} {rule rule' : Value → Outcome Value} (later : W ≤ V)
    (rules : c.Rules W rule rule') : c.Rules V rule rule' :=
  fun _ after => rules (le_trans later after)

theorem Rules.lift {rule rule' : Value → Outcome Value} (rules : c.Rules W rule rule')
    {leaf leaf' : Value} (leaves : c.Values W leaf leaf') :
    c.Actions W c.Values (liftM (rule leaf)) (liftM (rule' leaf')) :=
  Actions.lift (rules le_rfl leaves)

theorem Rules.leaf {rule rule' : Value → Outcome Value} (rules : c.Rules W rule rule')
    {next : Value → Action H Value} {next' : Value → Action K Value} {leaf leaf' : Value}
    (leaves : c.Values W leaf leaf') (flat : leaf.isArray = false) :
    c.Actions W c.Values (leaf.mapLeavesThrough rule next)
      (leaf'.mapLeavesThrough rule' next') := by
  cases leaves with
  | number number => exact rules.lift (.number number)
  | character letter => exact rules.lift (.character letter)
  | function functions => exact rules.lift (.function functions)
  | array => cases flat

theorem Arrays.mapLeavesOfParts {rule rule' : Value → Outcome Value}
    {next : Value → Action H Value} {next' : Value → Action K Value} {view : View} {shape : Shape}
    {fill fill' : Option Value} {element element' : Nat → Element}
    (items : ∀ index,
      c.Actions W c.Values ((element index).mapLeavesThrough rule next)
        ((element' index).mapLeavesThrough rule' next')) :
    c.Actions W c.Values
      ((ShapedArray.mk view shape fill element).mapLeavesThrough rule next)
      ((ShapedArray.mk view shape fill' element').mapLeavesThrough rule' next') := by
  refine Actions.bind (Actions.collect items shape.size) fun later _ _ rows => ?_
  refine Actions.bind (Actions.lift (Arrays.new shape rows)) fun after _ _ arrays => ?_
  exact Actions.pure (.array arrays)

mutual

theorem Values.mapLeavesThrough {rule rule' : Value → Outcome Value} (rules : c.Rules W rule rule')
    {next : Value → Action H Value} {next' : Value → Action K Value}
    (nexts : Next c.Values c.Values W next next') {value value' : Value} :
    c.Values W value value' →
      c.Actions W c.Values (value.mapLeavesThrough rule next)
        (value'.mapLeavesThrough rule' next')
  | .number number => rules.leaf (.number number) rfl
  | .character letter => rules.leaf (.character letter) rfl
  | .array arrays => arrays.mapLeavesThrough rules nexts
  | .function functions => rules.leaf (.function functions) rfl

theorem Arrays.mapLeavesThrough {rule rule' : Value → Outcome Value}
    (rules : c.Rules W rule rule') {next : Value → Action H Value}
    {next' : Value → Action K Value} (nexts : Next c.Values c.Values W next next')
    {array array' : ShapedArray} :
    c.Arrays W array array' →
      c.Actions W c.Values (array.mapLeavesThrough rule next)
        (array'.mapLeavesThrough rule' next')
  | .bare _ _ elements =>
      Arrays.mapLeavesOfParts fun index => (elements index).mapLeavesThrough rules nexts
  | .padded _ _ _ elements =>
      Arrays.mapLeavesOfParts fun index => (elements index).mapLeavesThrough rules nexts

theorem Elements.mapLeavesThrough {rule rule' : Value → Outcome Value}
    (rules : c.Rules W rule rule') {next : Value → Action H Value}
    {next' : Value → Action K Value} (nexts : Next c.Values c.Values W next next')
    {element element' : Element} :
    c.Elements W element element' →
      c.Actions W c.Values (element.mapLeavesThrough rule next)
        (element'.mapLeavesThrough rule' next')
  | .value values => values.mapLeavesThrough rules nexts
  | .failure failures => Actions.afterForce (.failure failures) nexts
  | .combined pending functions lefts rights =>
      Actions.afterForce (.combined pending functions lefts rights) nexts
  | .selected count pending indices parents =>
      Actions.afterForce (.selected count pending indices parents) nexts

end

theorem Values.mapLeaves {rule rule' : Value → Outcome Value} (rules : c.Rules W rule rule')
    {value value' : Value} (values : c.Values W value value') :
    c.Actions W c.Values (value.mapLeaves rule) (value'.mapLeaves rule') :=
  Actions.rounds callBudget values fun before nexts _ _ values =>
    values.mapLeavesThrough (rules.mono before) fun _ later _ _ => nexts later

/-! ### Two operands -/

theorem Rules.against {rule rule' : Value → Outcome Value} (rules : c.Rules W rule rule')
    {next : Value → Action H Value} {next' : Value → Action K Value} {leaf leaf' : Value}
    (leaves : c.Values W leaf leaf') (flat : leaf.isArray = false) :
    c.Actions W c.Values (leaf.againstLeavesThrough rule next)
      (leaf'.againstLeavesThrough rule' next') := by
  cases leaves with
  | number number => exact rules.lift (.number number)
  | character letter => exact rules.lift (.character letter)
  | function functions => exact rules.lift (.function functions)
  | array => cases flat

mutual

theorem Values.againstLeavesThrough {rule rule' : Value → Outcome Value}
    (rules : c.Rules W rule rule') {next : Value → Action H Value}
    {next' : Value → Action K Value} (nexts : Next c.Values c.Values W next next')
    {value value' : Value} :
    c.Values W value value' →
      c.Actions W c.Values (value.againstLeavesThrough rule next)
        (value'.againstLeavesThrough rule' next')
  | .number number => rules.against (.number number) rfl
  | .character letter => rules.against (.character letter) rfl
  | .array arrays => arrays.againstLeavesThrough rules nexts
  | .function functions => rules.against (.function functions) rfl

theorem Arrays.againstLeavesThrough {rule rule' : Value → Outcome Value}
    (rules : c.Rules W rule rule') {next : Value → Action H Value}
    {next' : Value → Action K Value} (nexts : Next c.Values c.Values W next next')
    {array array' : ShapedArray} :
    c.Arrays W array array' →
      c.Actions W c.Values (array.againstLeavesThrough rule next)
        (array'.againstLeavesThrough rule' next')
  | .bare _ shape elements =>
      Actions.computed shape fun index => (elements index).againstLeavesThrough rules nexts
  | .padded _ shape _ elements =>
      Actions.computed shape fun index => (elements index).againstLeavesThrough rules nexts

theorem Elements.againstLeavesThrough {rule rule' : Value → Outcome Value}
    (rules : c.Rules W rule rule') {next : Value → Action H Value}
    {next' : Value → Action K Value} (nexts : Next c.Values c.Values W next next')
    {element element' : Element} :
    c.Elements W element element' →
      c.Actions W c.Values (element.againstLeavesThrough rule next)
        (element'.againstLeavesThrough rule' next')
  | .value values => values.againstLeavesThrough rules nexts
  | .failure failures => Actions.afterForce (.failure failures) nexts
  | .combined pending functions lefts rights =>
      Actions.afterForce (.combined pending functions lefts rights) nexts
  | .selected count pending indices parents =>
      Actions.afterForce (.selected count pending indices parents) nexts

end

/-- A rule for two leaves that keeps the correspondence. -/
def Joins (c : Correspondence H K) (W : c.World) (rule rule' : Value → Value → Outcome Value) :
    Prop :=
  ∀ ⦃V⦄, W ≤ V → ∀ ⦃left left'⦄, c.Values V left left' →
    c.Rules V (rule left) (rule' left')

theorem Joins.mono {V : c.World} {rule rule' : Value → Value → Outcome Value} (later : W ≤ V)
    (joins : c.Joins W rule rule') : c.Joins V rule rule' :=
  fun _ after => joins (le_trans later after)

theorem Joins.leaf {rule rule' : Value → Value → Outcome Value} (joins : c.Joins W rule rule')
    {next : Value × Value → Action H Value} {next' : Value × Value → Action K Value}
    (nexts : Next (Pairs c.Values c.Values) c.Values W next next')
    {leaf leaf' right right' : Value} (leaves : c.Values W leaf leaf')
    (rights : c.Values W right right') (flat : leaf.isArray = false) :
    c.Actions W c.Values (leaf.zipLeavesThrough rule next right)
      (leaf'.zipLeavesThrough rule' next' right') := by
  have paired : Next c.Values c.Values W (fun found => next (leaf, found))
      (fun found => next' (leaf', found)) :=
    fun _ later _ _ found => nexts later ⟨leaves.mono later, found⟩
  have walk := rights.againstLeavesThrough (joins le_rfl leaves) paired
  cases leaves with
  | number => exact walk
  | character => exact walk
  | function => exact walk
  | array => cases flat

theorem Actions.zipOfPending {element element' right right' : Element}
    {next : Value × Value → Action H Value} {next' : Value × Value → Action K Value}
    (elements : c.Elements W element element') (rights : c.Elements W right right')
    (nexts : Next (Pairs c.Values c.Values) c.Values W next next') :
    c.Actions W c.Values
      (do
        let left ← element.force
        let other ← right.force
        next (left, other))
      (do
        let left ← element'.force
        let other ← right'.force
        next' (left, other)) := by
  refine Actions.bind elements.force fun later _ _ firsts => ?_
  refine Actions.bind (rights.force.mono later) fun after _ _ seconds => ?_
  exact nexts (le_trans later after) ⟨firsts.mono after, seconds⟩

theorem Arrays.zipLeavesOfParts {rule rule' : Value → Value → Outcome Value}
    {next : Value × Value → Action H Value} {next' : Value × Value → Action K Value} {view : View}
    {shape : Shape} {fill fill' : Option Value} {element element' : Nat → Element}
    {right right' : Value} (rights : c.Values W right right')
    (items : ∀ {V other other'}, W ≤ V → c.Elements V other other' → ∀ index,
      c.Actions V c.Values ((element index).zipLeavesThrough rule next other)
        ((element' index).zipLeavesThrough rule' next' other')) :
    c.Actions W c.Values
      ((ShapedArray.mk view shape fill element).zipLeavesThrough rule next right)
      ((ShapedArray.mk view shape fill' element').zipLeavesThrough rule' next' right') := by
  have alone {leaf leaf' : Value} (leaves : c.Values W leaf leaf') :
      c.Actions W c.Values
        (computed shape fun index => (element index).zipLeavesThrough rule next (.value leaf))
        (computed shape fun index =>
          (element' index).zipLeavesThrough rule' next' (.value leaf')) :=
    Actions.computed shape (items le_rfl (.value leaves))
  cases rights with
  | number number => exact alone (.number number)
  | character letter => exact alone (.character letter)
  | function functions => exact alone (.function functions)
  | array arrays =>
      rw [ShapedArray.zipLeavesThrough, ShapedArray.zipLeavesThrough, arrays.shape_eq,
        arrays.count_eq]
      refine Actions.bind (Actions.lift (Outcomes.alignShapes (W := W) shape _)) ?_
      intro V later aligned _ same
      cases same
      exact Actions.computed aligned fun index =>
        items later ((arrays.mono later).element _) _

mutual

theorem Values.zipLeavesThrough {rule rule' : Value → Value → Outcome Value}
    (joins : c.Joins W rule rule') {V : c.World} {next : Value × Value → Action H Value}
    {next' : Value × Value → Action K Value} {left left' right right' : Value} :
    c.Values W left left' → W ≤ V →
      Next (Pairs c.Values c.Values) c.Values V next next' → c.Values V right right' →
      c.Actions V c.Values (left.zipLeavesThrough rule next right)
        (left'.zipLeavesThrough rule' next' right')
  | .number number, later, nexts, rights =>
      (joins.mono later).leaf nexts (.number number) rights rfl
  | .character letter, later, nexts, rights =>
      (joins.mono later).leaf nexts (.character letter) rights rfl
  | .function functions, later, nexts, rights =>
      (joins.mono later).leaf nexts (.function (functions.mono later)) rights rfl
  | .array arrays, later, nexts, rights => arrays.zipLeavesThrough joins later nexts rights

theorem Arrays.zipLeavesThrough {rule rule' : Value → Value → Outcome Value}
    (joins : c.Joins W rule rule') {V : c.World} {next : Value × Value → Action H Value}
    {next' : Value × Value → Action K Value} {left left' : ShapedArray} {right right' : Value} :
    c.Arrays W left left' → W ≤ V →
      Next (Pairs c.Values c.Values) c.Values V next next' → c.Values V right right' →
      c.Actions V c.Values (left.zipLeavesThrough rule next right)
        (left'.zipLeavesThrough rule' next' right')
  | .bare _ _ elements, later, nexts, rights =>
      Arrays.zipLeavesOfParts rights fun after others index =>
        (elements index).zipLeavesThrough joins (le_trans later after) (nexts.mono after) others
  | .padded _ _ _ elements, later, nexts, rights =>
      Arrays.zipLeavesOfParts rights fun after others index =>
        (elements index).zipLeavesThrough joins (le_trans later after) (nexts.mono after) others

theorem Elements.zipLeavesThrough {rule rule' : Value → Value → Outcome Value}
    (joins : c.Joins W rule rule') {V : c.World} {next : Value × Value → Action H Value}
    {next' : Value × Value → Action K Value} {left left' right right' : Element} :
    c.Elements W left left' → W ≤ V →
      Next (Pairs c.Values c.Values) c.Values V next next' → c.Elements V right right' →
      c.Actions V c.Values (left.zipLeavesThrough rule next right)
        (left'.zipLeavesThrough rule' next' right')
  | .value values, later, nexts, rights => by
      refine Actions.bind rights.force fun after _ _ others => ?_
      exact values.zipLeavesThrough joins (le_trans later after) (nexts.mono after) others
  | .failure failures, _, nexts, rights =>
      Actions.zipOfPending (.failure failures) rights nexts
  | .combined pending functions lefts others, later, nexts, rights =>
      Actions.zipOfPending
        (.combined pending (functions.mono later) (lefts.mono later) (others.mono later))
        rights nexts
  | .selected count pending indices parents, later, nexts, rights =>
      Actions.zipOfPending
        (.selected count pending (indices.mono later) fun place => (parents place).mono later)
        rights nexts

end

theorem Values.zipLeaves {rule rule' : Value → Value → Outcome Value}
    (joins : c.Joins W rule rule') {left left' right right' : Value}
    (lefts : c.Values W left left') (rights : c.Values W right right') :
    c.Actions W c.Values (left.zipLeaves rule right) (left'.zipLeaves rule' right') :=
  Actions.rounds (A := Pairs c.Values c.Values) callBudget ⟨lefts, rights⟩
    fun before nexts _ _ values =>
      values.1.zipLeavesThrough (joins.mono before) le_rfl (fun _ later _ _ => nexts later)
        values.2

/-! ### The scalar rules -/

theorem Rules.identity : c.Rules W .ok .ok :=
  fun _ _ _ _ leaves => .ok leaves

theorem Rules.onNumber (function : Float → Float) :
    c.Rules W (Scalar.onNumber function) (Scalar.onNumber function) := by
  intro V _ leaf leaf' leaves
  refine leaves.toNumber.map fun same => ?_
  cases same
  exact .number _

theorem Joins.onNumbers (function : Float → Float → Float) :
    c.Joins W (Scalar.onNumbers function) (Scalar.onNumbers function) := by
  intro V _ left left' lefts U later right right' rights
  refine Outcomes.bind lefts.toNumber fun same => ?_
  cases same
  refine Outcomes.bind rights.toNumber fun same => ?_
  cases same
  exact .ok (.number _)

theorem Outcomes.shift (letter : Char) (distance : Float) :
    c.Outcomes (c.Values W) (Scalar.shift letter distance) (Scalar.shift letter distance) := by
  rw [Scalar.shift]
  cases Decimal.toInt? distance with
  | none => exact .refuse rfl
  | some whole =>
      dsimp only
      cases Scalar.characterAt? _ with
      | none => exact .refuse rfl
      | some found => exact .ok (.character found)

theorem Joins.add : c.Joins W Scalar.add Scalar.add := by
  intro V _ left left' lefts U later right right' rights
  cases lefts with
  | number first =>
      cases rights with
      | number second => exact .ok (.number _)
      | character letter => exact Outcomes.shift letter first
      | array => exact .refuse rfl
      | function => exact .refuse rfl
  | character letter =>
      cases rights with
      | number distance => exact Outcomes.shift letter distance
      | character => exact .refuse rfl
      | array => exact .refuse rfl
      | function => exact .refuse rfl
  | array => cases rights <;> exact .refuse rfl
  | function => cases rights <;> exact .refuse rfl

theorem Outcomes.subtract {left left' right right' : Value} {V : c.World}
    (lefts : c.Values W left left') (rights : c.Values V right right') :
    c.Outcomes (c.Values V) (Scalar.subtract left right) (Scalar.subtract left' right') := by
  cases lefts with
  | number first =>
      cases rights with
      | number second => exact .ok (.number _)
      | character => exact .refuse rfl
      | array => exact .refuse rfl
      | function => exact .refuse rfl
  | character letter =>
      cases rights with
      | number distance => exact Outcomes.shift letter (-distance)
      | character second => exact .ok (.number _)
      | array => exact .refuse rfl
      | function => exact .refuse rfl
  | array => cases rights <;> exact .refuse rfl
  | function => cases rights <;> exact .refuse rfl

theorem Joins.subtract : c.Joins W Scalar.subtract Scalar.subtract :=
  fun _ _ _ _ lefts _ _ _ _ rights => Outcomes.subtract lefts rights

theorem Joins.unadd : c.Joins W Scalar.unadd Scalar.unadd :=
  fun _ _ _ _ lefts _ later _ _ rights => Outcomes.subtract rights (lefts.mono later)

theorem Outcomes.compare {left left' right right' : Value} {V : c.World}
    (lefts : c.Values W left left') (rights : c.Values V right right') :
    c.Outcomes (c.Same V) (Scalar.compare left right) (Scalar.compare left' right') := by
  cases lefts with
  | number first =>
      cases rights with
      | number second =>
          rw [Scalar.compare]
          split
          · exact .ok rfl
          split
          · exact .ok rfl
          split
          · exact .ok rfl
          · exact .refuse rfl
      | character => exact .ok rfl
      | array => exact .refuse rfl
      | function => exact .refuse rfl
  | character =>
      cases rights with
      | number => exact .ok rfl
      | character => exact .ok rfl
      | array => exact .refuse rfl
      | function => exact .refuse rfl
  | array => cases rights <;> exact .refuse rfl
  | function => cases rights <;> exact .refuse rfl

theorem Joins.compares (holds : Ordering → Bool) :
    c.Joins W (Scalar.compares holds) (Scalar.compares holds) := by
  intro V _ left left' lefts U later right right' rights
  refine (Outcomes.compare lefts rights).map fun same => ?_
  cases same
  exact .number _

theorem Joins.equals : c.Joins W Scalar.equals Scalar.equals := by
  intro V _ left left' lefts U later right right' rights
  rw [Scalar.equals, Scalar.equals, (lefts.mono later).sameLeaf_eq rights]
  exact .ok (.number _)

theorem Joins.differs : c.Joins W Scalar.differs Scalar.differs := by
  intro V _ left left' lefts U later right right' rights
  rw [Scalar.differs, Scalar.differs, (lefts.mono later).sameLeaf_eq rights]
  exact .ok (.number _)

end PointFree.Correspondence
