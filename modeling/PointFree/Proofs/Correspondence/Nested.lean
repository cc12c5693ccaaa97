import PointFree.Proofs.Correspondence.Cell
import PointFree.Value.Depth
import PointFree.Value.Equality
import PointFree.Value.Text

/-!
Contract: walks through corresponding values.

The written form, depth and equality follow a value down through its arrays. What
they meet on the way corresponds on both sides, so the walks go the same way.
Equality is where the stamps of functions matter: a
function has one partner, so two functions are the same just when their partners
are.
-/

namespace PointFree.Correspondence

variable {H K : Type} {c : Correspondence H K} {W : c.World}

/-! ### Written forms -/

theorem texts_around {left left' right right' : String} (glyph : String)
    (lefts : c.texts left left') (rights : c.texts right right') :
    c.texts ("(" ++ left ++ glyph ++ right ++ ")") ("(" ++ left' ++ glyph ++ right' ++ ")") := by
  have opened := c.texts_append (c.texts_refl "(") lefts
  have joined := c.texts_append (c.texts_append opened (c.texts_refl glyph)) rights
  exact c.texts_append joined (c.texts_refl ")")

theorem texts_intercalate (separator : String) {texts texts' : List String}
    (lists : Lists c.Texts W texts texts') :
    c.texts (separator.intercalate texts) (separator.intercalate texts') := by
  have one (text : String) : separator.intercalate [text] = text := rfl
  -- Two texts at the front can be joined first.
  have join (first second : String) (rest : List String) :
      separator.intercalate (first :: second :: rest) =
        separator.intercalate ((first ++ separator ++ second) :: rest) := rfl
  cases lists with
  | nil => exact c.texts_refl _
  | @cons first first' rest rest' firsts lists =>
      induction lists generalizing first first' with
      | nil => rwa [one, one]
      | cons seconds _ inductionHypothesis =>
          rw [join, join]
          exact inductionHypothesis
            (c.texts_append (c.texts_append firsts (c.texts_refl _)) seconds)

mutual

theorem Functions.name {function function' : Function} :
    c.Functions W function function' → c.texts function.name function'.name
  | .mk _ forms => forms.name

theorem Forms.name {form form' : Form} :
    c.Forms W form form' → c.texts form.name form'.name
  | .primitive primitive => c.texts_refl _
  | .constant _ texts => c.texts_append texts (c.texts_refl _)
  | .atop left right =>
      c.texts_append (c.texts_append (c.texts_append (c.texts_refl _) left.name) right.name)
        (c.texts_refl _)
  | .fork left middle right =>
      c.texts_append (c.texts_append (c.texts_append
        (c.texts_append (c.texts_refl _) left.name) middle.name) right.name) (c.texts_refl _)
  | .over left right => texts_around _ left.name right.name
  | .under left right => texts_around _ left.name right.name
  | .rank left right => texts_around _ left.name right.name
  | .before left right => texts_around _ left.name right.name
  | .after left right => texts_around _ left.name right.name
  | .swap operand => c.texts_append operand.name (c.texts_refl _)
  | .each operand => c.texts_append operand.name (c.texts_refl _)
  | .table operand => c.texts_append operand.name (c.texts_refl _)
  | .cells operand => c.texts_append operand.name (c.texts_refl _)
  | .fold operand => c.texts_append operand.name (c.texts_refl _)
  | .scan operand => c.texts_append operand.name (c.texts_refl _)
  | .inverse operand => c.texts_append operand.name (c.texts_refl _)
  | .block blocks => c.blocks_text blocks

end

theorem Elements.character? {element element' : Element}
    (elements : c.Elements W element element') :
    c.Actions W (Options c.Same) element.character?.run element'.character?.run := by
  refine Actions.bind elements.steady.attempt fun later _ _ outcomes => ?_
  cases outcomes with
  | error failures => exact Actions.pure .none
  | ok values =>
      cases values with
      | character letter => exact Actions.pure (.some rfl)
      | number number => exact Actions.pure .none
      | array arrays => exact Actions.pure .none
      | function functions => exact Actions.pure .none

theorem Arrays.string? {array array' : ShapedArray} (arrays : c.Arrays W array array') :
    c.Actions W c.Same array.string? array'.string? := by
  rw [ShapedArray.string?, ShapedArray.string?, arrays.rank_eq, arrays.count_eq]
  split
  · refine Actions.bind (Actions.collectOption (A := c.Same)
      (fun index => (arrays.element index).character?) _) fun later _ _ letters => ?_
    cases letters with
    | none => exact Actions.pure rfl
    | some rows =>
        cases rows.of_same
        exact Actions.pure rfl
  · exact Actions.pure rfl

theorem Values.string? {value value' : Value} (values : c.Values W value value') :
    c.Actions W c.Same value.string? value'.string? := by
  cases values with
  | array arrays => exact arrays.string?
  | number number => exact Actions.pure rfl
  | character letter => exact Actions.pure rfl
  | function functions => exact Actions.pure rfl

theorem Failures.elementText_eq {failure failure' : Failure}
    (failures : c.Failures failure failure') : failure.elementText = failure'.elementText := by
  rw [Failure.elementText, Failure.elementText, Failure.kind, Failure.kind,
    c.faults_kind failures.faults]

/-- What is left to do with a pending element goes the same way from this world
on. -/
def Next {α β β' : Type} (A : c.World → α → α → Prop) (B : c.World → β → β' → Prop) (W : c.World)
    (next : α → Action H β) (next' : α → Action K β') : Prop :=
  ∀ ⦃V⦄, W ≤ V → ∀ ⦃argument argument'⦄, A V argument argument' →
    c.Actions V B (next argument) (next' argument')

theorem Next.mono {α β β' : Type} {A : c.World → α → α → Prop} {B : c.World → β → β' → Prop}
    {V : c.World} {next : α → Action H β} {next' : α → Action K β'} (later : W ≤ V)
    (nexts : Next A B W next next') : Next A B V next next' :=
  fun _ after => nexts (le_trans later after)

theorem Actions.afterForce {β β' : Type} {B : c.World → β → β' → Prop}
    {next : Value → Action H β} {next' : Value → Action K β'} {element element' : Element}
    (elements : c.Elements W element element') (nexts : Next c.Values B W next next') :
    c.Actions W B
      (do
        let content ← element.force
        next content)
      (do
        let content ← element'.force
        next' content) :=
  elements.force.bind fun later _ _ values => nexts later values

theorem Actions.textOfPending {element element' : Element}
    {next : Value → Action H String} {next' : Value → Action K String}
    (elements : c.Elements W element element') (nexts : Next c.Values c.Texts W next next') :
    c.Actions W c.Texts
      (do
        match ← Action.attempt element.force with
        | .ok content => next content
        | .error reason => return reason.elementText)
      (do
        match ← Action.attempt element'.force with
        | .ok content => next' content
        | .error reason => return reason.elementText) := by
  refine Actions.bind elements.steady.attempt fun later _ _ outcomes => ?_
  cases outcomes with
  | ok values => exact nexts later values
  | error failures =>
      refine Actions.pure ?_
      rw [failures.elementText_eq]
      exact c.texts_refl _

/-- An array is written alike when its elements are. -/
theorem Arrays.textOfParts {next : Value → Action H String} {next' : Value → Action K String}
    {view : View} {shape : Shape} {fill fill' : Option Value} {element element' : Nat → Element}
    (arrays : c.Arrays W (.mk view shape fill element) (.mk view shape fill' element'))
    (items : ∀ index,
      c.Actions W c.Texts ((element index).textThrough next)
        ((element' index).textThrough next')) :
    c.Actions W c.Texts ((ShapedArray.mk view shape fill element).textThrough next)
      ((ShapedArray.mk view shape fill' element').textThrough next') := by
  rw [ShapedArray.textThrough, ShapedArray.textThrough]
  split
  · exact Actions.pure (c.texts_refl _)
  split
  · refine Actions.bind (items 0) fun later _ _ texts => ?_
    exact Actions.pure (c.texts_append (c.texts_refl _) texts)
  · refine Actions.bind arrays.string? fun later found _ same => ?_
    cases same
    cases found with
    | some string => exact Actions.pure (c.texts_refl _)
    | none =>
        refine Actions.bind (Actions.collect (fun index => (items index).mono later) _) ?_
        intro V after rows rows' texts
        refine Actions.pure ?_
        have opened := c.texts_append (c.texts_refl (axesText shape)) (c.texts_refl "⟨")
        have joined := c.texts_append opened (texts_intercalate ", " texts)
        exact c.texts_append joined (c.texts_refl "⟩")

mutual

theorem Values.textThrough {next : Value → Action H String} {next' : Value → Action K String}
    (nexts : Next c.Values c.Texts W next next') {value value' : Value} :
    c.Values W value value' →
      c.Actions W c.Texts (value.textThrough next) (value'.textThrough next')
  | .number number => Actions.pure (c.texts_refl _)
  | .character letter => Actions.pure (c.texts_refl _)
  | .array arrays => arrays.textThrough nexts
  | .function functions => Actions.pure functions.name

theorem Arrays.textThrough {next : Value → Action H String} {next' : Value → Action K String}
    (nexts : Next c.Values c.Texts W next next') {array array' : ShapedArray} :
    c.Arrays W array array' →
      c.Actions W c.Texts (array.textThrough next) (array'.textThrough next')
  | .bare view shape elements =>
      Arrays.textOfParts (.bare view shape elements) fun index =>
        (elements index).textThrough nexts
  | .padded view shape fills elements =>
      Arrays.textOfParts (.padded view shape fills elements) fun index =>
        (elements index).textThrough nexts

theorem Elements.textThrough {next : Value → Action H String} {next' : Value → Action K String}
    (nexts : Next c.Values c.Texts W next next') {element element' : Element} :
    c.Elements W element element' →
      c.Actions W c.Texts (element.textThrough next) (element'.textThrough next')
  | .value values => values.textThrough nexts
  | .failure failures => Actions.textOfPending (.failure failures) nexts
  | .combined pending functions lefts rights =>
      Actions.textOfPending (.combined pending functions lefts rights) nexts
  | .selected count pending indices parents =>
      Actions.textOfPending (.selected count pending indices parents) nexts

end

theorem Values.text {value value' : Value} (values : c.Values W value value') :
    c.Actions W c.Texts value.text value'.text :=
  Actions.rounds callBudget values fun _ nexts _ _ values =>
    values.textThrough fun _ later _ _ => nexts later

/-! ### Depth -/

mutual

theorem Values.depthThrough {next : Value → Action H Nat} {next' : Value → Action K Nat}
    (nexts : Next c.Values c.Same W next next') {value value' : Value} :
    c.Values W value value' →
      c.Actions W c.Same (value.depthThrough next) (value'.depthThrough next')
  | .number _ => Actions.pure rfl
  | .character _ => Actions.pure rfl
  | .array arrays => arrays.depthThrough nexts
  | .function _ => Actions.pure rfl

theorem Arrays.depthThrough {next : Value → Action H Nat} {next' : Value → Action K Nat}
    (nexts : Next c.Values c.Same W next next') {array array' : ShapedArray} :
    c.Arrays W array array' →
      c.Actions W c.Same (array.depthThrough next) (array'.depthThrough next')
  | .bare _ shape elements => by
      refine Actions.bind (Actions.collect (A := c.Same)
        (fun index => (elements index).depthThrough nexts) shape.size) fun _ _ _ rows => ?_
      cases rows.of_same
      exact Actions.pure rfl
  | .padded _ shape _ elements => by
      refine Actions.bind (Actions.collect (A := c.Same)
        (fun index => (elements index).depthThrough nexts) shape.size) fun _ _ _ rows => ?_
      cases rows.of_same
      exact Actions.pure rfl

theorem Elements.depthThrough {next : Value → Action H Nat} {next' : Value → Action K Nat}
    (nexts : Next c.Values c.Same W next next') {element element' : Element} :
    c.Elements W element element' →
      c.Actions W c.Same (element.depthThrough next) (element'.depthThrough next')
  | .value values => values.depthThrough nexts
  | .failure failures => Actions.afterForce (.failure failures) nexts
  | .combined pending functions lefts rights =>
      Actions.afterForce (.combined pending functions lefts rights) nexts
  | .selected count pending indices parents =>
      Actions.afterForce (.selected count pending indices parents) nexts

end

theorem Values.depth {value value' : Value} (values : c.Values W value value') :
    c.Actions W c.Same value.depth value'.depth :=
  Actions.rounds callBudget values fun _ nexts _ _ values =>
    values.depthThrough fun _ later _ _ => nexts later

/-! ### Equality -/

theorem Functions.same_eq {left left' right right' : Function}
    (lefts : c.Functions W left left') (rights : c.Functions W right right') :
    left.same right = left'.same right' := by
  cases lefts with
  | mk first =>
      cases rights with
      | mk second =>
          rw [Bool.eq_iff_iff, Function.same, Function.same, beq_iff_eq, beq_iff_eq]
          exact c.stamps_unique first second

theorem Values.sameLeaf_eq {left left' right right' : Value} (lefts : c.Values W left left')
    (rights : c.Values W right right') : left.sameLeaf right = left'.sameLeaf right' := by
  cases lefts with
  | number => cases rights <;> rfl
  | character => cases rights <;> rfl
  | array => cases rights <;> rfl
  | function first =>
      cases rights with
      | function second => exact first.same_eq second
      | number => rfl
      | character => rfl
      | array => rfl

theorem Actions.sameOfPending {element element' right right' : Element}
    {next : Value × Value → Action H Bool} {next' : Value × Value → Action K Bool}
    (elements : c.Elements W element element') (rights : c.Elements W right right')
    (nexts : Next (Pairs c.Values c.Values) c.Same W next next') :
    c.Actions W c.Same
      (do
        let left ← Action.attempt element.force
        let right ← Action.attempt right.force
        match left, right with
        | .ok first, .ok second => next (first, second)
        | _, _ => return false)
      (do
        let left ← Action.attempt element'.force
        let right ← Action.attempt right'.force
        match left, right with
        | .ok first, .ok second => next' (first, second)
        | _, _ => return false) := by
  refine Actions.bind elements.steady.attempt fun later _ _ firsts => ?_
  refine Actions.bind (rights.mono later).steady.attempt fun after _ _ seconds => ?_
  cases firsts with
  | error => exact Actions.pure rfl
  | ok first =>
      cases seconds with
      | error => exact Actions.pure rfl
      | ok second => exact nexts (le_trans later after) ⟨first.mono after, second⟩

theorem Values.sameAside {left left' right right' : Value}
    {next : Value × Value → Action H Bool} {next' : Value × Value → Action K Bool}
    (lefts : c.Values W left left') (rights : c.Values W right right')
    (flat : left.isArray = false) :
    c.Actions W c.Same (left.sameThrough next right) (left'.sameThrough next' right') := by
  have leaves := lefts.sameLeaf_eq rights
  cases lefts with
  | number => exact Actions.pure leaves
  | character => exact Actions.pure leaves
  | function => exact Actions.pure leaves
  | array => cases flat

mutual

-- The partner of an element is read before the element is taken up, so the left
-- side is related in the world `W` before that and the rest in the world after it.
theorem Values.sameThrough {V : c.World} {next : Value × Value → Action H Bool}
    {next' : Value × Value → Action K Bool} {left left' right right' : Value} :
    c.Values W left left' → W ≤ V →
      Next (Pairs c.Values c.Values) c.Same V next next' → c.Values V right right' →
      c.Actions V c.Same (left.sameThrough next right) (left'.sameThrough next' right')
  | .number number, _, _, rights => Values.sameAside (.number number) rights rfl
  | .character letter, _, _, rights => Values.sameAside (.character letter) rights rfl
  | .function functions, later, _, rights =>
      Values.sameAside (.function (functions.mono later)) rights rfl
  | .array arrays, later, nexts, rights => by
      cases rights with
      | array others => exact arrays.sameThrough later nexts others
      | number => exact Actions.pure rfl
      | character => exact Actions.pure rfl
      | function => exact Actions.pure rfl

theorem Arrays.sameThrough {V : c.World} {next : Value × Value → Action H Bool}
    {next' : Value × Value → Action K Bool} {left left' right right' : ShapedArray} :
    c.Arrays W left left' → W ≤ V →
      Next (Pairs c.Values c.Values) c.Same V next next' → c.Arrays V right right' →
      c.Actions V c.Same (left.sameThrough next right) (left'.sameThrough next' right')
  | .bare _ shape elements, later, nexts, rights => by
      rw [ShapedArray.sameThrough, ShapedArray.sameThrough, rights.shape_eq]
      split
      · exact Actions.every
          (fun index => (elements index).sameThrough later nexts (rights.element index)) _
      · exact Actions.pure rfl
  | .padded _ shape _ elements, later, nexts, rights => by
      rw [ShapedArray.sameThrough, ShapedArray.sameThrough, rights.shape_eq]
      split
      · exact Actions.every
          (fun index => (elements index).sameThrough later nexts (rights.element index)) _
      · exact Actions.pure rfl

theorem Elements.sameThrough {V : c.World} {next : Value × Value → Action H Bool}
    {next' : Value × Value → Action K Bool} {left left' right right' : Element} :
    c.Elements W left left' → W ≤ V →
      Next (Pairs c.Values c.Values) c.Same V next next' → c.Elements V right right' →
      c.Actions V c.Same (left.sameThrough next right) (left'.sameThrough next' right')
  | .value values, later, nexts, rights => by
      refine Actions.bind rights.steady.attempt fun after _ _ others => ?_
      cases others with
      | error => exact Actions.pure rfl
      | ok others =>
          exact values.sameThrough (le_trans later after) (nexts.mono after) others
  | .failure failures, _, nexts, rights =>
      Actions.sameOfPending (.failure failures) rights nexts
  | .combined pending functions lefts others, later, nexts, rights =>
      Actions.sameOfPending
        (.combined pending (functions.mono later) (lefts.mono later) (others.mono later))
        rights nexts
  | .selected count pending indices parents, later, nexts, rights =>
      Actions.sameOfPending
        (.selected count pending (indices.mono later) fun place => (parents place).mono later)
        rights nexts

end

theorem Values.same {left left' right right' : Value} (lefts : c.Values W left left')
    (rights : c.Values W right right') :
    c.Actions W c.Same (left.same right) (left'.same right') :=
  Actions.rounds (A := Pairs c.Values c.Values) callBudget ⟨lefts, rights⟩
    fun _ nexts _ _ values =>
      values.1.sameThrough le_rfl (fun _ later _ _ => nexts later) values.2

end PointFree.Correspondence
