import PointFree.Proofs.Correspondence
import PointFree.Proofs.Correspondence.Action

/-!
Contract: correspondences in which only what is the same corresponds.

There values that correspond are equal. A value corresponds to itself where arrays may
hold pending elements, and otherwise as soon as it does so in another correspondence of
this kind.
-/

namespace PointFree.Correspondence

variable {H K H' K' : Type} {c : Correspondence H K} {W : c.World}

structure Identifies (c : Correspondence H K) : Prop where
  stamps {W : c.World} {stamp stamp' : Nat} : c.stamps W stamp stamp' ↔ stamp = stamp'
  blocks {W : c.World} {program block frame program' block' frame' : Nat} :
    c.blocks W program block frame program' block' frame' ↔
      program = program' ∧ block = block' ∧ frame = frame'
  texts {text text' : String} : c.texts text text' ↔ text = text'
  faults {fault fault' : Fault} : c.faults fault fault' ↔ fault = fault'

/-- Two evaluations of which only the heaps differ. -/
def identity (reliance : Reliance H K)
    (stores : (Value → Value → Prop) → Memory H → Memory K → Prop)
    (fresh : ∀ {related memory memory'}, stores related memory memory' →
      memory.nextStamp = memory'.nextStamp ∧
      stores related { memory with nextStamp := memory.nextStamp + 1 }
        { memory' with nextStamp := memory'.nextStamp + 1 }) : Correspondence H K where
  toWording := .literal
  toReliance := reliance
  World := Unit
  order := {
    le _ _ := True
    lt _ _ := False
    le_refl _ := trivial
    le_trans _ _ _ _ _ := trivial
    lt_iff_le_not_ge _ _ := iff_of_false id fun both => both.2 trivial }
  stamps _ stamp stamp' := stamp = stamp'
  blocks _ program block frame program' block' frame' :=
    program = program' ∧ block = block' ∧ frame = frame'
  stores related W := stores (related W)
  stamps_mono _ same := same
  blocks_mono _ same := same
  stamps_unique first second := by rw [first, second]
  stores_fresh _ same := ⟨(), trivial, fresh same⟩
  blocks_text same := by
    obtain ⟨rfl, rfl, rfl⟩ := same
    exact Wording.literal.texts_refl _

theorem identifies_identity {reliance : Reliance H K}
    {stores : (Value → Value → Prop) → Memory H → Memory K → Prop} {fresh} :
    (identity reliance stores fresh).Identifies where
  stamps := Iff.rfl
  blocks := Iff.rfl
  texts := Iff.rfl
  faults := Iff.rfl

theorem Identifies.literal (identifies : c.Identifies) : c.Literal :=
  fun _ _ => identifies.faults.1

theorem Identifies.carries (identifies : c.Identifies) {d : Correspondence H' K'}
    (identifies' : d.Identifies) (pending : c.pending → d.pending) {V : d.World}
    (spans : ∀ {span}, c.spans span → d.spans span := by exact fun _ => trivial) :
    c.Carries d W V where
  stamps same := identifies'.stamps.2 (identifies.stamps.1 same)
  blocks same := identifies'.blocks.2 (identifies.blocks.1 same)
  texts same := identifies'.texts.2 (identifies.texts.1 same)
  faults same := identifies'.faults.2 (identifies.faults.1 same)
  pending := pending
  spans := spans

/-! ### What corresponds is the same -/

mutual

theorem Values.eq (identifies : c.Identifies) {value value' : Value} :
    c.Values W value value' → value = value'
  | .number _ => rfl
  | .character _ => rfl
  | .array arrays => congrArg _ (arrays.eq identifies)
  | .function functions => congrArg _ (functions.eq identifies)

theorem Arrays.eq (identifies : c.Identifies) {array array' : ShapedArray} :
    c.Arrays W array array' → array = array'
  | .bare view shape elements =>
      congrArg (ShapedArray.mk view shape none)
        (funext fun index => (elements index).eq identifies)
  | .padded view shape fills elements =>
      congrArg₂ (fun fill element => ShapedArray.mk view shape (some fill) element)
        (fills.eq identifies) (funext fun index => (elements index).eq identifies)

theorem Elements.eq (identifies : c.Identifies) {element element' : Element} :
    c.Elements W element element' → element = element'
  | .value values => congrArg _ (values.eq identifies)
  | .failure failures => congrArg _ (failures.eq_of_literal identifies.literal)
  | .combined _ functions left right => by
      rw [functions.eq identifies, left.eq identifies, right.eq identifies]
  | .selected _ _ index parent => by
      rw [index.eq identifies, funext fun place => (parent place).eq identifies]

theorem Functions.eq (identifies : c.Identifies) {function function' : Function} :
    c.Functions W function function' → function = function'
  | .mk stamps forms => congrArg₂ Function.mk (identifies.stamps.1 stamps) (forms.eq identifies)

theorem Forms.eq (identifies : c.Identifies) {form form' : Form} :
    c.Forms W form form' → form = form'
  | .primitive _ => rfl
  | .constant values texts =>
      congrArg₂ Form.constant (values.eq identifies) (identifies.texts.1 texts)
  | .atop left right => congrArg₂ Form.atop (left.eq identifies) (right.eq identifies)
  | .fork left middle right => by
      rw [left.eq identifies, middle.eq identifies, right.eq identifies]
  | .over left right => congrArg₂ Form.over (left.eq identifies) (right.eq identifies)
  | .under left right => congrArg₂ Form.under (left.eq identifies) (right.eq identifies)
  | .rank left right => congrArg₂ Form.rank (left.eq identifies) (right.eq identifies)
  | .before left right => congrArg₂ Form.before (left.eq identifies) (right.eq identifies)
  | .after left right => congrArg₂ Form.after (left.eq identifies) (right.eq identifies)
  | .swap operand => congrArg _ (operand.eq identifies)
  | .each operand => congrArg _ (operand.eq identifies)
  | .table operand => congrArg _ (operand.eq identifies)
  | .cells operand => congrArg _ (operand.eq identifies)
  | .fold operand => congrArg _ (operand.eq identifies)
  | .scan operand => congrArg _ (operand.eq identifies)
  | .inverse operand => congrArg _ (operand.eq identifies)
  | .block blocks => by
      obtain ⟨rfl, rfl, rfl⟩ := identifies.blocks.1 blocks
      rfl

end

section Results

variable {α : Type} {A : c.World → α → α → Prop}

theorem Options.eq (same : ∀ {result result'}, A W result result' → result = result')
    {option option' : Option α} (options : Options A W option option') : option = option' := by
  cases options with
  | some related => rw [same related]
  | none => rfl

theorem Rows.eq (same : ∀ {result result'}, A W result result' → result = result')
    {row row' : Array α} (rows : Rows A W row row') : row = row' := by
  have lists : List.Forall₂ (· = ·) row.toList row'.toList := rows.imp fun _ _ => same
  rw [List.forall₂_eq_eq_eq] at lists
  exact Array.toList_inj.1 lists

end Results

theorem Outcomes.eq {α : Type} {A : α → α → Prop} (identifies : c.Identifies)
    (same : ∀ {result result'}, A result result' → result = result') {outcome outcome' : Outcome α}
    (outcomes : c.Outcomes A outcome outcome') : outcome = outcome' := by
  cases outcomes with
  | ok related => rw [same related]
  | error failures => rw [failures.eq_of_literal identifies.literal]

/-! ### What is the same corresponds -/

mutual

theorem Values.refl (identifies : c.Identifies) (pending : c.pending) :
    ∀ value, c.Values W value value
  | .number number => .number number
  | .character letter => .character letter
  | .array array => .array (Arrays.refl identifies pending array)
  | .function function => .function (Functions.refl identifies pending function)
termination_by structural value => value

theorem Arrays.refl (identifies : c.Identifies) (pending : c.pending) :
    ∀ array, c.Arrays W array array
  | .mk view shape none element =>
      .bare view shape fun index => Elements.refl identifies pending (element index)
  | .mk view shape (some fill) element =>
      .padded view shape (Values.refl identifies pending fill) fun index =>
        Elements.refl identifies pending (element index)
termination_by structural array => array

theorem Elements.refl (identifies : c.Identifies) (pending : c.pending) :
    ∀ element, c.Elements W element element
  | .value content => .value (Values.refl identifies pending content)
  | .failure _ => .failure ⟨identifies.faults.2 rfl, rfl, c.spans_of_pending pending _⟩
  | .combined function left right =>
      .combined pending (Functions.refl identifies pending function)
        (Elements.refl identifies pending left) (Elements.refl identifies pending right)
  | .selected index count parent =>
      .selected count pending (Elements.refl identifies pending index) fun place =>
        Elements.refl identifies pending (parent place)
termination_by structural element => element

theorem Functions.refl (identifies : c.Identifies) (pending : c.pending) :
    ∀ function, c.Functions W function function
  | .mk _ form => .mk (identifies.stamps.2 rfl) (Forms.refl identifies pending form)
termination_by structural function => function

theorem Forms.refl (identifies : c.Identifies) (pending : c.pending) : ∀ form, c.Forms W form form
  | .primitive primitive => .primitive primitive
  | .constant content _ =>
      .constant (Values.refl identifies pending content) (identifies.texts.2 rfl)
  | .atop left right =>
      .atop (Functions.refl identifies pending left) (Functions.refl identifies pending right)
  | .fork left middle right =>
      .fork (Functions.refl identifies pending left) (Functions.refl identifies pending middle)
        (Functions.refl identifies pending right)
  | .over left right =>
      .over (Functions.refl identifies pending left) (Functions.refl identifies pending right)
  | .under left right =>
      .under (Functions.refl identifies pending left) (Functions.refl identifies pending right)
  | .rank left right =>
      .rank (Functions.refl identifies pending left) (Functions.refl identifies pending right)
  | .before left right =>
      .before (Functions.refl identifies pending left) (Functions.refl identifies pending right)
  | .after left right =>
      .after (Functions.refl identifies pending left) (Functions.refl identifies pending right)
  | .swap operand => .swap (Functions.refl identifies pending operand)
  | .each operand => .each (Functions.refl identifies pending operand)
  | .table operand => .table (Functions.refl identifies pending operand)
  | .cells operand => .cells (Functions.refl identifies pending operand)
  | .fold operand => .fold (Functions.refl identifies pending operand)
  | .scan operand => .scan (Functions.refl identifies pending operand)
  | .inverse operand => .inverse (Functions.refl identifies pending operand)
  | .block _ _ _ => .block (identifies.blocks.2 ⟨rfl, rfl, rfl⟩)
termination_by structural form => form

end

end PointFree.Correspondence
