import PointFree.Proofs.Correspondence
import PointFree.Value.Text

/-!
Contract: values without what depends on the run they were made in.

A function is known by a stamp, and a function made of a literal by the number of a block and of a
frame. Another run that goes the same way counts differently. Without these numbers, and with
failures for elements known by their kind as they are where they are written, values that
correspond are the same.
-/

namespace PointFree

/-- A failure of which the kind alone is known. -/
def Failure.anonymous (failure : Failure) : Failure :=
  .ofFault (.asserted failure.kind.label)

mutual

def Value.anonymous : Value → Value
  | .number amount => .number amount
  | .character letter => .character letter
  | .array items => .array items.anonymous
  | .function operation => .function operation.anonymous
termination_by structural value => value

def ShapedArray.anonymous : ShapedArray → ShapedArray
  | .mk view shape none element =>
      .mk view shape none fun index => (element index).anonymous
  | .mk view shape (some fill) element =>
      .mk view shape (some fill.anonymous) fun index => (element index).anonymous
termination_by structural array => array

def Element.anonymous : Element → Element
  | .value content => .value content.anonymous
  | .failure reason => .failure reason.anonymous
  | .combined function left right =>
      .combined function.anonymous left.anonymous right.anonymous
  | .selected index count parent =>
      .selected index.anonymous count fun place => (parent place).anonymous
termination_by structural element => element

def Function.anonymous : Function → Function
  | .mk _ form => .mk 0 form.anonymous
termination_by structural function => function

/-- The written form of a constant may hold numbers of blocks. -/
def Form.anonymous : Form → Form
  | .primitive primitive => .primitive primitive
  | .constant content _ => .constant content.anonymous ""
  | .atop left right => .atop left.anonymous right.anonymous
  | .fork left middle right => .fork left.anonymous middle.anonymous right.anonymous
  | .over left right => .over left.anonymous right.anonymous
  | .under left right => .under left.anonymous right.anonymous
  | .rank left right => .rank left.anonymous right.anonymous
  | .before left right => .before left.anonymous right.anonymous
  | .after left right => .after left.anonymous right.anonymous
  | .swap operand => .swap operand.anonymous
  | .each operand => .each operand.anonymous
  | .table operand => .table operand.anonymous
  | .cells operand => .cells operand.anonymous
  | .fold operand => .fold operand.anonymous
  | .scan operand => .scan operand.anonymous
  | .inverse operand => .inverse operand.anonymous
  | .block _ _ _ => .block 0 0 0
termination_by structural form => form

end

namespace Correspondence

variable {H K : Type} {c : Correspondence H K} {W : c.World}

theorem Failures.anonymous {failure failure' : Failure} (failures : c.Failures failure failure') :
    failure.anonymous = failure'.anonymous :=
  congrArg (fun kind : FaultKind => Failure.ofFault (.asserted kind.label))
    (c.faults_kind failures.faults)

mutual

/-- Values that correspond are the same without what depends on the run. -/
theorem Values.anonymous {value value' : Value} :
    c.Values W value value' → value.anonymous = value'.anonymous
  | .number _ => rfl
  | .character _ => rfl
  | .array arrays => congrArg Value.array arrays.anonymous
  | .function functions => congrArg Value.function functions.anonymous

theorem Arrays.anonymous {array array' : ShapedArray} :
    c.Arrays W array array' → array.anonymous = array'.anonymous
  | .bare view shape elements =>
      congrArg (ShapedArray.mk view shape none) (funext fun index => (elements index).anonymous)
  | .padded view shape fills elements =>
      congrArg₂ (fun content => ShapedArray.mk view shape (some content)) fills.anonymous
        (funext fun index => (elements index).anonymous)

theorem Elements.anonymous {element element' : Element} :
    c.Elements W element element' → element.anonymous = element'.anonymous
  | .value values => congrArg Element.value values.anonymous
  | .failure failures => congrArg Element.failure failures.anonymous
  | .combined _ functions left right => by
      rw [Element.anonymous, Element.anonymous, functions.anonymous, left.anonymous,
        right.anonymous]
  | .selected count _ index parent =>
      congrArg₂ (Element.selected · count) index.anonymous
        (funext fun place => (parent place).anonymous)

theorem Functions.anonymous {function function' : Function} :
    c.Functions W function function' → function.anonymous = function'.anonymous
  | .mk _ forms => congrArg (Function.mk 0) forms.anonymous

theorem Forms.anonymous {form form' : Form} :
    c.Forms W form form' → form.anonymous = form'.anonymous
  | .primitive _ => rfl
  | .constant values _ => congrArg (Form.constant · "") values.anonymous
  | .atop left right => congrArg₂ Form.atop left.anonymous right.anonymous
  | .fork left middle right => by
      rw [Form.anonymous, Form.anonymous, left.anonymous, middle.anonymous, right.anonymous]
  | .over left right => congrArg₂ Form.over left.anonymous right.anonymous
  | .under left right => congrArg₂ Form.under left.anonymous right.anonymous
  | .rank left right => congrArg₂ Form.rank left.anonymous right.anonymous
  | .before left right => congrArg₂ Form.before left.anonymous right.anonymous
  | .after left right => congrArg₂ Form.after left.anonymous right.anonymous
  | .swap operand => congrArg Form.swap operand.anonymous
  | .each operand => congrArg Form.each operand.anonymous
  | .table operand => congrArg Form.table operand.anonymous
  | .cells operand => congrArg Form.cells operand.anonymous
  | .fold operand => congrArg Form.fold operand.anonymous
  | .scan operand => congrArg Form.scan operand.anonymous
  | .inverse operand => congrArg Form.inverse operand.anonymous
  | .block _ => rfl

end

end Correspondence

/-! ### Written forms of data -/

section Texts

variable {H : Type}

theorem ShapedArray.anonymous_eq {view : View} {shape : Shape} {fill : Option Value}
    {element : Nat → Element} {array' : ShapedArray}
    (same : (ShapedArray.mk view shape fill element).anonymous = array'.anonymous) :
    ∃ fill' element', array' = .mk view shape fill' element' ∧
      ∀ index, (element index).anonymous = (element' index).anonymous := by
  obtain ⟨view', shape', fill', element'⟩ := array'
  cases fill with
  | none =>
      cases fill' with
      | none =>
          injection same with views shapes _ elements
          exact ⟨none, element', by rw [views, shapes], congrFun elements⟩
      | some => cases same
  | some =>
      cases fill' with
      | none => cases same
      | some content =>
          injection same with views shapes _ elements
          exact ⟨some content, element', by rw [views, shapes], congrFun elements⟩

theorem Element.IsData.character? {element element' : Element} (isData : element.IsData)
    (same : element.anonymous = element'.anonymous) :
    (element.character? : OptionT (Action H) Char) = element'.character? := by
  cases isData with
  | value data =>
      cases element' with
      | value content' =>
          cases data with
          | character letter =>
              cases content' with
              | character => cases same; rfl
              | number | array | function => cases same
          | number | array =>
              cases content' with
              | character => cases same
              | number | array | function => rfl
      | failure | combined | selected => cases same
  | failure _ =>
      cases element' with
      | failure => rfl
      | value | combined | selected => cases same

theorem ShapedArray.textThrough_congr (later : Value → Action H String) (view : View)
    (shape : Shape) (fill fill' : Option Value) {element element' : Nat → Element}
    (texts : ∀ index, (element index).textThrough later = (element' index).textThrough later)
    (characters : ∀ index, ((element index).character? : OptionT (Action H) Char) =
      (element' index).character?) :
    (ShapedArray.mk view shape fill element).textThrough later =
      (ShapedArray.mk view shape fill' element').textThrough later := by
  have strings : ((ShapedArray.mk view shape fill element).string? : Action H (Option String)) =
      (ShapedArray.mk view shape fill' element').string? := by
    simp only [string?, ShapedArray.element, rank, count, ShapedArray.shape, characters]
    rfl
  rw [textThrough, textThrough, texts 0, strings, funext texts]

theorem Failure.elementText_eq {failure failure' : Failure}
    (same : failure.anonymous = failure'.anonymous) : failure.elementText = failure'.elementText := by
  have labels : failure.kind.label = failure'.kind.label := by
    injection same with faults _
    injection faults
  rw [elementText, elementText, labels]

mutual

theorem Value.IsData.textThrough (later : Value → Action H String) {value value' : Value} :
    value.IsData → value.anonymous = value'.anonymous →
      value.textThrough later = value'.textThrough later
  | .number _, same => by cases value' <;> cases same; rfl
  | .character _, same => by cases value' <;> cases same; rfl
  | .array isData, same => by
      cases value' with
      | array items' =>
          injection same with same
          exact isData.textThrough later same
      | number | character | function => cases same

theorem ShapedArray.IsData.textThrough (later : Value → Action H String)
    {array array' : ShapedArray} :
    array.IsData → array.anonymous = array'.anonymous →
      array.textThrough later = array'.textThrough later
  | .bare view shape elements, same => by
      obtain ⟨fill', element', rfl, parts⟩ := ShapedArray.anonymous_eq same
      exact ShapedArray.textThrough_congr later view shape _ fill'
        (fun index => (elements index).textThrough later (parts index))
        fun index => (elements index).character? (parts index)
  | .padded view shape fill elements, same => by
      obtain ⟨fill', element', rfl, parts⟩ := ShapedArray.anonymous_eq same
      exact ShapedArray.textThrough_congr later view shape _ fill'
        (fun index => (elements index).textThrough later (parts index))
        fun index => (elements index).character? (parts index)

theorem Element.IsData.textThrough (later : Value → Action H String)
    {element element' : Element} :
    element.IsData → element.anonymous = element'.anonymous →
      element.textThrough later = element'.textThrough later
  | .value isData, same => by
      cases element' with
      | value content' =>
          injection same with same
          exact isData.textThrough later same
      | failure | combined | selected => cases same
  | .failure _, same => by
      cases element' with
      | failure =>
          injection same with same
          exact congrArg (pure : String → Action H String) (Failure.elementText_eq same)
      | value | combined | selected => cases same

end

/-- Data without what depends on the run is written in one way. -/
theorem Value.IsData.text {value value' : Value} (isData : value.IsData)
    (same : value.anonymous = value'.anonymous) :
    (value.text : Action H String) = value'.text := by
  rw [Value.text, Value.text]
  generalize callBudget = limit
  cases limit with
  | zero => rfl
  | succ => exact isData.textThrough _ same

end Texts

end PointFree
