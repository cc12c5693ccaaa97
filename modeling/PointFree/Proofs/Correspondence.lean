import Mathlib.Order.Defs.PartialOrder
import Mathlib.Data.List.Forall2
import PointFree.Function.Name
import PointFree.Run

/-!
Contract: what it means that two evaluations go the same way.

The two work on heaps of their own, so a function made in one is known there by
other numbers than its partner. A `Correspondence` says which numbers belong
together. What is known of this grows while the evaluations run: a world is one
state of the knowledge, and what holds in it holds in every later one.

Two values correspond when they are built alike from the same numbers and
characters and from functions that correspond. What both evaluations do with
values that correspond is the subject of the modules below this one. Data is made
of numbers, characters and arrays of them: it corresponds to itself on both sides of
every correspondence, and to nothing else where faults do the same.

The first evaluation may be one that is cut short: a correspondence can name failures
with which it is abandoned while the second one goes on.
-/

namespace PointFree

/-- An access to a variable that is not there at all. -/
def Fault.isAddressing : Fault → Bool
  | .noFrame _ | .slotOutsideFrame _ => true
  | _ => false

/-- Which texts and which causes of failures correspond. -/
structure Wording where
  texts : String → String → Prop
  faults : Fault → Fault → Prop
  texts_refl (text : String) : texts text text
  texts_append {first first' second second' : String} :
    texts first first' → texts second second' → texts (first ++ second) (first' ++ second')
  faults_refl (fault : Fault) : fault.isAddressing = false → faults fault fault
  faults_noInverse {name name' : String} :
    texts name name' → faults (.noInverse name) (.noInverse name')
  faults_asserted {text text' : String} :
    texts text text' → faults (.asserted text) (.asserted text')
  faults_kind {fault fault' : Fault} : faults fault fault' → fault.kind = fault'.kind

/-- Texts and failures correspond to themselves alone. -/
def Wording.literal : Wording where
  texts text text' := text = text'
  faults fault fault' := fault = fault'
  texts_refl _ := rfl
  texts_append first second := by rw [first, second]
  faults_refl _ _ := rfl
  faults_noInverse same := by rw [same]
  faults_asserted same := by rw [same]
  faults_kind same := by rw [same]

-- The three that follow serve where every call is allowed and nothing is abandoned.

theorem Reliance.callable_always {pending : Prop} (_ : pending) : True :=
  trivial

theorem Reliance.never_within {_ : Failure} (_ : Option Span) (never : False) : False :=
  never

theorem Reliance.never_settled {pending : Prop} {_ : Failure} (never : False) : ¬pending :=
  never.elim

/-- What two evaluations may rely on when they call, and when the first is abandoned. -/
structure Reliance (H K : Type) where
  /-- Whether arrays may hold elements that take a call. -/
  pending : Prop
  /-- Whether a function that is met may be called. -/
  callable : Prop := True
  /-- What is known of the calls beyond where they lead. -/
  restricts : Call H → Call K → Prop := fun _ _ => True
  /-- Failures of the first evaluation after which nothing is said of the second. -/
  abandons : Failure → Prop := fun _ => False
  /-- Where failures may arise. -/
  spans : Option Span → Prop := fun _ => True
  callable_of_pending : pending → callable := by exact Reliance.callable_always
  abandons_within {failure : Failure} (span : Option Span) :
    abandons failure → abandons (failure.within span) := by exact @Reliance.never_within
  abandons_settled {failure : Failure} : abandons failure → ¬pending := by
    exact @Reliance.never_settled _
  spans_none : spans none := by exact trivial
  spans_of_pending : pending → ∀ span, spans span := by exact fun _ _ => trivial

structure Correspondence (H K : Type) extends Wording, Reliance H K where
  World : Type
  order : Preorder World
  /-- The functions with these stamps are partners. -/
  stamps : World → Nat → Nat → Prop
  /-- The blocks at these places, with these frames around them, are partners. -/
  blocks : World → (program block frame : Nat) → (program' block' frame' : Nat) → Prop
  /-- The memories, given which values in them correspond. -/
  stores : (World → Value → Value → Prop) → World → Memory H → Memory K → Prop
  stamps_mono {W V : World} {stamp partner : Nat} :
    W ≤ V → stamps W stamp partner → stamps V stamp partner
  blocks_mono {W V : World} {program block frame program' block' frame' : Nat} :
    W ≤ V → blocks W program block frame program' block' frame' →
      blocks V program block frame program' block' frame'
  /-- A function has one partner. -/
  stamps_unique {W : World} {first first' second second' : Nat} :
    stamps W first first' → stamps W second second' → (first = second ↔ first' = second')
  stores_fresh {related : World → Value → Value → Prop} {W : World} {memory : Memory H}
      {memory' : Memory K} :
    (∀ {W V value value'}, W ≤ V → related W value value' → related V value value') →
      stores related W memory memory' →
      ∃ V, W ≤ V ∧ stamps V memory.nextStamp memory'.nextStamp ∧
        stores related V { memory with nextStamp := memory.nextStamp + 1 }
          { memory' with nextStamp := memory'.nextStamp + 1 }
  blocks_text {W : World} {program block frame program' block' frame' : Nat} :
    blocks W program block frame program' block' frame' →
      texts (Form.block program block frame).name (Form.block program' block' frame').name

namespace Correspondence

attribute [instance] Correspondence.order

variable {H K H' K' : Type}

/-- Failures of corresponding causes in the same statement, one where failures may arise. -/
structure Failures (c : Correspondence H K) (failure failure' : Failure) : Prop where
  faults : c.faults failure.fault failure'.fault
  span : failure.span = failure'.span
  known : c.spans failure.span := by exact trivial

mutual

inductive Values (c : Correspondence H K) (W : c.World) : Value → Value → Prop where
  | number (number : Float) : Values c W (.number number) (.number number)
  | character (letter : Char) : Values c W (.character letter) (.character letter)
  | array {array array' : ShapedArray} :
      Arrays c W array array' → Values c W (.array array) (.array array')
  | function {function function' : Function} :
      Functions c W function function' → Values c W (.function function) (.function function')

inductive Arrays (c : Correspondence H K) (W : c.World) : ShapedArray → ShapedArray → Prop where
  | bare (view : View) (shape : Shape) {element element' : Nat → Element} :
      (∀ index, Elements c W (element index) (element' index)) →
      Arrays c W (.mk view shape none element) (.mk view shape none element')
  | padded (view : View) (shape : Shape) {fill fill' : Value} {element element' : Nat → Element} :
      Values c W fill fill' →
      (∀ index, Elements c W (element index) (element' index)) →
      Arrays c W (.mk view shape (some fill) element) (.mk view shape (some fill') element')

inductive Elements (c : Correspondence H K) (W : c.World) : Element → Element → Prop where
  | value {content content' : Value} :
      Values c W content content' → Elements c W (.value content) (.value content')
  | failure {failure failure' : Failure} :
      Failures c failure failure' → Elements c W (.failure failure) (.failure failure')
  | combined {function function' : Function} {left left' right right' : Element} :
      c.pending → Functions c W function function' →
      Elements c W left left' → Elements c W right right' →
      Elements c W (.combined function left right) (.combined function' left' right')
  | selected {index index' : Element} (count : Nat) {parent parent' : Nat → Element} :
      c.pending → Elements c W index index' →
      (∀ place, Elements c W (parent place) (parent' place)) →
      Elements c W (.selected index count parent) (.selected index' count parent')

inductive Functions (c : Correspondence H K) (W : c.World) : Function → Function → Prop where
  | mk {stamp stamp' : Nat} {form form' : Form} :
      c.stamps W stamp stamp' → Forms c W form form' →
      Functions c W (.mk stamp form) (.mk stamp' form')

inductive Forms (c : Correspondence H K) (W : c.World) : Form → Form → Prop where
  | primitive (primitive : Primitive) : Forms c W (.primitive primitive) (.primitive primitive)
  | constant {content content' : Value} {written written' : String} :
      Values c W content content' → c.texts written written' →
      Forms c W (.constant content written) (.constant content' written')
  | atop {left left' right right' : Function} :
      Functions c W left left' → Functions c W right right' →
      Forms c W (.atop left right) (.atop left' right')
  | fork {left left' middle middle' right right' : Function} :
      Functions c W left left' → Functions c W middle middle' → Functions c W right right' →
      Forms c W (.fork left middle right) (.fork left' middle' right')
  | over {left left' right right' : Function} :
      Functions c W left left' → Functions c W right right' →
      Forms c W (.over left right) (.over left' right')
  | under {left left' right right' : Function} :
      Functions c W left left' → Functions c W right right' →
      Forms c W (.under left right) (.under left' right')
  | rank {left left' right right' : Function} :
      Functions c W left left' → Functions c W right right' →
      Forms c W (.rank left right) (.rank left' right')
  | before {left left' right right' : Function} :
      Functions c W left left' → Functions c W right right' →
      Forms c W (.before left right) (.before left' right')
  | after {left left' right right' : Function} :
      Functions c W left left' → Functions c W right right' →
      Forms c W (.after left right) (.after left' right')
  | swap {operand operand' : Function} :
      Functions c W operand operand' → Forms c W (.swap operand) (.swap operand')
  | each {operand operand' : Function} :
      Functions c W operand operand' → Forms c W (.each operand) (.each operand')
  | table {operand operand' : Function} :
      Functions c W operand operand' → Forms c W (.table operand) (.table operand')
  | cells {operand operand' : Function} :
      Functions c W operand operand' → Forms c W (.cells operand) (.cells operand')
  | fold {operand operand' : Function} :
      Functions c W operand operand' → Forms c W (.fold operand) (.fold operand')
  | scan {operand operand' : Function} :
      Functions c W operand operand' → Forms c W (.scan operand) (.scan operand')
  | inverse {operand operand' : Function} :
      Functions c W operand operand' → Forms c W (.inverse operand) (.inverse operand')
  | block {program block frame program' block' frame' : Nat} :
      c.blocks W program block frame program' block' frame' →
      Forms c W (.block program block frame) (.block program' block' frame')

end

/-- What corresponds in one world corresponds in the other, which need not be later and may
belong to another correspondence. -/
structure Carries (c : Correspondence H K) (d : Correspondence H' K') (W : c.World)
    (V : d.World) : Prop where
  stamps {stamp partner : Nat} : c.stamps W stamp partner → d.stamps V stamp partner
  blocks {program block frame program' block' frame' : Nat} :
    c.blocks W program block frame program' block' frame' →
      d.blocks V program block frame program' block' frame'
  texts {text text' : String} : c.texts text text' → d.texts text text'
  faults {fault fault' : Fault} : c.faults fault fault' → d.faults fault fault'
  pending : c.pending → d.pending
  spans {span : Option Span} : c.spans span → d.spans span := by exact id

theorem Carries.of_stamps {c : Correspondence H K} {W V : c.World}
    (stamps : ∀ {stamp partner}, c.stamps W stamp partner → c.stamps V stamp partner)
    (blocks : ∀ {program block frame program' block' frame'},
      c.blocks W program block frame program' block' frame' →
        c.blocks V program block frame program' block' frame') : c.Carries c W V :=
  ⟨stamps, blocks, id, id, id, id⟩

theorem Carries.of_le {c : Correspondence H K} {W V : c.World} (later : W ≤ V) :
    c.Carries c W V :=
  .of_stamps (c.stamps_mono later) (c.blocks_mono later)

section Carrying

variable {c : Correspondence H K} {d : Correspondence H' K'} {W : c.World} {V : d.World}

theorem Failures.carry (carries : c.Carries d W V) {failure failure' : Failure}
    (failures : c.Failures failure failure') : d.Failures failure failure' :=
  ⟨carries.faults failures.faults, failures.span, carries.spans failures.known⟩

mutual

theorem Values.carry (carries : c.Carries d W V) {value value' : Value} :
    c.Values W value value' → d.Values V value value'
  | .number number => .number number
  | .character letter => .character letter
  | .array arrays => .array (arrays.carry carries)
  | .function functions => .function (functions.carry carries)

theorem Arrays.carry (carries : c.Carries d W V) {array array' : ShapedArray} :
    c.Arrays W array array' → d.Arrays V array array'
  | .bare view shape elements => .bare view shape fun index => (elements index).carry carries
  | .padded view shape fills elements =>
      .padded view shape (fills.carry carries) fun index => (elements index).carry carries

theorem Elements.carry (carries : c.Carries d W V) {element element' : Element} :
    c.Elements W element element' → d.Elements V element element'
  | .value values => .value (values.carry carries)
  | .failure failures => .failure (failures.carry carries)
  | .combined pending functions left right =>
      .combined (carries.pending pending) (functions.carry carries) (left.carry carries)
        (right.carry carries)
  | .selected count pending index parent =>
      .selected count (carries.pending pending) (index.carry carries) fun place =>
        (parent place).carry carries

theorem Functions.carry (carries : c.Carries d W V) {function function' : Function} :
    c.Functions W function function' → d.Functions V function function'
  | .mk stamps forms => .mk (carries.stamps stamps) (forms.carry carries)

theorem Forms.carry (carries : c.Carries d W V) {form form' : Form} :
    c.Forms W form form' → d.Forms V form form'
  | .primitive primitive => .primitive primitive
  | .constant values texts => .constant (values.carry carries) (carries.texts texts)
  | .atop left right => .atop (left.carry carries) (right.carry carries)
  | .fork left middle right =>
      .fork (left.carry carries) (middle.carry carries) (right.carry carries)
  | .over left right => .over (left.carry carries) (right.carry carries)
  | .under left right => .under (left.carry carries) (right.carry carries)
  | .rank left right => .rank (left.carry carries) (right.carry carries)
  | .before left right => .before (left.carry carries) (right.carry carries)
  | .after left right => .after (left.carry carries) (right.carry carries)
  | .swap operand => .swap (operand.carry carries)
  | .each operand => .each (operand.carry carries)
  | .table operand => .table (operand.carry carries)
  | .cells operand => .cells (operand.carry carries)
  | .fold operand => .fold (operand.carry carries)
  | .scan operand => .scan (operand.carry carries)
  | .inverse operand => .inverse (operand.carry carries)
  | .block blocks => .block (carries.blocks blocks)

end

end Carrying

section Later

variable {c : Correspondence H K} {W V : c.World}

theorem Values.mono (later : W ≤ V) {value value' : Value}
    (values : c.Values W value value') : c.Values V value value' :=
  values.carry (.of_le later)

theorem Arrays.mono (later : W ≤ V) {array array' : ShapedArray}
    (arrays : c.Arrays W array array') : c.Arrays V array array' :=
  arrays.carry (.of_le later)

theorem Elements.mono (later : W ≤ V) {element element' : Element}
    (elements : c.Elements W element element') : c.Elements V element element' :=
  elements.carry (.of_le later)

theorem Functions.mono (later : W ≤ V) {function function' : Function}
    (functions : c.Functions W function function') : c.Functions V function function' :=
  functions.carry (.of_le later)

theorem Forms.mono (later : W ≤ V) {form form' : Form} (forms : c.Forms W form form') :
    c.Forms V form form' :=
  forms.carry (.of_le later)

end Later

/-- Memories in which corresponding values stand at corresponding places. -/
def memories (c : Correspondence H K) (W : c.World) : Memory H → Memory K → Prop :=
  c.stores c.Values W

theorem stamps_fresh (c : Correspondence H K) {W : c.World} {memory : Memory H}
    {memory' : Memory K} (memories : c.memories W memory memory') :
    ∃ V, W ≤ V ∧ c.stamps V memory.nextStamp memory'.nextStamp ∧
      c.memories V { memory with nextStamp := memory.nextStamp + 1 }
        { memory' with nextStamp := memory'.nextStamp + 1 } :=
  c.stores_fresh (fun later values => values.mono later) memories

end Correspondence

/-! ### Values in which no function occurs -/

mutual

inductive Value.IsData : Value → Prop where
  | number (number : Float) : Value.IsData (.number number)
  | character (letter : Char) : Value.IsData (.character letter)
  | array {array : ShapedArray} : ShapedArray.IsData array → Value.IsData (.array array)

inductive ShapedArray.IsData : ShapedArray → Prop where
  | bare (view : View) (shape : Shape) {element : Nat → Element} :
      (∀ index, Element.IsData (element index)) →
      ShapedArray.IsData (.mk view shape none element)
  | padded (view : View) (shape : Shape) {fill : Value} {element : Nat → Element} :
      Value.IsData fill → (∀ index, Element.IsData (element index)) →
      ShapedArray.IsData (.mk view shape (some fill) element)

inductive Element.IsData : Element → Prop where
  | value {content : Value} : Value.IsData content → Element.IsData (.value content)
  | failure {failure : Failure} :
      failure.fault.isAddressing = false → Element.IsData (.failure failure)

end

namespace Correspondence

variable {H K : Type} {c : Correspondence H K} {W : c.World}

mutual

theorem Values.of_isData {value : Value} : (isData : value.IsData) →
    (everywhere : ∀ span, c.spans span := by exact fun _ => trivial) → c.Values W value value
  | .number number, _ => .number number
  | .character letter, _ => .character letter
  | .array isData, everywhere => .array (Arrays.of_isData isData everywhere)

theorem Arrays.of_isData {array : ShapedArray} : (isData : array.IsData) →
    (everywhere : ∀ span, c.spans span := by exact fun _ => trivial) → c.Arrays W array array
  | .bare view shape elements, everywhere =>
      .bare view shape fun index => Elements.of_isData (elements index) everywhere
  | .padded view shape fill elements, everywhere =>
      .padded view shape (Values.of_isData fill everywhere) fun index =>
        Elements.of_isData (elements index) everywhere

theorem Elements.of_isData {element : Element} : (isData : element.IsData) →
    (everywhere : ∀ span, c.spans span := by exact fun _ => trivial) → c.Elements W element element
  | .value isData, everywhere => .value (Values.of_isData isData everywhere)
  | .failure inside, everywhere => .failure ⟨c.faults_refl _ inside, rfl, everywhere _⟩

end

/-- Faults correspond only when they are the same. -/
def Literal (c : Correspondence H K) : Prop :=
  ∀ ⦃fault fault' : Fault⦄, c.faults fault fault' → fault = fault'

theorem Failures.eq_of_literal (literal : c.Literal) {failure failure' : Failure}
    (failures : c.Failures failure failure') : failure = failure' := by
  obtain ⟨fault, span⟩ := failure
  obtain ⟨fault', span'⟩ := failure'
  obtain ⟨faults, spans, _⟩ := failures
  cases literal faults
  cases spans
  rfl

mutual

theorem Values.eq_of_isData (literal : c.Literal) {value value' : Value} :
    c.Values W value value' → value.IsData → value = value'
  | .number _, _ => rfl
  | .character _, _ => rfl
  | .array arrays, .array isData => congrArg Value.array (arrays.eq_of_isData literal isData)

theorem Arrays.eq_of_isData (literal : c.Literal) {array array' : ShapedArray} :
    c.Arrays W array array' → array.IsData → array = array'
  | .bare view shape elements, .bare _ _ isData =>
      congrArg (ShapedArray.mk view shape none)
        (funext fun index => (elements index).eq_of_isData literal (isData index))
  | .padded view shape fills elements, .padded _ _ fill isData =>
      congrArg₂ (fun content => ShapedArray.mk view shape (some content))
        (fills.eq_of_isData literal fill)
        (funext fun index => (elements index).eq_of_isData literal (isData index))

theorem Elements.eq_of_isData (literal : c.Literal) {element element' : Element} :
    c.Elements W element element' → element.IsData → element = element'
  | .value values, .value isData =>
      congrArg Element.value (values.eq_of_isData literal isData)
  | .failure failures, .failure _ => congrArg Element.failure (failures.eq_of_literal literal)

end

end Correspondence

end PointFree
