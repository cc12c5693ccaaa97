import PointFree.Proofs.Correspondence.Settled
import PointFree.Proofs.Pervasion.Commutation
import PointFree.Proofs.Picturing
import PointFree.Proofs.Restoring.Whole
import PointFree.Proofs.Shifting
import PointFree.Proofs.Views.Laziness

/-!
Contract: equality of values, as a relation.

Equality is decided by what values look like. It is symmetric and transitive, and a value is equal
to itself where it holds no NaN and no element that fails. What is equal is equal for every
observer: it is of one kind and one shape, as deep, and written alike, since the two zeros are.

All of this is about values that look the same however often they are read. A zip that counts how
often it is read is not equal to itself.
-/

namespace PointFree

open Float.Model (UnpackedFloat)

/-! ### Numbers -/

namespace Decimal

/-- What is equal is the same in every field, or zero with any sign. -/
theorem beq_iff (one other : UnpackedFloat) : one.beq other = true ↔
    one = other ∧ one ≠ .notANumber ∨ ∃ sign sign', one = .zero sign ∧ other = .zero sign' := by
  have signs (sign sign' : UnpackedFloat.Sign) : compare sign sign' = .eq ↔ sign = sign' := by
    cases sign <;> cases sign' <;>
      first
        | exact iff_of_true rfl rfl
        | exact iff_of_false nofun nofun
  rcases one with ⟨_ | _⟩ | _ | ⟨_ | _⟩ | ⟨_ | _, mantissa, exponent, _⟩ <;>
    rcases other with ⟨_ | _⟩ | _ | ⟨_ | _⟩ | ⟨_ | _, mantissa', exponent', _⟩ <;>
    simp [UnpackedFloat.beq, UnpackedFloat.compare, Ordering.then_eq_eq, signs, and_comm]

theorem beq_trans {first second third : Float} (same : (first == second) = true)
    (same' : (second == third) = true) : (first == third) = true := by
  have same := (beq_iff first.toModel.unpack second.toModel.unpack).1 same
  have same' := (beq_iff second.toModel.unpack third.toModel.unpack).1 same'
  refine (beq_iff first.toModel.unpack third.toModel.unpack).2 ?_
  rcases same with ⟨same, number⟩ | ⟨sign, sign', isZero, isZero'⟩
  · rwa [same]
  · rcases same' with ⟨same', -⟩ | ⟨_, sign'', -, isZero''⟩
    · exact .inr ⟨sign, sign', isZero, same' ▸ isZero'⟩
    · exact .inr ⟨sign, sign'', isZero, isZero''⟩

theorem beq_self_iff (amount : Float) : (amount == amount) = true ↔ amount.isNaN = false := by
  refine (beq_iff amount.toModel.unpack amount.toModel.unpack).trans ?_
  change _ ↔ amount.toModel.unpack.isNaN = false
  cases amount.toModel.unpack <;> simp [UnpackedFloat.isNaN]

/-- The sign of an infinity is read off the bits. -/
theorem isNegative_of_infinity {value : Float} {sign : UnpackedFloat.Sign}
    (isInfinite : value.toModel.unpack = .infinity sign) :
    isNegative value = (sign == .negative) := by
  rw [Float.Model.unpack, UnpackedFloat.unpack] at isInfinite
  rw [isNegative]
  have isSign := unpackSign_beq value.toModel.toBits.toBitVec
  dsimp only at isInfinite
  split at isInfinite
  · split at isInfinite
    · rw [← UnpackedFloat.infinity.inj isInfinite]
      exact isSign.symm
    · cases isInfinite
  · split at isInfinite
    · split at isInfinite <;> cases isInfinite
    · cases isInfinite

/-- Equal numbers are written alike where zero has no sign. -/
theorem Style.text_eq_of_beq {style : Style} (unsigned : style.signsZero = false)
    {left right : Float} (same : (left == right) = true) : style.text left = style.text right := by
  rw [Style.text, Style.text, Dyadic.ofFloat?_eq_ofUnpacked?, Dyadic.ofFloat?_eq_ofUnpacked?]
  rcases (beq_iff left.toModel.unpack right.toModel.unpack).1 same with
    ⟨same, number⟩ | ⟨sign, sign', isZero, isZero'⟩
  · have notNaN : left.isNaN = right.isNaN := congrArg UnpackedFloat.isNaN same
    rw [← same, notNaN]
    cases found : left.toModel.unpack with
    | infinity sign =>
        rw [isNegative_of_infinity found, isNegative_of_infinity (same ▸ found)]
    | notANumber => exact absurd found number
    | zero | finite => rfl
  · rw [isZero, isZero']
    simp [Dyadic.ofUnpacked?, unsigned]

end Decimal

/-! ### Functions -/

namespace Function

theorem same_iff {stamp stamp' : Nat} {form form' : Form} :
    (mk stamp form).same (mk stamp' form') = true ↔ stamp = stamp' :=
  beq_iff_eq

theorem same_self (operation : Function) : operation.same operation = true := by
  obtain ⟨stamp, form⟩ := operation
  exact same_iff.2 rfl

theorem same_comm (one other : Function) : one.same other = other.same one := by
  obtain ⟨stamp, form⟩ := one
  obtain ⟨stamp', form'⟩ := other
  rw [Bool.eq_iff_iff, same_iff, same_iff, eq_comm]

theorem same_trans {first second third : Function} (same : first.same second = true)
    (same' : second.same third = true) : first.same third = true := by
  obtain ⟨stamp, form⟩ := first
  obtain ⟨stamp', form'⟩ := second
  obtain ⟨stamp'', form''⟩ := third
  exact same_iff.2 ((same_iff.1 same).trans (same_iff.1 same'))

end Function

/-! ### Pictures -/

namespace Picture

variable {left right picture : Picture} {shape : Shape} {item item' : Nat → Picture}

theorem same_array_iff {shape' : Shape} : (array shape item).same (array shape' item') = true ↔
    shape = shape' ∧ ∀ index < shape.size, (item index).same (item' index) = true := by
  rw [same, Bool.and_eq_true, decide_eq_true_iff, List.all_eq_true]
  simp only [List.mem_range]

theorem same_comm (left right : Picture) : left.same right = right.same left := by
  induction left generalizing right with
  | number amount =>
      cases right with
      | number other => exact Scalar.beq_comm amount other
      | character | function | failure | array => rfl
  | character letter =>
      cases right with
      | character other => exact Bool.beq_comm
      | number | function | failure | array => rfl
  | function operation =>
      cases right with
      | function other => exact operation.same_comm other
      | number | character | failure | array => rfl
  | failure kind => rw [failure_same, same_failure]
  | array shape item inductionHypothesis =>
      cases right with
      | array shape' item' =>
          rw [Bool.eq_iff_iff, same_array_iff, same_array_iff]
          constructor
          · rintro ⟨rfl, items⟩
            exact ⟨rfl, fun index inside => inductionHypothesis index _ ▸ items index inside⟩
          · rintro ⟨rfl, items⟩
            exact ⟨rfl, fun index inside => inductionHypothesis index _ ▸ items index inside⟩
      | number | character | function | failure => rfl

theorem same_trans {first second third : Picture} (same : first.same second = true)
    (same' : second.same third = true) : first.same third = true := by
  induction first generalizing second third with
  | number amount =>
      cases second with
      | number other =>
          cases third with
          | number last => exact Decimal.beq_trans same same'
          | character | function | failure | array => cases same'
      | character | function | failure | array => cases same
  | character letter =>
      cases second with
      | character other =>
          cases third with
          | character last =>
              exact beq_iff_eq.2 ((beq_iff_eq.1 same).trans (beq_iff_eq.1 same'))
          | number | function | failure | array => cases same'
      | number | function | failure | array => cases same
  | function operation =>
      cases second with
      | function other =>
          cases third with
          | function last => exact Function.same_trans same same'
          | number | character | failure | array => cases same'
      | number | character | failure | array => cases same
  | failure kind => simp at same
  | array shape item inductionHypothesis =>
      cases second with
      | array shape' item' =>
          cases third with
          | array shape'' item'' =>
              obtain ⟨rfl, items⟩ := same_array_iff.1 same
              obtain ⟨rfl, items'⟩ := same_array_iff.1 same'
              refine same_array_iff.2 ⟨rfl, fun index inside => ?_⟩
              exact inductionHypothesis index (items index inside) (items' index inside)
          | number | character | function | failure => cases same'
      | number | character | function | failure => cases same

/-- No NaN and no element that fails, however deep inside. -/
structure IsSound (picture : Picture) : Prop where
  numbers : ∀ amount, picture.Contains (.number amount) → amount.isNaN = false
  readable : ∀ kind, ¬ picture.Contains (.failure kind)

theorem isSound_array_iff :
    (array shape item).IsSound ↔ ∀ index < shape.size, (item index).IsSound := by
  constructor
  · rintro ⟨numbers, readable⟩ index inside
    exact ⟨fun amount there => numbers amount (.item inside there),
      fun kind there => readable kind (.item inside there)⟩
  · refine fun sound => ⟨fun amount there => ?_, fun kind there => ?_⟩
    · cases there with
      | item inside there => exact (sound _ inside).numbers amount there
    · cases there with
      | item inside there => exact (sound _ inside).readable kind there

/-- What is sound is the same as itself, and nothing else is. -/
theorem same_self_iff (picture : Picture) : picture.same picture = true ↔ picture.IsSound := by
  induction picture with
  | number amount =>
      refine (Decimal.beq_self_iff amount).trans ⟨fun number => ⟨?_, ?_⟩, fun sound => ?_⟩
      · rintro _ ⟨⟩
        exact number
      · rintro kind ⟨⟩
      · exact sound.numbers amount (.whole _)
  | character letter => exact iff_of_true (beq_self_eq_true letter) ⟨nofun, nofun⟩
  | function operation => exact iff_of_true operation.same_self ⟨nofun, nofun⟩
  | failure kind =>
      refine iff_of_false (by simp) fun sound => sound.readable kind (.whole _)
  | array shape item inductionHypothesis =>
      rw [same_array_iff, isSound_array_iff]
      simp only [true_and, inductionHypothesis]

theorem isSound_of_same (same : left.same right = true) : left.IsSound :=
  (same_self_iff left).1 (same_trans same ((same_comm right left).trans same))

/-! ### What observers make of the same picture -/

theorem depth_eq_of_same (same : left.same right = true) : left.depth = right.depth := by
  induction left generalizing right with
  | number | character | function | failure => cases right <;> first | rfl | cases same
  | array shape item inductionHypothesis =>
      cases right with
      | array shape' item' =>
          obtain ⟨rfl, items⟩ := same_array_iff.1 same
          have depths : ((List.range shape.size).map fun index => (item index).depth) =
              (List.range shape.size).map fun index => (item' index).depth :=
            List.map_congr_left fun index member =>
              inductionHypothesis index (items index (List.mem_range.1 member))
          rw [depth_array, depth_array, depths]
      | number | character | function | failure => cases same

theorem letter?_eq_of_same (same : left.same right = true) : left.letter? = right.letter? := by
  cases left with
  | character letter =>
      cases right with
      | character other => exact congrArg some (beq_iff_eq.1 same)
      | number | function | failure | array => cases same
  | number | function | failure | array => cases right <;> first | rfl | cases same

theorem string?_eq_of_same (same : left.same right = true) : left.string? = right.string? := by
  cases left with
  | array shape item =>
      cases right with
      | array shape' item' =>
          obtain ⟨rfl, items⟩ := same_array_iff.1 same
          have letters : ((List.range shape.size).map fun index => (item index).letter?) =
              (List.range shape.size).map fun index => (item' index).letter? :=
            List.map_congr_left fun index member =>
              letter?_eq_of_same (items index (List.mem_range.1 member))
          have collected := congrArg (List.mapM id) letters
          rw [List.mapM_map, List.mapM_map, Function.id_comp, Function.id_comp] at collected
          rw [string?, string?, collected]
      | number | character | function | failure => cases same
  | number | character | function | failure => cases right <;> first | rfl | cases same

/-- A function on either side is told by its stamp. -/
def StampsTell (left right : Picture) : Prop :=
  ∀ one other, left.Contains (.function one) → right.Contains (.function other) →
    one.same other = true → one = other

theorem text_eq_of_same (same : left.same right = true) (tell : left.StampsTell right) :
    left.text = right.text := by
  induction left generalizing right with
  | number amount =>
      cases right with
      | number other => exact Decimal.Style.text_eq_of_beq rfl same
      | character | function | failure | array => cases same
  | character letter =>
      cases right with
      | character other => rw [beq_iff_eq.1 same]
      | number | function | failure | array => cases same
  | function operation =>
      cases right with
      | function other => rw [tell _ _ (.whole _) (.whole _) same]
      | number | character | failure | array => cases same
  | failure kind => simp at same
  | array shape item inductionHypothesis =>
      cases right with
      | number | character | function | failure => cases same
      | array shape' item' =>
          have strings := string?_eq_of_same same
          obtain ⟨rfl, items⟩ := same_array_iff.1 same
          have texts (index : Nat) (inside : index < shape.size) :
              (item index).text = (item' index).text :=
            inductionHypothesis index (items index inside) fun one other there there' =>
              tell one other (.item inside there) (.item inside there')
          have parts : ((List.range shape.size).map fun index => (item index).text) =
              (List.range shape.size).map fun index => (item' index).text :=
            List.map_congr_left fun index member => texts index (List.mem_range.1 member)
          rw [text, text, strings, parts]
          by_cases empty : shape.size = 0
          · rw [if_pos empty, if_pos empty]
          · rw [if_neg empty, if_neg empty, texts 0 (Nat.pos_of_ne_zero empty)]

end Picture

/-! ### Values -/

section Values

variable {H : Type} {calling : Call H} {held : Memory H → Prop}

/-- What an action comes to from one memory held to, it was foretold to come to. -/
theorem Action.Settles.eq_of_reaches {α : Type} {action : Action H α} {foretold result : α}
    (settles : action.Settles calling held Eq (some foretold))
    (reaches : action.Reaches calling held result) : foretold = result := by
  obtain ⟨memory, after, holds, ended⟩ := reaches
  obtain ⟨_, isForetold, same⟩ := settles.of_ok holds ended
  exact (Option.some.inj isForetold).trans same

theorem Action.Settles.eq_ok_iff {α : Type} {action : Action H α} {foretold result : α}
    (settles : action.Settles calling held Eq (some foretold)) {memory : Memory H}
    (holds : held memory) : (action calling memory).1 = .ok result ↔ foretold = result := by
  obtain ⟨found, after, ended, -, rfl⟩ := settles.ok holds
  rw [ended]
  exact Except.ok.injEq foretold result ▸ Iff.rfl

mutual

/-- A value in which nothing is pending looks the same whatever is held to. -/
theorem Value.IsSettled.exists_depicts {value : Value} :
    value.IsSettled → ∃ picture, value.Depicts calling held picture
  | .number amount => ⟨_, .number amount⟩
  | .character letter => ⟨_, .character letter⟩
  | .function operation => ⟨_, .function operation⟩
  | .array settled => settled.exists_depicts

theorem ShapedArray.IsSettled.exists_depicts {array : ShapedArray} :
    array.IsSettled → ∃ picture, (Value.array array).Depicts calling held picture
  | .mk view shape fill elements => by
      choose item depicts using fun index => (elements index).exists_depicts
      exact ⟨_, Value.depicts_array fun index _ => depicts index⟩

theorem Element.IsSettled.exists_depicts {element : Element} :
    element.IsSettled → ∃ picture, element.Depicts calling held picture
  | .value settled => by
      obtain ⟨picture, depicts⟩ := settled.exists_depicts
      exact ⟨picture, fun memory holds => ⟨holds, .ok depicts⟩⟩
  | .failure failure => ⟨_, fun memory holds => ⟨holds, .ok (.failure failure)⟩⟩

end

namespace Value

variable {left right : Value} {picture picture' : Picture}

theorem Depicts.kind_eq_of_same (depicts : left.Depicts calling held picture)
    (depicts' : right.Depicts calling held picture') (same : picture.same picture' = true) :
    left.kind = right.kind := by
  cases depicts <;> cases depicts' <;> first | rfl | cases same

theorem Depicts.shape_eq_of_same (depicts : left.Depicts calling held picture)
    (depicts' : right.Depicts calling held picture') (same : picture.same picture' = true) :
    left.shape = right.shape := by
  cases depicts with
  | array =>
      cases depicts' with
      | array => exact (Picture.same_array_iff.1 same).1
      | number | character | function => cases same
  | number | character | function => cases depicts' <;> first | rfl | cases same

end Value

/-- Equality always answers, and in both orders alike. It is transitive, and a value is equal to
itself exactly where it holds no NaN and no element that fails. Observers do not tell values that
are equal from one another. -/
theorem Value.same_congruence {first second third : Value} {picture picture' picture'' : Picture}
    (depicts : first.Depicts calling held picture) (depicts' : second.Depicts calling held picture')
    (depicts'' : third.Depicts calling held picture'') (deep : picture.depth < callBudget)
    (deep' : picture'.depth < callBudget) (tell : picture.StampsTell picture') :
    (∃ answer, (first.same second : Action H Bool).Settles calling held Eq (some answer) ∧
      (second.same first : Action H Bool).Settles calling held Eq (some answer)) ∧
    (Action.Reaches calling held (first.same second) true →
      Action.Reaches calling held (second.same third) true →
      (first.same third : Action H Bool).Settles calling held Eq (some true)) ∧
    (∀ memory, held memory →
      ((first.same first calling memory).1 = .ok true ↔ picture.IsSound)) ∧
    (Action.Reaches calling held (first.same second) true →
      first.kind = second.kind ∧ first.shape = second.shape ∧ first.rank = second.rank ∧
      (∃ depth, (first.depth : Action H Nat).Settles calling held Eq (some depth) ∧
        (second.depth : Action H Nat).Settles calling held Eq (some depth)) ∧
      (∃ string, (first.string? : Action H (Option String)).Settles calling held Eq (some string) ∧
        (second.string? : Action H (Option String)).Settles calling held Eq (some string)) ∧
      ∃ text, (first.text : Action H String).Settles calling held Eq (some text) ∧
        (second.text : Action H String).Settles calling held Eq (some text)) := by
  have forward := depicts.same depicts' deep
  refine ⟨⟨_, forward, ?_⟩, fun reaches reaches' => ?_, fun memory holds => ?_, fun reaches => ?_⟩
  · rw [Picture.same_comm]
    exact depicts'.same depicts deep'
  · have same := forward.eq_of_reaches reaches
    have same' := (depicts'.same depicts'' deep').eq_of_reaches reaches'
    have whole := depicts.same depicts'' deep
    rwa [Picture.same_trans same same'] at whole
  · rw [← Picture.same_self_iff]
    exact (depicts.same depicts deep).eq_ok_iff holds
  · have same := forward.eq_of_reaches reaches
    have sound := Picture.isSound_of_same same
    have sound' := Picture.isSound_of_same ((Picture.same_comm picture' picture).trans same)
    have shapes := depicts.shape_eq_of_same depicts' same
    refine ⟨depicts.kind_eq_of_same depicts' same, shapes, congrArg List.length shapes, ?_, ?_, ?_⟩
    · refine ⟨_, depicts.depth sound.readable deep, ?_⟩
      rw [Picture.depth_eq_of_same same]
      exact depicts'.depth sound'.readable deep'
    · refine ⟨_, depicts.string?, ?_⟩
      rw [Picture.string?_eq_of_same same]
      exact depicts'.string?
    · refine ⟨_, depicts.text deep, ?_⟩
      rw [Picture.text_eq_of_same same tell]
      exact depicts'.text deep'

/-- A list looks like what its values do. -/
theorem Value.depicts_list {elements : Array Value} {item : Nat → Picture}
    (depicts : ∀ (index : Nat) (inside : index < elements.size),
      elements[index].Depicts calling held (item index)) :
    (Value.list elements).Depicts calling held (.array [elements.size] item) := by
  have size : Shape.size [elements.size] = elements.size := ShapedArray.size_singleton _
  have isShape : (ShapedArray.list elements).shape = [elements.size] := by
    rw [ShapedArray.list, ShapedArray.ofView, size]
    split
    · next empty => rw [empty]; rfl
    · rfl
  rw [← isShape]
  refine depicts_array fun index inside => ?_
  have inside : index < elements.size := by rwa [ShapedArray.count, isShape, size] at inside
  have isElement : (ShapedArray.list elements).element index = .value elements[index] := by
    rw [ShapedArray.list, ShapedArray.ofView, size, if_neg (by omega)]
    change ShapedArray.stored elements index = _
    rw [ShapedArray.stored, Array.getElem?_eq_getElem inside]
  rw [isElement]
  exact fun memory holds => ⟨holds, .ok (depicts index inside)⟩

end Values

/-! ### The two zeros, and a number that counts -/

namespace Zeros

open ShapedArray

/-- A letter beside a number, computed whenever it is read. -/
def beside (amount : Float) : ShapedArray :=
  .ofView .zip [1] none fun _ =>
    .combined Paired.pairing (.value (.character 'a')) (.value (.number amount))

def pair (amount : Float) (place : Nat) : Picture :=
  if place = 0 then .character 'a' else .number amount

def picture (amount : Float) : Picture :=
  .array [1] fun _ => .array [2] (pair amount)

theorem depicts_pair {calling : Call (Heap (List Routine))} {held : Store → Prop}
    (amount : Float) : (Value.list #[.character 'a', .number amount]).Depicts calling held
      (.array [2] (pair amount)) := by
  refine Value.depicts_list fun index inside => ?_
  obtain rfl | rfl : index = 0 ∨ index = 1 := by
    have small : index < 2 := inside
    omega
  · exact .character 'a'
  · exact .number amount

theorem depicts_beside (amount : Float) :
    (Value.array (beside amount)).Depicts Paired.calls (fun _ => True) (picture amount) := by
  refine Value.depicts_array fun index _ memory _ => ⟨trivial, ?_⟩
  have called : Paired.calls Paired.pairing (.number amount) (some (.character 'a')) memory = _ :=
    Paired.callAt_pairing (by decide) _ _ memory
  change Outcome.Fits _ (.ok (Paired.calls Paired.pairing (.number amount)
    (some (.character 'a')) memory).1) _
  rw [called]
  exact .ok (depicts_pair amount)

theorem depicts_stored :
    (Value.list #[.list #[.character 'a', .number 0.0]]).Depicts Paired.calls (fun _ => True)
      (picture 0.0) :=
  Value.depicts_list fun index inside => by
    obtain rfl : index = 0 := Nat.lt_one_iff.1 inside
    exact depicts_pair 0.0

theorem deep (amount : Float) : (picture amount).depth < callBudget :=
  show 2 < callBudget by decide

theorem reaches_true {left right : Value} {amount other : Float}
    (depicts : left.Depicts Paired.calls (fun _ => True) (picture amount))
    (depicts' : right.Depicts Paired.calls (fun _ => True) (picture other))
    (same : (picture amount).same (picture other) = true) :
    Action.Reaches Paired.calls (fun _ => True) (left.same right) true := by
  have settles := depicts.same depicts' (deep amount)
  rw [same] at settles
  obtain ⟨_, after, ended, -, rfl⟩ := settles.ok (show True from trivial)
  exact ⟨Store.empty, after, trivial, ended⟩

/-- There is no function in the picture. -/
theorem stampsTell (amount other : Float) : (picture amount).StampsTell (picture other) := by
  rintro one _ (_ | ⟨inside, _ | ⟨inside', there⟩⟩) -
  unfold pair at there
  split at there <;> cases there

end Zeros

section Runs

open ShapedArray Zeros

theorem Value.same_congruence_zeros :
    (Value.array (beside 0.0)).Depicts Paired.calls (fun _ => True) (picture 0.0) ∧
    (Value.array (beside (-0.0))).Depicts Paired.calls (fun _ => True) (picture (-0.0)) ∧
    (Value.list #[.list #[.character 'a', .number 0.0]]).Depicts Paired.calls (fun _ => True)
      (picture 0.0) ∧
    (picture 0.0).depth < callBudget ∧ (picture (-0.0)).depth < callBudget ∧
    (picture 0.0).StampsTell (picture (-0.0)) ∧
    Action.Settles Paired.calls (fun _ => True) Eq
      ((Value.array (beside 0.0)).same (.list #[.list #[.character 'a', .number 0.0]]))
      (some true) ∧
    (picture 0.0).IsSound ∧
    ∃ text,
      Action.Settles Paired.calls (fun _ => True) Eq (Value.array (beside 0.0)).text (some text) ∧
      Action.Settles Paired.calls (fun _ => True) Eq (Value.array (beside (-0.0))).text
        (some text) := by
  have same : (picture 0.0).same (picture (-0.0)) = true := by decide +kernel
  have same' : (picture (-0.0)).same (picture 0.0) = true := by decide +kernel
  obtain ⟨-, transitive, itself, alike⟩ := same_congruence (depicts_beside 0.0)
    (depicts_beside (-0.0)) depicts_stored (deep 0.0) (deep (-0.0)) (stampsTell 0.0 (-0.0))
  have reaches := reaches_true (depicts_beside 0.0) (depicts_beside (-0.0)) same
  have reaches' := reaches_true (depicts_beside (-0.0)) depicts_stored same'
  refine ⟨depicts_beside 0.0, depicts_beside (-0.0), depicts_stored, deep 0.0, deep (-0.0),
    stampsTell 0.0 (-0.0), transitive reaches reaches', ?_, (alike reaches).2.2.2.2.2⟩
  exact (itself Store.empty trivial).1 (Outcome.eq_ok_of_toOption (by decide +kernel))

theorem Value.not_same_self : Tally.count.IsMade Tally.calls ∧ Tally.count.count = 1 ∧
    ∃ one after other,
      Tally.count.pick 0 Tally.calls Tally.store = (.ok one, after) ∧ one.IsWhole 1 ∧
      (Tally.count.pick 0 Tally.calls after).1 = .ok other ∧ other.IsWhole 2 ∧
      ((Value.array Tally.count).same (.array Tally.count) Tally.calls Tally.store).1 =
        .ok false := by
  have first : ((Tally.count.pick 0 Tally.calls Tally.store).1.bind
      Value.toNumber).toOption.bind Decimal.toInt? = some 1 := by
    decide +kernel
  have second : (((do
      let _ ← Tally.count.pick 0
      Tally.count.pick 0 : Action _ Value) Tally.calls Tally.store).1.bind
        Value.toNumber).toOption.bind Decimal.toInt? = some 2 := by
    decide +kernel
  obtain ⟨one, ended, isOne⟩ := exists_isWhole first
  rcases isFirst : Tally.count.pick 0 Tally.calls Tally.store with ⟨outcome, after⟩
  rw [isFirst] at ended
  cases ended
  rw [Action.bind_of_ok isFirst] at second
  obtain ⟨other, ended, isOther⟩ := exists_isWhole second
  exact ⟨Tally.count_made, rfl, one, after, other, rfl, isOne, ended, isOther,
    Outcome.eq_ok_of_toOption (by decide +kernel)⟩

end Runs

end PointFree
