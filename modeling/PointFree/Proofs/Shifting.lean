import PointFree.Primitive.Forms
import PointFree.Proofs.Arrangement.Reordering
import PointFree.Proofs.Shifting.Integers
import PointFree.Proofs.Shifting.Portraying
import PointFree.Proofs.Views.Laziness

/-!
Contract: letters that are shifted by integers.

A letter moves by an integer to the letter at that distance, if there is one. The inverse that
addition declares moves it back by the same integer, and the two letters are as far apart as the
integer says. So it is for nested data, where integers meet letters: what was added is told by the
sum and the letters.

A letter that is computed when it is read may be another one each time. Then the sum is one with
other letters than those it is compared with.
-/

namespace PointFree

variable {H : Type} {calling : Call H} {held : Memory H → Prop}

/-! ### Letters -/

namespace Scalar

variable {letter found : Char} {distance : Float} {whole : Int} {result : Value}

theorem characterAt?_eq_some_iff {code : Int} :
    characterAt? code = some letter ↔ (letter.toNat : Int) = code := by
  unfold characterAt?
  constructor
  · intro there
    split at there
    · next valid =>
        rw [← Option.some.inj there, Char.toNat_ofNatAux, Int.toNat_of_nonneg valid.1]
    · cases there
  · rintro rfl
    have same : Char.ofNatAux letter.toNat letter.valid = letter :=
      (dif_pos letter.valid).symm.trans (Char.ofNat_toNat letter)
    rw [dif_pos ⟨Int.natCast_nonneg _, letter.valid⟩]
    exact congrArg some same

/-- A letter moves by an integer to the letter at that distance. -/
theorem shift_eq_ok_iff (isWhole : Decimal.toInt? distance = some whole)
    (small : whole.natAbs < 2 ^ 53) :
    shift letter distance = .ok result ↔
      ∃ found : Char, result = .character found ∧ (found.toNat : Int) = letter.toNat + whole := by
  have inside : max integerMin (min whole integerMax) = whole := by
    have limit : (Nat.pow 2 63 : Int) = 9223372036854775808 := rfl
    unfold integerMin integerMax
    omega
  simp only [shift, isWhole, inside, ← characterAt?_eq_some_iff]
  cases characterAt? (letter.toNat + whole) <;> simp [refuse, eq_comm]

theorem exists_letter_of_shift (shifts : shift letter distance = .ok result) :
    ∃ found : Char, result = .character found := by
  unfold shift at shifts
  cases isWhole : Decimal.toInt? distance with
  | none => simp [isWhole, refuse] at shifts
  | some whole =>
      rw [isWhole] at shifts
      dsimp only at shifts
      generalize characterAt? _ = there at shifts
      cases there with
      | none => cases shifts
      | some found => exact ⟨found, (Except.ok.inj shifts).symm⟩

/-- Letters are as far apart as their places in the alphabet. -/
theorem toInt?_sub_letters (letter found : Char) :
    Decimal.toInt? (found.toNat.toFloat - letter.toNat.toFloat) =
      some ((found.toNat : Int) - letter.toNat) := by
  have exact (letter : Char) : letter.toNat < 1114112 := by
    rcases letter.valid with below | ⟨-, below⟩
    · exact Nat.lt_trans below (by decide)
    · exact below
  have above := exact letter
  have above' := exact found
  have limit : exactLimit = 9007199254740992 := rfl
  exact Decimal.toInt?_sub (Decimal.toInt?_toFloat (by omega)) (Decimal.toInt?_toFloat (by omega))
    (by omega) (by omega) (by omega)

end Scalar

/-! ### Leaves -/

namespace Datum

/-- The leaf as a value. -/
def leaf : Datum → Value
  | .number amount => .number amount
  | .character letter => .character letter
  | .array _ _ => .nil

/-- The leaf that a value is, if it is one. -/
def ofLeaf? : Value → Option Datum
  | .number amount => some (.number amount)
  | .character letter => some (.character letter)
  | _ => none

/-- A scalar rule, for data. -/
def ofRule (rule : Value → Value → Outcome Value) (left right : Datum) : Option Datum :=
  match rule left.leaf right.leaf with
  | .ok result => ofLeaf? result
  | .error _ => none

/-- An integer of a magnitude below 2 ^ 53, and a letter. -/
inductive IsShift : Datum → Datum → Prop where
  | intro {distance : Float} {whole : Int} (letter : Char) :
      Decimal.toInt? distance = some whole → whole.natAbs < 2 ^ 53 →
      IsShift (.number distance) (.character letter)

inductive AreLetters : Datum → Datum → Prop where
  | intro (first second : Char) : AreLetters (.character first) (.character second)

theorem IsShift.leaves {left right : Datum} (shift : IsShift left right) :
    left.isLeaf = true ∧ right.isLeaf = true := by
  cases shift
  exact ⟨rfl, rfl⟩

theorem AreLetters.leaves {left right : Datum} (letters : AreLetters left right) :
    left.isLeaf = true ∧ right.isLeaf = true := by
  cases letters
  exact ⟨rfl, rfl⟩

theorem IsShift.same {left right : Datum} (shift : IsShift left right) : right.Same right := by
  cases shift
  exact .character _

variable {left right result : Datum} {rule : Value → Value → Outcome Value}

theorem ofRule_eq_some_iff : ofRule rule left right = some result ↔
    ∃ value, rule left.leaf right.leaf = .ok value ∧ ofLeaf? value = some result := by
  unfold ofRule
  cases rule left.leaf right.leaf <;> simp

/-- An integer moves a letter to the letter at that distance. -/
theorem ofRule_shift {distance : Float} {whole : Int} {letter : Char}
    (isWhole : Decimal.toInt? distance = some whole) (small : whole.natAbs < 2 ^ 53)
    (shifts : rule left.leaf right.leaf = Scalar.shift letter distance) :
    ofRule rule left right = some result ↔
      ∃ found : Char, result = .character found ∧ (found.toNat : Int) = letter.toNat + whole := by
  rw [ofRule_eq_some_iff, shifts]
  simp only [Scalar.shift_eq_ok_iff isWhole small]
  constructor
  · rintro ⟨_, ⟨found, rfl, far⟩, isResult⟩
    exact ⟨found, (Option.some.inj isResult).symm, far⟩
  · rintro ⟨found, rfl, far⟩
    exact ⟨_, ⟨found, rfl, far⟩, rfl⟩

/-- What is added to a letter is taken back by the inverse. -/
theorem IsShift.unadd (shift : IsShift left right)
    (adds : ofRule Scalar.add left right = some result) :
    result.isLeaf = true ∧ IsShift left result ∧ ofRule Scalar.unadd left result = some right := by
  cases shift with
  | @intro distance whole letter isWhole small =>
      obtain ⟨found, rfl, far⟩ := (ofRule_shift isWhole small rfl).1 adds
      have back := Decimal.toInt?_neg isWhole small
      refine ⟨rfl, .intro found isWhole small, (ofRule_shift back (by omega) rfl).2 ?_⟩
      exact ⟨letter, rfl, by omega⟩

/-- The sum and the letter are as far apart as the integer says. -/
theorem IsShift.subtract (shift : IsShift left right)
    (adds : ofRule Scalar.add left right = some result) :
    result.isLeaf = true ∧ AreLetters result right ∧
      ∃ found, ofRule Scalar.subtract result right = some found ∧ found.Same left := by
  cases shift with
  | @intro distance whole letter isWhole small =>
      obtain ⟨found, rfl, far⟩ := (ofRule_shift isWhole small rfl).1 adds
      have apart := Scalar.toInt?_sub_letters letter found
      rw [show (found.toNat : Int) - letter.toNat = whole by omega] at apart
      exact ⟨rfl, .intro found letter, _, rfl, .number (Decimal.beq_of_toInt? apart isWhole small)⟩

/-- The rule makes nothing but leaves. -/
def MakesLeaves (rule : Value → Value → Outcome Value) : Prop :=
  ∀ left right result, rule left right = .ok result → ∃ datum, ofLeaf? result = some datum

theorem makesLeaves_add : MakesLeaves Scalar.add := by
  intro left right result adds
  unfold Scalar.add at adds
  split at adds
  · cases adds
    exact ⟨_, rfl⟩
  · obtain ⟨found, rfl⟩ := Scalar.exists_letter_of_shift adds
    exact ⟨_, rfl⟩
  · obtain ⟨found, rfl⟩ := Scalar.exists_letter_of_shift adds
    exact ⟨_, rfl⟩
  · cases adds

theorem makesLeaves_subtract : MakesLeaves Scalar.subtract := by
  intro left right result subtracts
  unfold Scalar.subtract at subtracts
  split at subtracts
  · cases subtracts
    exact ⟨_, rfl⟩
  · obtain ⟨found, rfl⟩ := Scalar.exists_letter_of_shift subtracts
    exact ⟨_, rfl⟩
  · cases subtracts
    exact ⟨_, rfl⟩
  · cases subtracts

theorem makesLeaves_unadd : MakesLeaves Scalar.unadd :=
  fun left right => makesLeaves_subtract right left

end Datum

/-! ### Nested data -/

section Nested

variable {left right sum : Value} {added text datum datum' : Datum}
variable {rule : Value → Value → Outcome Value} {pairs : Datum → Datum → Prop}

theorem Value.Portrays.eq_leaf (portrays : left.Portrays calling held datum)
    (leaf : datum.isLeaf = true) : left = datum.leaf := by
  cases portrays with
  | number => rfl
  | character => rfl
  | array => cases leaf

/-- A scalar rule is carried through values as its form for data is spread over what they show. -/
theorem Datum.Meets.zipLeaves (meets : Datum.Meets pairs datum datum') (makes : MakesLeaves rule)
    (leaves : ∀ one other, pairs one other → one.isLeaf = true ∧ other.isLeaf = true)
    (portrays : left.Portrays calling held datum) (portrays' : right.Portrays calling held datum')
    (shallow : datum'.depth < callBudget) :
    (left.zipLeaves rule right).Portrays calling held (datum.spread (ofRule rule) datum') := by
  refine meets.zipLeavesWithin (fun one other left right paired shows shows' => ?_) portrays
    portrays' shallow
  obtain ⟨leaf, leaf'⟩ := leaves one other paired
  rw [shows.eq_leaf leaf, shows'.eq_leaf leaf', ofRule]
  cases ended : rule one.leaf other.leaf with
  | error failure => exact .error failure
  | ok result =>
      obtain ⟨datum, isLeaf⟩ := makes _ _ result ended
      dsimp only
      rw [isLeaf]
      cases result with
      | number =>
          cases isLeaf
          exact .ok (.number _)
      | character =>
          cases isLeaf
          exact .ok (.character _)
      | array | function => cases isLeaf

/-- Where integers of a magnitude below 2 ^ 53 meet letters and the sum is there, the inverse of
addition recovers the letters from it, and what it is apart from the letters are the integers, in
the places of the letters. -/
theorem Value.shift_undone (portrays : left.Portrays calling held added)
    (portrays' : right.Portrays calling held text) (meets : added.Meets Datum.IsShift text)
    (shallow : text.depth < callBudget) {memory after : Memory H} (holds : held memory)
    (ended : Primitive.add.apply right (some left) calling memory = (.ok sum, after)) :
    held after ∧
    (Primitive.add.applyInverse sum (some left) : Action H Value).Portrays calling held
      (some text) ∧
    (do
      let restored ← Primitive.add.applyInverse sum (some left)
      restored.same right : Action H Bool).Settles calling held Eq (some true) ∧
    ∃ kept found, added.spread Datum.keepLeft text = some kept ∧ found.Same kept ∧
      (Primitive.subtract.apply right (some sum) : Action H Value).Portrays calling held
        (some found) := by
  have adds := meets.zipLeaves Datum.makesLeaves_add (fun _ _ shift => shift.leaves) portrays
    portrays' shallow
  obtain ⟨total, isTotal, shows⟩ := adds.of_ok holds ended
  have kept : held after := by
    have kept := (adds memory holds).1
    rwa [show left.zipLeaves Scalar.add right calling memory = _ from ended] at kept
  obtain ⟨meets', back⟩ := meets.spread_back (fun _ _ _ => Datum.IsShift.unadd) isTotal
  obtain ⟨apart, found, kept', isFound, isKept, same⟩ :=
    meets.spread_apart (fun _ _ _ => Datum.IsShift.subtract) isTotal
  have deep : total.depth = text.depth :=
    meets.depth_spread (fun _ _ _ shift adds => (shift.unadd adds).1) isTotal
  have restores := meets'.zipLeaves Datum.makesLeaves_unadd (fun _ _ shift => shift.leaves) portrays
    shows (deep.trans_lt shallow)
  have subtracts := apart.zipLeaves Datum.makesLeaves_subtract (fun _ _ letters => letters.leaves)
    shows portrays' shallow
  rw [back] at restores
  rw [isFound] at subtracts
  refine ⟨kept, restores, restores.bind_some fun restored shows => ?_,
    kept', found, isKept, same, subtracts⟩
  have letters : text.Same text := meets.same_right fun _ _ shift => shift.same
  exact letters.same shows portrays' shallow

end Nested

/-! ### Two words, and a number that counts -/

/-- A list portrays what its values do. -/
theorem Value.portrays_list {elements : Array Value} {items : List Datum}
    (rows : List.Forall₂ (fun datum content => Value.Portrays calling held content datum) items
      elements.toList) :
    (Value.list elements).Portrays calling held (.array [elements.size] items) := by
  have size : Shape.size [elements.size] = items.length := by
    rw [ShapedArray.size_singleton, ← Array.length_toList, rows.length_eq]
  refine portrays_stored size (fun none => ?_) rows
  rw [none, ShapedArray.size_singleton] at size
  rw [size, List.length_nil]

/-- A value of which a whole number can be read denotes that number. -/
theorem Value.exists_isWhole {outcome : Outcome Value} {whole : Int}
    (found : (outcome.bind Value.toNumber).toOption.bind Decimal.toInt? = some whole) :
    ∃ value, outcome = .ok value ∧ value.IsWhole whole := by
  cases outcome with
  | error failure => cases found
  | ok value =>
      cases value with
      | number amount => exact ⟨_, rfl, amount, rfl, found⟩
      | character | array | function => cases found

namespace Shifted

/-- One, beside two and three. -/
def steps : Value :=
  .list #[.number 1.0, .list #[.number 2.0, .number 3.0]]

def words : Value :=
  .list #[.list #[.character 'a', .character 'b'], .list #[.character 'c', .character 'd']]

def distances : Datum :=
  .array [2] [.number 1.0, .array [2] [.number 2.0, .number 3.0]]

def letters : Datum :=
  .array [2] [.array [2] [.character 'a', .character 'b'],
    .array [2] [.character 'c', .character 'd']]

theorem portrays_steps : steps.Portrays calling held distances :=
  Value.portrays_list (.cons (.number _)
    (.cons (Value.portrays_list (.cons (.number _) (.cons (.number _) .nil))) .nil))

theorem portrays_words : words.Portrays calling held letters :=
  Value.portrays_list
    (.cons (Value.portrays_list (.cons (.character _) (.cons (.character _) .nil)))
      (.cons (Value.portrays_list (.cons (.character _) (.cons (.character _) .nil))) .nil))

theorem distances_meet_letters : distances.Meets Datum.IsShift letters := by
  have one : Decimal.toInt? 1.0 = some 1 := by decide +kernel
  have two : Decimal.toInt? 2.0 = some 2 := by decide +kernel
  have three : Decimal.toInt? 3.0 = some 3 := by decide +kernel
  refine .level (List.suffix_refl [2]) fun index inside => ?_
  rcases index with _ | _ | index
  · refine .level List.nil_suffix fun index inside => ?_
    rcases index with _ | _ | index
    · exact .leaves rfl rfl (.intro 'a' one (by decide))
    · exact .leaves rfl rfl (.intro 'b' one (by decide))
    · simp at inside
  · refine .level (List.suffix_refl [2]) fun index inside => ?_
    rcases index with _ | _ | index
    · exact .leaves rfl rfl (.intro 'c' two (by decide))
    · exact .leaves rfl rfl (.intro 'd' three (by decide))
    · simp at inside
  · simp at inside

end Shifted

theorem Outcome.exists_eq_of_toOption {α β : Type} {ended : Outcome α × β} {result : α}
    (found : ended.1.toOption = some result) : ∃ last, ended = (.ok result, last) :=
  ⟨ended.2, Prod.ext (Outcome.eq_ok_of_toOption found) rfl⟩

section Runs

open ShapedArray Shifted

theorem Value.shift_undone_words :
    steps.Portrays Tally.calls (fun _ => True) distances ∧
    words.Portrays Tally.calls (fun _ => True) letters ∧
    distances.Meets Datum.IsShift letters ∧ letters.depth < callBudget ∧
    ∃ sum after,
      Primitive.add.apply words (some steps) Tally.calls Store.empty = (.ok sum, after) ∧
      (Primitive.add.applyInverse sum (some steps) : Action _ Value).Portrays Tally.calls
        (fun _ => True) (some letters) ∧
      (do
        let restored ← Primitive.add.applyInverse sum (some steps)
        restored.same words : Action _ Bool).Settles Tally.calls (fun _ => True) Eq (some true) ∧
      ∃ kept found, distances.spread Datum.keepLeft letters = some kept ∧ found.Same kept ∧
        (Primitive.subtract.apply words (some sum) : Action _ Value).Portrays Tally.calls
          (fun _ => True) (some found) := by
  have shallow : letters.depth < callBudget := by decide
  refine ⟨portrays_steps, portrays_words, distances_meet_letters, shallow, ?_⟩
  have isSum : (Primitive.add.apply words (some steps) Tally.calls Store.empty).1.isOk = true := by
    decide +kernel
  rcases ended : Primitive.add.apply words (some steps) Tally.calls Store.empty with
    ⟨failure | sum, after⟩
  · rw [ended] at isSum
    cases isSum
  · exact ⟨sum, after, rfl, (shift_undone portrays_steps portrays_words distances_meet_letters
      shallow trivial ended).2⟩

/-- A number that is one when it is added to a letter, and two when the addition is undone. -/
theorem Value.not_shift_undone : Tally.count.IsMade Tally.calls ∧
    (∃ first, (Tally.count.pick 0 Tally.calls Tally.store).1 = .ok first ∧ first.IsWhole 1) ∧
    ∃ sum after restored later,
      Primitive.add.apply (.list #[.character 'a']) (some (.array Tally.count)) Tally.calls
        Tally.store = (.ok sum, after) ∧
      (∃ second, (Tally.count.pick 0 Tally.calls after).1 = .ok second ∧ second.IsWhole 2) ∧
      Primitive.add.applyInverse sum (some (.array Tally.count)) Tally.calls after =
        (.ok restored, later) ∧
      (restored.same (.list #[.character 'a']) Tally.calls later).1 = .ok false := by
  refine ⟨Tally.count_made, exists_isWhole (by decide +kernel), ?_⟩
  obtain ⟨last, equality⟩ : ∃ last, (do
      let sum ← Primitive.add.apply (.list #[.character 'a']) (some (.array Tally.count))
      let restored ← Primitive.add.applyInverse sum (some (.array Tally.count))
      restored.same (.list #[.character 'a']) : Action _ Bool) Tally.calls Tally.store =
        (.ok false, last) :=
    Outcome.exists_eq_of_toOption (by decide +kernel)
  have second : (((do
      let _ ← Primitive.add.apply (.list #[.character 'a']) (some (.array Tally.count))
      Tally.count.pick 0 : Action _ Value) Tally.calls Tally.store).1.bind
        Value.toNumber).toOption.bind Decimal.toInt? = some 2 := by
    decide +kernel
  obtain ⟨sum, after, adds, equality⟩ := Action.bind_eq_ok.1 equality
  obtain ⟨restored, later, restores, equality⟩ := Action.bind_eq_ok.1 equality
  rw [Action.bind_of_ok adds] at second
  exact ⟨sum, after, restored, later, adds, exists_isWhole second, restores,
    congrArg Prod.fst equality⟩

end Runs

end PointFree
