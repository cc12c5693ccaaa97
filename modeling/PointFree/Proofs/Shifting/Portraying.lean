import PointFree.Proofs.Pervasion.Commutation
import PointFree.Proofs.Shifting.Spreading

/-!
Contract: values that show data however often they are read.

An element that is computed when it is read may be another value each time, and its reading may
change the memory. What counts is that it shows the same data, from every memory that is held to,
and leaves such a memory. A scalar rule that is carried through two such values comes to what its
rule on data comes to, spread over the data, and values that show the same data are equal.
-/

namespace PointFree

variable {H : Type} {calling : Call H} {held : Memory H → Prop}

/-- However often it is read, from memories that are held to, the value shows the data. -/
inductive Value.Portrays (calling : Call H) (held : Memory H → Prop) : Value → Datum → Prop where
  | number (amount : Float) : Portrays calling held (.number amount) (.number amount)
  | character (letter : Char) : Portrays calling held (.character letter) (.character letter)
  | array {array : ShapedArray} {shape : Shape} {items : List Datum}
      {content : Nat → Memory H → Value} :
      array.shape = shape → shape.size = items.length → (items = [] → shape = [0]) →
      (∀ index < items.length, ∀ memory, held memory →
        ((array.element index).force calling memory).1 = .ok (content index memory) ∧
        held ((array.element index).force calling memory).2) →
      (∀ (index : Nat) (inside : index < items.length) (memory : Memory H), held memory →
        Portrays calling held (content index memory) items[index]) →
      Portrays calling held (.array array) (.array shape items)

/-- The action comes to a value that shows the data, or fails where none are foretold. -/
def Action.Portrays (calling : Call H) (held : Memory H → Prop) (action : Action H Value)
    (foretold : Option Datum) : Prop :=
  action.Settles calling held (fun datum content => content.Portrays calling held datum) foretold

/-- The element is read as a value that shows the data. -/
def Element.Portrays (calling : Call H) (held : Memory H → Prop) (element : Element)
    (datum : Datum) : Prop :=
  Action.Portrays calling held element.force (some datum)

namespace Value

variable {value left right : Value} {datum datum' : Datum} {shape : Shape} {items : List Datum}

/-- An array portrays what its elements do. -/
theorem portrays_array {array : ShapedArray} (isShape : array.shape = shape)
    (size : shape.size = items.length) (empty : items = [] → shape = [0])
    (elements : ∀ (index : Nat) (inside : index < items.length),
      (array.element index).Portrays calling held items[index]) :
    (Value.array array).Portrays calling held (.array shape items) := by
  have contents (index : Nat) (memory : Memory H) : ∃ content : Value,
      ∀ inside : index < items.length, held memory →
        ((array.element index).force calling memory).1 = .ok content ∧
        held ((array.element index).force calling memory).2 ∧
        content.Portrays calling held items[index] := by
    by_cases there : index < items.length ∧ held memory
    · obtain ⟨inside, holds⟩ := there
      obtain ⟨content, after, ended, kept, portrays⟩ := (elements index inside).ok holds
      exact ⟨content, fun _ _ => by rw [ended]; exact ⟨rfl, kept, portrays⟩⟩
    · exact ⟨.nil, fun inside holds => absurd ⟨inside, holds⟩ there⟩
  choose content isContent using contents
  refine @Portrays.array _ _ _ _ _ _ content isShape size empty
    (fun index inside memory holds => ?_) fun index inside memory holds => ?_
  · obtain ⟨ended, kept, -⟩ := isContent index memory inside holds
    exact ⟨ended, kept⟩
  · exact (isContent index memory inside holds).2.2

/-- The shape of an array and what its elements portray. -/
theorem Portrays.elements {array : ShapedArray}
    (portrays : (Value.array array).Portrays calling held datum) :
    ∃ items : List Datum, datum = .array array.shape items ∧ array.count = items.length ∧
      (items = [] → array.shape = [0]) ∧
      ∀ (index : Nat) (inside : index < items.length),
        (array.element index).Portrays calling held items[index] := by
  cases portrays with
  | @array _ _ items content isShape size empty reads shows =>
      subst isShape
      refine ⟨items, rfl, size, empty, fun index inside memory holds => ?_⟩
      obtain ⟨ended, kept⟩ := reads index inside memory holds
      rw [ended]
      exact ⟨kept, .ok (shows index inside memory holds)⟩

theorem Portrays.isArray (portrays : value.Portrays calling held datum) :
    value.isArray = !datum.isLeaf := by
  cases portrays <;> rfl

/-- What meets an index of the other side is portrayed by the element that is read for it. -/
theorem Portrays.itemAt {array : ShapedArray}
    (portrays : (Value.array array).Portrays calling held datum) (filled : 0 < array.count)
    (index : Nat) :
    (array.element (index % array.count)).Portrays calling held (datum.itemAt index) := by
  obtain ⟨items, rfl, count, -, elements⟩ := portrays.elements
  rw [count] at filled ⊢
  have inside := Nat.mod_lt index filled
  simpa [Datum.itemAt, List.getD, inside] using elements _ inside

/-- Values that are stored portray what they do one by one. -/
theorem portrays_stored {results : Array Value} (size : shape.size = items.length)
    (empty : items = [] → shape = [0])
    (rows : List.Forall₂ (fun datum content => Value.Portrays calling held content datum) items
      results.toList) :
    (Value.array (.ofView .owned shape none (ShapedArray.stored results))).Portrays calling held
      (.array shape items) := by
  refine portrays_array ?_ size empty fun index inside => ?_
  · by_cases none : shape.size = 0
    · rw [ShapedArray.ofView, if_pos none, empty (List.length_eq_zero_iff.1 (size ▸ none))]
      rfl
    · rw [ShapedArray.ofView, if_neg none]
      rfl
  · have there : index < results.size := by
      rw [← Array.length_toList, ← rows.length_eq]
      exact inside
    rw [ShapedArray.ofView, if_neg (by omega)]
    change (ShapedArray.stored results index).Portrays calling held items[index]
    rw [ShapedArray.stored, Array.getElem?_eq_getElem there]
    exact Action.settles_pure (rows.get inside there)

end Value

/-! ### Arrays that are computed -/

section Computing

variable {shape : Shape}

/-- An array is computed where all its items are and its shape may be built. -/
theorem portrays_computed {item : Nat → Action H Value} {foretold : List (Option Datum)}
    (size : shape.size = foretold.length) (empty : foretold = [] → shape = [0])
    (items : ∀ (index : Nat) (inside : index < foretold.length),
      (item index).Portrays calling held foretold[index]) :
    (computed shape item).Portrays calling held
      (if shape.size ≤ sizeLimit then (foretold.mapM id).map (.array shape) else none) := by
  by_cases small : shape.size ≤ sizeLimit
  · have measured : ShapedArray.measure shape = .ok foretold.length := by
      rw [← size]
      by_cases none : shape.size = 0
      · rw [empty (List.length_eq_zero_iff.1 (size ▸ none))]
        rfl
      · exact ShapedArray.measure_of_size (Nat.pos_of_ne_zero none) small
    rw [computed, measured, if_pos small, Option.map_eq_bind]
    refine (Action.Settles.collect items).bind fun data results isForetold rows => ?_
    rw [Action.mapM_id_eq_some] at isForetold
    subst isForetold
    refine Action.settles_pure (Value.portrays_stored (by simpa using size) (fun none => ?_) rows)
    exact empty (by rw [none, List.map_nil])
  · have refused : ShapedArray.measure shape = refuse (.shapeTooLarge shape) := by
      refine ShapedArray.measure_eq_ok_or_refuse.resolve_left fun measured => ?_
      exact small (ShapedArray.size_le_of_measure measured)
    rw [computed, refused, if_neg small]
    exact Action.settles_refuse _

end Computing

/-! ### Rules that are carried through -/

section Walking

variable {rule : Value → Value → Outcome Value} {later : Value × Value → Action H Value}
variable {datum datum' : Datum} {foretold : Option Datum}

/-- Two elements that meet are read one after the other, in whichever round that is. -/
theorem Element.Portrays.zipLeavesThrough {left right : Element}
    (portrays : left.Portrays calling held datum) (portrays' : right.Portrays calling held datum')
    (here : ∀ one other : Value, one.Portrays calling held datum →
      other.Portrays calling held datum' →
      (one.zipLeavesThrough rule later other).Portrays calling held foretold)
    (afterwards : ∀ one other : Value, one.Portrays calling held datum →
      other.Portrays calling held datum' → (later (one, other)).Portrays calling held foretold) :
    (left.zipLeavesThrough rule later right).Portrays calling held foretold := by
  by_cases there : ∃ content, left = .value content
  · obtain ⟨content, rfl⟩ := there
    intro memory holds
    obtain ⟨_, _, ended, _, shows⟩ := portrays.ok holds
    cases ended
    exact portrays'.bind_some (fun other shows' => here content other shows shows') memory holds
  · rw [zipLeavesThrough_of_pending fun content isValue => there ⟨content, isValue⟩]
    refine portrays.bind_some fun one shows => ?_
    exact portrays'.bind_some fun other shows' => afterwards one other shows shows'

/-- An element that a leaf meets is read, in whichever round that is. -/
theorem Element.Portrays.againstLeavesThrough {leaf : Value} {right : Element}
    (flat : leaf.isArray = false) (portrays : right.Portrays calling held datum)
    (here : ∀ other : Value, other.Portrays calling held datum →
      (leaf.zipLeavesThrough rule later other).Portrays calling held foretold)
    (afterwards : ∀ other : Value, other.Portrays calling held datum →
      (later (leaf, other)).Portrays calling held foretold) :
    (right.againstLeavesThrough (rule leaf) fun found => later (leaf, found)).Portrays calling held
      foretold := by
  by_cases there : ∃ content, right = .value content
  · obtain ⟨content, rfl⟩ := there
    intro memory holds
    obtain ⟨_, _, ended, _, shows⟩ := portrays.ok holds
    cases ended
    have walk := here content shows
    rw [Value.zipLeavesThrough_of_leaf flat] at walk
    exact walk memory holds
  · rw [againstLeavesThrough_of_pending fun content isValue => there ⟨content, isValue⟩]
    exact portrays.bind_some afterwards

/-- A level whose left shape fits under the right one is computed where the pairs are that meet. -/
theorem Value.Portrays.zipLeavesThrough {left : Value} {right : ShapedArray} {items : List Datum}
    (portrays : left.Portrays calling held datum)
    (portrays' : (Value.array right).Portrays calling held (.array right.shape items))
    (fits : datum.axes <:+ right.shape) {row : List (Option Datum)}
    (length : row.length = items.length)
    (pairs : ∀ (index : Nat) (inside : index < items.length) (inside' : index < row.length)
      (one other : Value), one.Portrays calling held (datum.itemAt index) →
      other.Portrays calling held items[index] →
      (one.zipLeavesThrough rule later other).Portrays calling held row[index] ∧
        (later (one, other)).Portrays calling held row[index]) :
    (left.zipLeavesThrough rule later (.array right)).Portrays calling held
      (if right.shape.size ≤ sizeLimit then (row.mapM id).map (.array right.shape) else none) := by
  obtain ⟨_, same, count, empty, elements⟩ := portrays'.elements
  cases same
  have empty (none : row = []) : right.shape = [0] :=
    empty (List.length_eq_zero_iff.1 (by rw [← length, none, List.length_nil]))
  rcases left.flat_or_array with flat | ⟨left, rfl⟩
  · have itself (index : Nat) : datum.itemAt index = datum := by
      cases portrays with
      | array => cases flat
      | number => rfl
      | character => rfl
    have walk : left.zipLeavesThrough rule later (.array right) =
        computed right.shape fun index =>
          (right.element index).againstLeavesThrough (rule left) fun found =>
            later (left, found) := by
      obtain ⟨view, shape, fill, element⟩ := right
      rw [zipLeavesThrough_of_leaf flat]
      rfl
    rw [walk]
    refine portrays_computed (count.trans length.symm) empty fun index inside => ?_
    have there : index < items.length := length ▸ inside
    have pair (other : Value) := pairs index there inside left other (by rwa [itself])
    refine (elements index there).againstLeavesThrough flat ?_ ?_
    · exact fun other shows => (pair other shows).1
    · exact fun other shows => (pair other shows).2
  · obtain ⟨others, rfl, -, -, -⟩ := portrays.elements
    have aligned : ShapedArray.alignShapes left.shape right.shape = .ok right.shape := by
      have lead : Shape.aligned? left.shape right.shape = some right.shape :=
        Shape.aligned?_eq_some_iff.2 (.inr ⟨fits, rfl⟩)
      rw [ShapedArray.alignShapes, lead]
    have walk : (Value.array left).zipLeavesThrough rule later (.array right) =
        computed right.shape fun index =>
          (left.element (index % left.count)).zipLeavesThrough rule later
            (right.element (index % right.count)) := by
      obtain ⟨view, shape, fill, element⟩ := left
      change (liftM (ShapedArray.alignShapes shape right.shape) >>= _ : Action H Value) = _
      rw [show ShapedArray.alignShapes shape right.shape = .ok right.shape from aligned]
      rfl
    rw [walk]
    refine portrays_computed (count.trans length.symm) empty fun index inside => ?_
    have there : index < items.length := length ▸ inside
    have within : index < right.count := by rwa [count]
    have filled := (ShapedArray.aligned_pos aligned (Nat.zero_lt_of_lt within)).1
    rw [Nat.mod_eq_of_lt within]
    refine (portrays.itemAt filled index).zipLeavesThrough (elements index there) ?_ ?_
    · exact fun one other shows shows' => (pairs index there inside one other shows shows').1
    · exact fun one other shows shows' => (pairs index there inside one other shows shows').2

/-- A rule that fits a rule for data at the leaves that meet is carried through as that one is
spread. -/
theorem Datum.Meets.zipLeavesWithin {pairs : Datum → Datum → Prop}
    {rule' : Datum → Datum → Option Datum} (meets : Datum.Meets pairs datum datum')
    (leaves : ∀ (one other : Datum) (left right : Value), pairs one other →
      left.Portrays calling held one → right.Portrays calling held other →
      (rule left right).Fits (fun datum content => content.Portrays calling held datum)
        (rule' one other))
    {left right : Value} (portrays : left.Portrays calling held datum)
    (portrays' : right.Portrays calling held datum') {budget : Nat} (deep : datum'.depth < budget) :
    (Value.zipLeavesWithin rule budget left right).Portrays calling held
      (datum.spread rule' datum') := by
  induction meets generalizing left right budget with
  | @leaves one other leaf leaf' paired =>
      have flat : left.isArray = false := by rw [portrays.isArray, leaf]; rfl
      have flat' : right.isArray = false := by rw [portrays'.isArray, leaf']; rfl
      rw [Value.zipLeavesWithin_of_leaves (by omega) flat flat', Datum.spread_of_leaf leaf']
      exact Action.settles_ofOutcome (leaves one other left right paired portrays portrays')
  | @level datum shape items fits _ inductionHypothesis =>
      cases right with
      | number | character | function => cases portrays'
      | array right =>
          obtain ⟨_, same, -, -, -⟩ := portrays'.elements
          cases same
          rw [Value.zipLeavesWithin, Action.rounds_eq_step _ _ _ (by omega)]
          refine portrays.zipLeavesThrough portrays' fits (Datum.length_spreadAll 0)
            fun index inside inside' one other shows shows' => ?_
          have shallow := (Datum.depth_lt (List.getElem_mem inside)).trans_le
            (Nat.le_sub_one_of_lt deep)
          rw [Datum.getElem_spreadAll inside, Nat.zero_add]
          have here := inductionHypothesis index inside shows shows'
            (shallow.trans_le (Nat.sub_le _ 1))
          rw [Value.zipLeavesWithin, Action.rounds_eq_step _ _ _ (by omega)] at here
          exact ⟨here, inductionHypothesis index inside shows shows' shallow⟩

end Walking

/-! ### Equality -/

section Equality

/-- Elements are compared as what they are read as, in whichever round that is. -/
theorem Element.Portrays.sameThrough {left right : Element} {datum datum' : Datum}
    {later : Value × Value → Action H Bool} (portrays : left.Portrays calling held datum)
    (portrays' : right.Portrays calling held datum')
    (here : ∀ one other : Value, one.Portrays calling held datum →
      other.Portrays calling held datum' →
      (one.sameThrough later other).Settles calling held Eq (some true))
    (afterwards : ∀ one other : Value, one.Portrays calling held datum →
      other.Portrays calling held datum' →
      (later (one, other)).Settles calling held Eq (some true)) :
    (left.sameThrough later right).Settles calling held Eq (some true) := by
  cases left with
  | value content =>
      intro memory holds
      obtain ⟨_, _, ended, _, shows⟩ := portrays.ok holds
      cases ended
      refine portrays'.attempt.bind_some (fun outcome isRead => ?_) memory holds
      obtain ⟨other, rfl, shows'⟩ := isRead
      exact here content other shows shows'
  | failure | combined | selected =>
      refine portrays.attempt.bind_some fun outcome isRead => ?_
      obtain ⟨one, rfl, shows⟩ := isRead
      refine portrays'.attempt.bind_some fun outcome isRead => ?_
      obtain ⟨other, rfl, shows'⟩ := isRead
      exact afterwards one other shows shows'

/-- Values that show data that are the same are equal. -/
theorem Datum.Same.sameThrough {datum datum' : Datum} (same : datum.Same datum')
    {left right : Value} (portrays : left.Portrays calling held datum)
    (portrays' : right.Portrays calling held datum') {limit : Nat} (deep : datum.depth ≤ limit) :
    (left.sameThrough (Action.rounds (fun later pair => pair.1.sameThrough later pair.2) limit)
      right).Settles calling held Eq (some true) := by
  induction same generalizing left right limit with
  | number equal =>
      cases portrays
      cases portrays'
      exact Action.settles_pure equal.symm
  | character letter =>
      cases portrays
      cases portrays'
      exact Action.settles_pure (beq_self_eq_true letter).symm
  | @array shape items items' length _ inductionHypothesis =>
      cases left with
      | number | character | function => cases portrays
      | array left =>
          cases right with
          | number | character | function => cases portrays'
          | array right =>
              obtain ⟨_, isLeft, count, -, elements⟩ := portrays.elements
              obtain ⟨_, isRight, -, -, elements'⟩ := portrays'.elements
              cases isLeft
              obtain ⟨isShape, rfl⟩ := Datum.array.inj isRight
              obtain ⟨view, shape, fill, element⟩ := left
              have isShape : shape = right.shape := isShape
              rw [Value.sameThrough, ShapedArray.sameThrough, if_pos isShape]
              refine Action.Settles.everyFrom fun index _ inside => ?_
              have inside : index < items.length := by
                rw [← count]
                rwa [Nat.zero_add] at inside
              have shallow := (Datum.depth_lt (List.getElem_mem inside)).trans_le deep
              refine (elements index inside).sameThrough (elements' index (length ▸ inside)) ?_ ?_
              · intro one other shows shows'
                exact inductionHypothesis index inside (length ▸ inside) shows shows' shallow.le
              · intro one other shows shows'
                rw [Action.rounds_eq_step _ _ _ (Nat.zero_lt_of_lt shallow)]
                exact inductionHypothesis index inside (length ▸ inside) shows shows'
                  (Nat.le_sub_one_of_lt shallow)

/-- Equality does not go deeper than the budget of calls. -/
theorem Datum.Same.same {datum datum' : Datum} (same : datum.Same datum') {left right : Value}
    (portrays : left.Portrays calling held datum) (portrays' : right.Portrays calling held datum')
    (deep : datum.depth < callBudget) :
    (left.same right).Settles calling held Eq (some true) := by
  rw [Value.same, Action.rounds_eq_step _ _ _ (Nat.zero_lt_of_lt deep)]
  exact same.sameThrough portrays portrays' (Nat.le_sub_one_of_lt deep)

end Equality

end PointFree
