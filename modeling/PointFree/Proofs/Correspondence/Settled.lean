import PointFree.Proofs.Correspondence
import PointFree.Value.Text

/-!
Contract: values whose text takes no call.

An array in which nothing is pending is written down without calling a function and
without touching the memory. Where arrays hold no pending elements, values that
correspond are of this kind.
-/

namespace PointFree

mutual

/-- Functions are written by their names, so nothing is asked of them. -/
inductive Value.IsSettled : Value → Prop where
  | number (number : Float) : Value.IsSettled (.number number)
  | character (letter : Char) : Value.IsSettled (.character letter)
  | array {array : ShapedArray} : ShapedArray.IsSettled array → Value.IsSettled (.array array)
  | function (function : Function) : Value.IsSettled (.function function)

inductive ShapedArray.IsSettled : ShapedArray → Prop where
  | mk (view : View) (shape : Shape) (fill : Option Value) {element : Nat → Element} :
      (∀ index, Element.IsSettled (element index)) →
      ShapedArray.IsSettled (.mk view shape fill element)

inductive Element.IsSettled : Element → Prop where
  | value {content : Value} : Value.IsSettled content → Element.IsSettled (.value content)
  | failure (failure : Failure) : Element.IsSettled (.failure failure)

end

section Texts

variable {H α : Type}

/-- A collection of what is there already. -/
theorem exists_collect_pure (item : Nat → α) (count : Nat) :
    ∃ all : Array α,
      collect (fun index => (pure (item index) : Action H α)) count = pure all := by
  suffices general : ∀ (remaining index : Nat) (found : Array α),
      ∃ all : Array α, collectFrom (fun index => (pure (item index) : Action H α)) remaining index
        found = pure all from general count 0 #[]
  intro remaining
  induction remaining with
  | zero => exact fun _ found => ⟨found, rfl⟩
  | succ remaining inductionHypothesis =>
      intro index found
      obtain ⟨all, same⟩ := inductionHypothesis (index + 1) (found.push (item index))
      exact ⟨all, (pure_bind _ _).trans same⟩

theorem exists_collectOption_pure (item : Nat → Option α) (count : Nat) :
    ∃ all : Option (Array α),
      (collect (fun index => OptionT.mk (pure (item index) : Action H (Option α))) count).run =
        pure all := by
  suffices general : ∀ (remaining index : Nat) (found : Array α),
      ∃ all : Option (Array α),
        (collectFrom (fun index => OptionT.mk (pure (item index) : Action H (Option α))) remaining
          index found).run = pure all from general count 0 #[]
  intro remaining
  induction remaining with
  | zero => exact fun _ found => ⟨some found, rfl⟩
  | succ remaining inductionHypothesis =>
      intro index found
      cases here : item index with
      | none =>
          refine ⟨none, ?_⟩
          rw [collectFrom, OptionT.run_bind, OptionT.run_mk, here, Option.elimM, pure_bind]
          rfl
      | some value =>
          obtain ⟨all, same⟩ := inductionHypothesis (index + 1) (found.push value)
          refine ⟨all, ?_⟩
          rw [collectFrom, OptionT.run_bind, OptionT.run_mk, here, Option.elimM, pure_bind]
          exact same

theorem Element.IsSettled.force {element : Element} (settled : element.IsSettled) :
    ∃ outcome, (element.force : Action H Value) = Action.ofOutcome outcome := by
  cases settled with
  | @value content _ => exact ⟨.ok content, rfl⟩
  | failure failure => exact ⟨.error failure, rfl⟩

theorem Element.IsSettled.character? {element : Element} (settled : element.IsSettled) :
    ∃ letter, (element.character? : OptionT (Action H) Char) = OptionT.mk (pure letter) := by
  obtain ⟨outcome, forced⟩ := settled.force (H := H)
  rw [Element.character?, forced]
  match outcome with
  | .ok (.character letter) => exact ⟨some letter, rfl⟩
  | .ok (.number _) | .ok (.array _) | .ok (.function _) | .error _ => exact ⟨none, rfl⟩

theorem ShapedArray.string?_of_settled (view : View) (shape : Shape) (fill : Option Value)
    {element : Nat → Element} (settled : ∀ index, (element index).IsSettled) :
    ∃ string, ((ShapedArray.mk view shape fill element).string? : Action H (Option String)) =
      pure string := by
  rw [ShapedArray.string?]
  split
  · choose letter characters using fun index => (settled index).character? (H := H)
    obtain ⟨all, same⟩ := exists_collectOption_pure (H := H) letter shape.size
    refine ⟨all.map fun found => String.ofList found.toList, ?_⟩
    show (collect (fun index => (element index).character?) shape.size).run >>= _ = _
    rw [funext characters, same, pure_bind]
  · exact ⟨none, rfl⟩

mutual

theorem Value.IsSettled.textThrough {value : Value} :
    value.IsSettled → ∃ text, ∀ later : Value → Action H String,
      value.textThrough later = pure text
  | .number _ => ⟨_, fun _ => rfl⟩
  | .character _ => ⟨_, fun _ => rfl⟩
  | .array settled => ShapedArray.IsSettled.textThrough settled
  | .function _ => ⟨_, fun _ => rfl⟩

theorem ShapedArray.IsSettled.textThrough {array : ShapedArray} :
    array.IsSettled → ∃ text, ∀ later : Value → Action H String,
      array.textThrough later = pure text
  | .mk view shape fill settled => by
      choose written texts using fun index => Element.IsSettled.textThrough (settled index)
      obtain ⟨string, strings⟩ :=
        ShapedArray.string?_of_settled (H := H) view shape fill settled
      obtain ⟨all, collected⟩ := exists_collect_pure (H := H) written shape.size
      refine ⟨if shape.size = 0 then "⟨⟩" else if shape = [] then "<" ++ written 0 else
        string.elim (axesText shape ++ "⟨" ++ ", ".intercalate all.toList ++ "⟩")
          fun string => "\"" ++ string ++ "\"", fun later => ?_⟩
      rw [ShapedArray.textThrough]
      split
      · rfl
      split
      · rw [texts, pure_bind]
      · rw [strings, pure_bind, funext fun index => texts index later, collected]
        cases string with
        | some string => rfl
        | none => rfl

theorem Element.IsSettled.textThrough {element : Element} :
    element.IsSettled → ∃ text, ∀ later : Value → Action H String,
      element.textThrough later = pure text
  | .value settled => Value.IsSettled.textThrough settled
  | .failure _ => ⟨_, fun _ => rfl⟩

end

theorem Value.IsSettled.text {value : Value} (settled : value.IsSettled) :
    ∃ text, (value.text : Action H String) = pure text := by
  obtain ⟨text, texts⟩ := settled.textThrough (H := H)
  refine ⟨text, ?_⟩
  rw [Value.text, Action.rounds_eq_step _ _ _ (by decide)]
  exact texts _

end Texts

namespace Correspondence

variable {H K : Type} {c : Correspondence H K} {W : c.World}

mutual

theorem Values.isSettled (settled : ¬c.pending) {value value' : Value} :
    c.Values W value value' → value.IsSettled ∧ value'.IsSettled
  | .number number => ⟨.number number, .number number⟩
  | .character letter => ⟨.character letter, .character letter⟩
  | .array arrays => ⟨.array (arrays.isSettled settled).1, .array (arrays.isSettled settled).2⟩
  | .function _ => ⟨.function _, .function _⟩

theorem Arrays.isSettled (settled : ¬c.pending) {array array' : ShapedArray} :
    c.Arrays W array array' → array.IsSettled ∧ array'.IsSettled
  | .bare view shape elements =>
      ⟨.mk view shape none fun index => ((elements index).isSettled settled).1,
        .mk view shape none fun index => ((elements index).isSettled settled).2⟩
  | .padded view shape _ elements =>
      ⟨.mk view shape _ fun index => ((elements index).isSettled settled).1,
        .mk view shape _ fun index => ((elements index).isSettled settled).2⟩

theorem Elements.isSettled (settled : ¬c.pending) {element element' : Element} :
    c.Elements W element element' → element.IsSettled ∧ element'.IsSettled
  | .value values => ⟨.value (values.isSettled settled).1, .value (values.isSettled settled).2⟩
  | .failure _ => ⟨.failure _, .failure _⟩
  | .combined pending _ _ _ => absurd pending settled
  | .selected _ pending _ _ => absurd pending settled

end

end Correspondence

end PointFree
