import PointFree.Proofs.Restoring.Numerals
import PointFree.Proofs.Settling
import PointFree.Value.Equality
import PointFree.Value.Text

/-!
Contract: data as a tree, and its written form.

A value shows a tree of data where each of its elements, once it is read, shows the part of the tree
at its place. Its written form is that of the tree. Values that show the same tree, but for numbers
that are written in the same way, are equal.
-/

namespace PointFree

/-- Numbers, characters, and arrays of data in row-major order. -/
inductive Datum where
  | number (amount : Float)
  | character (letter : Char)
  | array (shape : Shape) (items : List Datum)

namespace Datum

def letter? : Datum → Option Char
  | .character letter => some letter
  | _ => none

/-- The text that a list of characters is, if there is one at least. -/
def text? (items : List Datum) : Option (List Char) :=
  if items.isEmpty then none else items.mapM letter?

/-! ### Written forms -/

def quoted (text : List Char) : List Char :=
  '"' :: (text ++ ['"'])

/-- The lengths of axes, and the function that takes them. -/
def axesLetters (shape : Shape) : List Char :=
  ['‿'].intercalate (shape.map (Nat.toDigits 10)) ++ ['⥊']

def listLetters (parts : List (List Char)) : List Char :=
  '⟨' :: ([',', ' '].intercalate parts ++ ['⟩'])

/-- The written form of an array, given those of its items. -/
def arrayLetters (shape : Shape) (items : List Datum) (parts : List (List Char)) : List Char :=
  match shape with
  | [] => '<' :: parts.flatten
  | [_] =>
      match text? items with
      | some text => quoted text
      | none => listLetters parts
  | axes => axesLetters axes ++ listLetters parts

mutual

def letters : Datum → List Char
  | .number amount => (Decimal.Style.display.text amount).toList
  | .character letter => ['\'', letter, '\'']
  | .array shape items => arrayLetters shape items (lettersOfAll items)
termination_by structural datum => datum

def lettersOfAll : List Datum → List (List Char)
  | [] => []
  | item :: items => item.letters :: lettersOfAll items
termination_by structural items => items

end

theorem lettersOfAll_eq (items : List Datum) : lettersOfAll items = items.map letters := by
  induction items with
  | nil => rfl
  | cons item items inductionHypothesis =>
      exact congrArg (item.letters :: ·) inductionHypothesis

theorem mapM_letter?_map_character (text : List Char) :
    (text.map Datum.character).mapM letter? = some text := by
  induction text with
  | nil => rfl
  | cons letter text inductionHypothesis =>
      rw [List.map_cons, List.mapM_cons, inductionHypothesis]
      rfl

theorem text?_map_character {text : List Char} (some : text ≠ []) :
    text? (text.map .character) = .some text := by
  rw [text?, if_neg (by simpa using some), mapM_letter?_map_character]

section

variable {shape : Shape} {items : List Datum}

theorem letters_array (shape : Shape) (items : List Datum) :
    (array shape items).letters = arrayLetters shape items (items.map letters) :=
  congrArg (arrayLetters shape items) (lettersOfAll_eq items)

theorem letters_boxed (content : Datum) :
    (array [] [content]).letters = '<' :: content.letters := by
  rw [letters_array]
  exact congrArg ('<' :: ·) List.flatten_singleton

theorem letters_text {text : List Char} (some : text ≠ []) (axis : Nat) :
    (array [axis] (text.map .character)).letters = quoted text := by
  rw [letters_array, arrayLetters, text?_map_character some]

theorem letters_list (none : text? items = none) (axis : Nat) :
    (array [axis] items).letters = listLetters (items.map letters) := by
  rw [letters_array, arrayLetters, none]

theorem letters_table (several : 1 < shape.length) :
    (array shape items).letters = axesLetters shape ++ listLetters (items.map letters) := by
  rw [letters_array]
  match shape, several with
  | _ :: _ :: _, _ => rfl

example : (array [2, 1] [.number (-1.5), .array [] [.array [1] [.character 'a']]]).letters =
    "2‿1⥊⟨¯1.5, <\"a\"⟩".toList := by
  decide +kernel

end

/-- The written form can be read again within so many brackets. A quote in a text is written as it
is, and would end the text. -/
inductive IsLegible : (brackets : Nat) → Datum → Prop where
  | number {brackets : Nat} {amount : Float} :
      amount.isNaN = false → (amount == Decimal.restored amount) = true →
      IsLegible brackets (.number amount)
  | character {brackets : Nat} (letter : Char) : IsLegible brackets (.character letter)
  | boxed {brackets : Nat} {content : Datum} :
      IsLegible brackets content → IsLegible brackets (.array [] [content])
  | text {brackets : Nat} {text : List Char} :
      text ≠ [] → '"' ∉ text → IsLegible brackets (.array [text.length] (text.map .character))
  | list {brackets : Nat} {items : List Datum} :
      text? items = none → (∀ item ∈ items, IsLegible brackets item) →
      IsLegible (brackets + 1) (.array [items.length] items)
  | table {brackets : Nat} {shape : Shape} {items : List Datum} :
      1 < shape.length → shape.size = items.length → items ≠ [] → items.length ≤ sizeLimit →
      (∀ item ∈ items, IsLegible brackets item) → IsLegible (brackets + 1) (.array shape items)

example : IsLegible 1 (.array [2, 1] [.number (-1.5), .array [] [.array [1] [.character 'a']]]) := by
  have number : IsLegible 0 (.number (-1.5)) := .number (by decide +kernel) (by decide +kernel)
  have boxed : IsLegible 0 (.array [] [.array [1] [.character 'a']]) :=
    .boxed (.text (List.cons_ne_nil 'a' []) (by decide))
  exact .table (by decide) rfl (by decide) (by decide) (by simp [number, boxed])

theorem IsLegible.items {brackets : Nat} {shape : Shape} {items : List Datum}
    (legible : IsLegible brackets (.array shape items)) :
    ∃ brackets, ∀ item ∈ items, IsLegible brackets item := by
  cases legible with
  | boxed legible => exact ⟨brackets, by simpa using legible⟩
  | text => exact ⟨0, by simpa using fun letter _ => IsLegible.character letter⟩
  | list _ legible => exact ⟨_, legible⟩
  | table _ _ _ _ legible => exact ⟨_, legible⟩

mutual

/-- How many arrays are inside one another. -/
def depth : Datum → Nat
  | .array _ items => depthOfAll items + 1
  | _ => 0
termination_by structural datum => datum

def depthOfAll : List Datum → Nat
  | [] => 0
  | item :: items => max item.depth (depthOfAll items)
termination_by structural items => items

end

theorem depth_lt {shape : Shape} {items : List Datum} {item : Datum} (member : item ∈ items) :
    item.depth < (array shape items).depth := by
  rw [depth.eq_1]
  induction items with
  | nil => cases member
  | cons first items inductionHypothesis =>
      rw [depthOfAll]
      rcases List.mem_cons.1 member with rfl | later
      · omega
      · have := inductionHypothesis later
        omega

mutual

/-- What is read of the written form. -/
def restored : Datum → Datum
  | .number amount => .number (Decimal.restored amount)
  | .character letter => .character letter
  | .array shape items => .array shape (restoredOfAll items)
termination_by structural datum => datum

def restoredOfAll : List Datum → List Datum
  | [] => []
  | item :: items => item.restored :: restoredOfAll items
termination_by structural items => items

end

theorem restoredOfAll_eq (items : List Datum) : restoredOfAll items = items.map restored := by
  induction items with
  | nil => rfl
  | cons item items inductionHypothesis =>
      rw [restoredOfAll, inductionHypothesis, List.map_cons]

end Datum

/-- The value is the tree of data. What it means for an element to be read as a value is given. -/
inductive Value.Shows (reads : Element → Value → Prop) : Value → Datum → Prop where
  | number (amount : Float) : Shows reads (.number amount) (.number amount)
  | character (letter : Char) : Shows reads (.character letter) (.character letter)
  | array {array : ShapedArray} {items : List Datum} {content : Nat → Value} :
      array.count = items.length →
      (∀ index < items.length, reads (array.element index) (content index)) →
      (∀ (index : Nat) (inside : index < items.length), Shows reads (content index) items[index]) →
      Shows reads (.array array) (.array array.shape items)

section Texts

variable {H : Type} {calling : Call H}

/-- The element comes to the value from every memory, and reading it does nothing else. -/
def Element.Reads (calling : Call H) (element : Element) (content : Value) : Prop :=
  (element.force : Action H Value).Yields calling (.ok content)

theorem Action.yields_pure {α : Type} (result : α) :
    (pure result : Action H α).Yields calling (.ok result) :=
  fun _ => rfl

theorem Action.Yields.attempt {α : Type} {action : Action H α} {outcome : Outcome α}
    (yields : action.Yields calling outcome) : action.attempt.Yields calling (.ok outcome) := by
  intro memory
  simp only [Action.attempt, yields memory]

/-- An element is written as what it is read as, in whichever round that is. -/
theorem Element.Reads.textThrough {element : Element} {content : Value}
    {later : Value → Action H String} {text : String} (reads : element.Reads calling content)
    (here : (content.textThrough later).Yields calling (.ok text))
    (afterwards : (later content).Yields calling (.ok text)) :
    (element.textThrough later).Yields calling (.ok text) := by
  intro memory
  cases element with
  | value found =>
      cases reads memory
      exact here memory
  | failure | combined | selected =>
      exact (Action.bind_of_ok (Action.Yields.attempt reads memory)).trans (afterwards memory)

/-- Items that come to these results are collected as a list of them. -/
theorem Action.Yields.collectFrom_ok {α : Type} {item : Nat → Action H α} {results : List α}
    {index : Nat} (yields : ∀ (place : Nat) (inside : place < results.length),
      (item (index + place)).Yields calling (.ok results[place])) (found : Array α) :
    (PointFree.collectFrom item results.length index found).Yields calling
      (.ok (found ++ results.toArray)) := by
  induction results generalizing index found with
  | nil =>
      have same : found ++ ([] : List α).toArray = found := Array.append_empty
      rw [same]
      exact yields_pure found
  | cons first results inductionHypothesis =>
      have here : (item index).Yields calling (.ok first) := yields 0 (Nat.succ_pos _)
      have rest : ∀ (place : Nat) (inside : place < results.length),
          (item (index + 1 + place)).Yields calling (.ok results[place]) := by
        intro place inside
        rw [Nat.add_right_comm]
        exact yields (place + 1) (Nat.succ_lt_succ inside)
      intro memory
      refine (Action.bind_of_ok (here memory)).trans
        ((inductionHypothesis rest (found.push first) memory).trans ?_)
      simp

theorem Action.Yields.collect_ok {α : Type} {item : Nat → Action H α} {results : List α}
    (yields : ∀ (index : Nat) (inside : index < results.length),
      (item index).Yields calling (.ok results[index])) :
    (PointFree.collect item results.length).Yields calling (.ok results.toArray) := by
  have collected := @collectFrom_ok H calling α item results 0 (by simpa using yields) #[]
  rwa [Array.empty_append] at collected

/-- Items that may not be there are collected as long as they are. -/
theorem Action.Yields.collectFrom_option {α β : Type} {item : Nat → OptionT (Action H) α}
    {taken : β → Option α} {items : List β} {index : Nat}
    (yields : ∀ (place : Nat) (inside : place < items.length),
      (item (index + place)).run.Yields calling (.ok (taken items[place]))) (found : Array α) :
    (PointFree.collectFrom item items.length index found).run.Yields calling
      (.ok ((items.mapM taken).map fun more => found ++ more.toArray)) := by
  induction items generalizing index found with
  | nil =>
      intro memory
      simp [PointFree.collectFrom]
      rfl
  | cons first items inductionHypothesis =>
      have here : (item index).run.Yields calling (.ok (taken first)) := yields 0 (Nat.succ_pos _)
      have rest : ∀ (place : Nat) (inside : place < items.length),
          (item (index + 1 + place)).run.Yields calling (.ok (taken items[place])) := by
        intro place inside
        rw [Nat.add_right_comm]
        exact yields (place + 1) (Nat.succ_lt_succ inside)
      have later := fun value => inductionHypothesis rest (found.push value)
      intro memory
      cases there : taken first with
      | none =>
          rw [there] at here
          rw [List.mapM_cons, there]
          exact Action.bind_of_ok (here memory)
      | some value =>
          rw [there] at here
          refine (Action.bind_of_ok (here memory)).trans ((later value memory).trans ?_)
          rw [List.mapM_cons, there]
          cases items.mapM taken with
          | none => rfl
          | some more => simp

theorem Value.Shows.character? {reads : Element → Value → Prop} {element : Element}
    {content : Value} {datum : Datum} (shows : content.Shows reads datum)
    (isRead : element.Reads calling content) :
    (element.character? : OptionT (Action H) Char).run.Yields calling (.ok datum.letter?) := by
  intro memory
  refine (Action.bind_of_ok (Action.Yields.attempt isRead memory)).trans ?_
  cases shows with
  | number => rfl
  | character => rfl
  | array => rfl

variable {view : View} {shape : Shape} {fill : Option Value} {element : Nat → Element}
variable {items : List Datum}

/-- A list is asked for its characters, which it has where all of its items are some. -/
theorem ShapedArray.yields_string? {axis : Nat} (count : axis = items.length)
    (characters : ∀ (index : Nat) (inside : index < items.length),
      ((element index).character? : OptionT (Action H) Char).run.Yields calling
        (.ok items[index].letter?)) :
    ((ShapedArray.mk view [axis] fill element).string? : Action H (Option String)).Yields calling
      (.ok ((items.mapM Datum.letter?).map String.ofList)) := by
  have size : (ShapedArray.mk view [axis] fill element).count = items.length := by
    rw [ShapedArray.count, ShapedArray.shape, Shape.size_cons, Shape.size_nil, Nat.mul_one, count]
  have collected := @Action.Yields.collectFrom_option H calling Char Datum
    (fun index => (element index).character?) Datum.letter? items 0 (by simpa using characters) #[]
  rw [ShapedArray.string?, size,
    if_pos (show (ShapedArray.mk view [axis] fill element).rank = 1 from rfl)]
  intro memory
  refine (Action.bind_of_ok (collected memory)).trans ?_
  cases items.mapM Datum.letter? with
  | none => rfl
  | some letters => simp; rfl

/-- The text of a value that shows its characters in a list. -/
theorem Value.Shows.yields_string? {value : Value} {text : String}
    (shows : value.Shows (Element.Reads calling)
      (.array [text.toList.length] (text.toList.map .character))) :
    (value.string? : Action H (Option String)).Yields calling (.ok (some text)) := by
  generalize isShape : [text.toList.length] = shape at shows
  cases shows with
  | @array array _ content count reads shows =>
      obtain ⟨view, shape, fill, element⟩ := array
      obtain rfl : [text.toList.length] = shape := isShape
      have string : ((ShapedArray.mk view [text.toList.length] fill element).string? :
          Action H (Option String)).Yields calling _ :=
        ShapedArray.yields_string? (List.length_map Datum.character).symm
          fun index inside => (shows index inside).character? (reads index inside)
      rwa [Datum.mapM_letter?_map_character, Option.map_some, String.ofList_toList] at string

theorem axesText_eq {shape : Shape} (several : 1 < shape.length) :
    axesText shape = String.ofList (Datum.axesLetters shape) := by
  rw [← String.toList_inj, axesText, if_pos several, Datum.axesLetters]
  simp [Function.comp_def]

theorem listText_eq (parts : List (List Char)) :
    "⟨" ++ ", ".intercalate (parts.map String.ofList) ++ "⟩" =
      String.ofList (Datum.listLetters parts) := by
  rw [← String.toList_inj, Datum.listLetters]
  simp [Function.comp_def]

/-- What is written of an array in which no text was found. -/
theorem yields_listed {string? : Action H (Option String)} {texts : Action H (Array String)}
    {parts : List (List Char)} (shape : Shape) (none : string?.Yields calling (.ok .none))
    (written : texts.Yields calling (.ok (parts.map String.ofList).toArray)) :
    ((do
      match ← string? with
      | some string => return "\"" ++ string ++ "\""
      | .none =>
          let texts ← texts
          return axesText shape ++ "⟨" ++ ", ".intercalate texts.toList ++ "⟩") :
        Action H String).Yields calling
      (.ok (axesText shape ++ String.ofList (Datum.listLetters parts))) := by
  intro memory
  rw [← listText_eq]
  refine (Action.bind_of_ok (none memory)).trans ((Action.bind_of_ok (written memory)).trans ?_)
  simp only [String.append_assoc]
  rfl

/-- An array is written with the written forms of its items. -/
theorem ShapedArray.textThrough_of_items {later : Value → Action H String} {brackets : Nat}
    (legible : Datum.IsLegible brackets (.array shape items)) (count : shape.size = items.length)
    (characters : ∀ (index : Nat) (inside : index < items.length),
      ((element index).character? : OptionT (Action H) Char).run.Yields calling
        (.ok items[index].letter?))
    (texts : ∀ (index : Nat) (inside : index < items.length),
      ((element index).textThrough later).Yields calling (.ok (String.ofList items[index].letters))) :
    ((ShapedArray.mk view shape fill element).textThrough later).Yields calling
      (.ok (String.ofList (Datum.array shape items).letters)) := by
  have size : shape.size = ((items.map Datum.letters).map String.ofList).length := by simp [count]
  have parts : (collect (fun index => (element index).textThrough later) shape.size).Yields calling
      (.ok ((items.map Datum.letters).map String.ofList).toArray) := by
    rw [size]
    refine Action.Yields.collect_ok fun index inside => ?_
    rw [List.length_map, List.length_map] at inside
    simpa using texts index inside
  rw [ShapedArray.textThrough]
  cases legible with
  | @boxed _ content _ =>
      rw [if_neg (by decide), if_pos rfl, Datum.letters_boxed]
      intro memory
      refine (Action.bind_of_ok (texts 0 Nat.one_pos memory)).trans ?_
      have written : "<" ++ String.ofList content.letters = String.ofList ('<' :: content.letters) := by
        rw [← String.toList_inj]
        simp
      rw [← written]
      rfl
  | @text _ text some _ =>
      have size : Shape.size [text.length] ≠ 0 := by simpa [count] using some
      have string : ((ShapedArray.mk view [text.length] fill element).string? :
          Action H (Option String)).Yields calling _ :=
        yields_string? (List.length_map Datum.character).symm characters
      have found := Datum.text?_map_character some
      rw [Datum.text?, if_neg (by simpa using some)] at found
      have written : "\"" ++ String.ofList text ++ "\"" = String.ofList (Datum.quoted text) := by
        rw [← String.toList_inj, Datum.quoted]
        simp
      rw [if_neg size, if_neg (List.cons_ne_nil _ _), Datum.letters_text some, ← written]
      rw [found] at string
      exact fun memory => Action.bind_of_ok (string memory)
  | list none legible =>
      rw [Datum.letters_list none]
      have written : axesText [items.length] = "" := if_neg (Nat.lt_irrefl 1)
      by_cases empty : items = []
      · subst empty
        exact Action.yields_pure _
      · have string : ((ShapedArray.mk view [items.length] fill element).string? :
            Action H (Option String)).Yields calling _ :=
          yields_string? rfl characters
        rw [Datum.text?, if_neg (by simpa using empty)] at none
        rw [none] at string
        rw [if_neg (by simpa [count] using empty), if_neg (List.cons_ne_nil _ _)]
        have listed := yields_listed [items.length] string parts
        rwa [written, String.empty_append] at listed
  | table several _ filled =>
      have axes : shape ≠ [] := by
        rintro rfl
        cases several
      have none : ((ShapedArray.mk view shape fill element).string? : Action H (Option String)) =
          pure .none := if_neg (by rw [ShapedArray.rank, ShapedArray.shape]; omega)
      rw [if_neg (by simpa [count] using filled), if_neg axes, none, Datum.letters_table several,
        String.ofList_append, ← axesText_eq several]
      exact yields_listed shape (Action.yields_pure _) parts

/-- A value is written as the data that it shows. -/
theorem Value.Shows.textThrough {brackets : Nat} {value : Value} {datum : Datum}
    (shows : value.Shows (Element.Reads calling) datum)
    (legible : datum.IsLegible brackets) {limit : Nat} (deep : datum.depth ≤ limit) :
    (value.textThrough (Action.rounds Value.textThrough limit)).Yields calling
      (.ok (String.ofList datum.letters)) := by
  induction shows generalizing brackets limit with
  | number amount =>
      rw [Datum.letters, String.ofList_toList]
      exact Action.yields_pure _
  | character letter =>
      have written : "'" ++ String.singleton letter ++ "'" =
          String.ofList (Datum.character letter).letters := by
        rw [← String.toList_inj, Datum.letters]
        simp
      rw [← written]
      exact Action.yields_pure _
  | @array array items content count reads shows inductionHypothesis =>
      obtain ⟨view, shape, fill, element⟩ := array
      obtain ⟨brackets, legibles⟩ := legible.items
      refine ShapedArray.textThrough_of_items legible count
        (fun index inside => (shows index inside).character? (reads index inside))
        fun index inside => ?_
      have legible := legibles _ (List.getElem_mem inside)
      have shallow := (Datum.depth_lt (List.getElem_mem inside)).trans_le deep
      refine (reads index inside).textThrough ?_ ?_
      · exact inductionHypothesis index inside legible shallow.le
      · rw [Action.rounds_eq_step _ _ _ (Nat.zero_lt_of_lt shallow)]
        exact inductionHypothesis index inside legible (Nat.le_sub_one_of_lt shallow)

/-- The written form of a value does not go deeper than the budget of calls. -/
theorem Value.Shows.text {brackets : Nat} {value : Value} {datum : Datum}
    (shows : value.Shows (Element.Reads calling) datum) (legible : datum.IsLegible brackets)
    (deep : datum.depth < callBudget) :
    (value.text : Action H String).Yields calling (.ok (String.ofList datum.letters)) := by
  rw [Value.text, Action.rounds_eq_step _ _ _ (Nat.zero_lt_of_lt deep)]
  exact shows.textThrough legible (Nat.le_sub_one_of_lt deep)

end Texts

end PointFree
