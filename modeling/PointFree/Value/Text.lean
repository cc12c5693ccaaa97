import PointFree.Function.Name
import PointFree.ShapedArray.Reading
import PointFree.Text.Escape

/-!
Contract: the written form of values.

Data is written so that it can be read again: `¯2.5`, `'x'`, `"text"`,
`⟨1, 2⟩`, `2‿2⥊⟨1, 2, 3, 4⟩`, `<5`. A function is written as its name. An
element that cannot be computed is written as the kind of its failure. A list is
read as a text first, and once more element by element where it is none.
-/

namespace PointFree

variable {H : Type}

/-- The character that an element is read as. -/
def Element.character? (element : Element) : OptionT (Action H) Char :=
  OptionT.mk do
    match ← Action.attempt element.force with
    | .ok (.character letter) => return some letter
    | _ => return none

/-- The text of a list that holds characters only. The elements are read up to
the first that is none. -/
def ShapedArray.string? (array : ShapedArray) : Action H (Option String) :=
  if array.rank = 1 then do
    let letters ← (collect (fun index => (array.element index).character?) array.count).run
    return letters.map fun found => String.ofList found.toList
  else return none

def Value.string? : Value → Action H (Option String)
  | .array items => items.string?
  | _ => return none

/-- The axes, where there are several. -/
def axesText (shape : Shape) : String :=
  if 1 < shape.length then "‿".intercalate (shape.map toString) ++ "⥊" else ""

def Failure.elementText (failure : Failure) : String :=
  "<" ++ failure.kind.label ++ ">"

mutual

/-- The text of a value. What a pending element turns out to be is left to
`later`. -/
def Value.textThrough (later : Value → Action H String) : Value → Action H String
  | .number number => return Decimal.Style.display.text number
  | .character letter => return "'" ++ String.singleton letter ++ "'"
  | .array items => items.textThrough later
  | .function operation => return operation.name
termination_by structural value => value

def ShapedArray.textThrough (later : Value → Action H String) : ShapedArray → Action H String
  | .mk view shape fill element =>
      if shape.size = 0 then return "⟨⟩"
      else if shape = [] then do
        let text ← (element 0).textThrough later
        return "<" ++ text
      else do
        match ← (ShapedArray.mk view shape fill element).string? with
        | some string => return "\"" ++ string ++ "\""
        | none =>
            let texts ← collect (fun index => (element index).textThrough later) shape.size
            return axesText shape ++ "⟨" ++ ", ".intercalate texts.toList ++ "⟩"
termination_by structural array => array

def Element.textThrough (later : Value → Action H String) : Element → Action H String
  | .value content => content.textThrough later
  | pending => do
      match ← Action.attempt pending.force with
      | .ok content => later content
      | .error reason => return reason.elementText
termination_by structural element => element

end

def Value.text (value : Value) : Action H String :=
  Action.rounds Value.textThrough callBudget value

/-- The form for diagnostics: the kind, then what it holds. -/
def Value.debugText : Value → Action H String
  | .number amount => return "Number(" ++ Decimal.Style.plain.text amount ++ ")"
  | .character letter => return "Character(" ++ Text.quoted letter ++ ")"
  | .array items => do
      let text ← (Value.array items).text
      return "Array(" ++ items.shape.text ++ " " ++ text ++ ")"
  | .function operation => return "Function(" ++ operation.name ++ ")"

/-- As in `Array<reshape>[2, 3]`. -/
def ShapedArray.debugText (array : ShapedArray) : String :=
  "Array<" ++ array.view.label ++ ">" ++ array.shape.text

end PointFree
