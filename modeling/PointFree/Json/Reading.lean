import PointFree.Json.Token

/-!
Contract: reading JSON text.

The tokens drive a stack with one holder for each list or object that is open.
What may come next is the stage. Of fields with one key the last stands.
-/

namespace PointFree.Json

/-- The number of open lists and objects at which another one is refused. -/
def nestingLimit : Nat := 127

/-- What an open bracket holds so far; in a list the latest item comes first. -/
inductive Holder where
  | list (items : List Json)
  | object (fields : List (String × Json)) (key : String)

/-- What may come next. A bracket may close at once where it has just opened. -/
inductive Stage where
  | value (closable : Bool)
  | key (closable : Bool)
  | colon
  | after
  | finished (document : Json)

structure State where
  holders : List Holder
  stage : Stage

namespace State

def start : State :=
  ⟨[], .value false⟩

/-- Hands a value to the holder around it. -/
def deliver (value : Json) : List Holder → State
  | [] => ⟨[], .finished value⟩
  | .list items :: holders => ⟨.list (value :: items) :: holders, .after⟩
  | .object fields key :: holders =>
      ⟨.object (setField key value fields) key :: holders, .after⟩

def openHolder (holder : Holder) (stage : Stage) (holders : List Holder) : Option State :=
  if nestingLimit ≤ holders.length then none else some ⟨holder :: holders, stage⟩

def closeList : List Holder → Option State
  | .list items :: holders => some (deliver (.list items.reverse) holders)
  | _ => none

def closeObject : List Holder → Option State
  | .object fields _ :: holders => some (deliver (.object fields) holders)
  | _ => none

def continued : List Holder → Option State
  | .list items :: holders => some ⟨.list items :: holders, .value false⟩
  | .object fields key :: holders => some ⟨.object fields key :: holders, .key false⟩
  | [] => none

def named (key : String) : List Holder → Option State
  | .object fields _ :: holders => some ⟨.object fields key :: holders, .colon⟩
  | _ => none

/-- The state after a token, unless the token is out of place. -/
def step (state : State) (token : Token) : Option State :=
  match state.stage, token with
  | .value _, .value value => some (deliver value state.holders)
  | .value _, .string text => some (deliver (.string text) state.holders)
  | .value _, .openList => openHolder (.list []) (.value true) state.holders
  | .value _, .openObject => openHolder (.object [] "") (.key true) state.holders
  | .value true, .closeList => closeList state.holders
  | .key _, .string key => named key state.holders
  | .key true, .closeObject => closeObject state.holders
  | .colon, .colon => some ⟨state.holders, .value false⟩
  | .after, .comma => continued state.holders
  | .after, .closeList => closeList state.holders
  | .after, .closeObject => closeObject state.holders
  | _, _ => none

def result? (state : State) : Option Json :=
  match state.stage with
  | .finished document => some document
  | _ => none

end State

/-- Reads a text that is one document from beginning to end. -/
def read? (text : String) : Option Json := do
  let tokens ← tokens text
  let state ← tokens.foldlM State.step State.start
  state.result?

end PointFree.Json
