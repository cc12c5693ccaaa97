import PointFree.Surface.Token

/-!
Contract: brackets and statements.

A row of tokens becomes a tree of atoms by way of a stack with one level for
each bracket that is open. The first token that does not fit ends the reading
with a report of the character there.
-/

namespace PointFree

/-- The number of open brackets at which another one is refused. -/
def nestingLimit : Nat := 64

/-- Atoms in the course of reading, the latest first; those tied together form
one entry. -/
structure Row where
  strands : List (List Atom)
  tied : Bool

namespace Row

def empty : Row :=
  ⟨[], false⟩

def isFresh (row : Row) : Bool :=
  row.strands.isEmpty && !row.tied

def add (row : Row) (atom : Atom) : Row :=
  match row.tied, row.strands with
  | true, strand :: strands => ⟨(atom :: strand) :: strands, false⟩
  | _, strands => ⟨[atom] :: strands, false⟩

/-- Atoms tied together make a strand, and one alone is itself. -/
def strandAtom : List Atom → Atom
  | [atom] => atom
  | strand => .strand strand.reverse

def atoms (row : Row) : List Atom :=
  (row.strands.map strandAtom).reverse

end Row

/-- What an open bracket holds so far; the latest comes first. -/
inductive Level where
  | paren (row : Row)
  | list (elements : List (List Atom)) (row : Row)
  | block (statements : List RawStatement) (start : Nat) (row : Row)

namespace Level

def ofBracket : Bracket → Level
  | .paren => .paren .empty
  | .list => .list [] .empty
  | .block => .block [] 0 .empty

def currentRow : Level → Row
  | .paren row => row
  | .list _ row => row
  | .block _ _ row => row

def mapRow (change : Row → Row) : Level → Level
  | .paren row => .paren (change row)
  | .list elements row => .list elements (change row)
  | .block statements start row => .block statements start (change row)

/-- Notes where a statement starts. -/
def startAt (position : Nat) : Level → Level
  | .block statements start row =>
      .block statements (if row.isFresh then position else start) row
  | other => other

/-- Ends the current element or statement, if there is one. -/
def finishRow (trimmed : Nat) : Level → Level
  | .paren row => .paren row
  | .list elements row =>
      if row.isFresh then .list elements row else .list (row.atoms :: elements) .empty
  | .block statements start row =>
      if row.isFresh then .block statements start row
      else .block (.mk row.atoms ⟨start, trimmed⟩ :: statements) start .empty

/-- The atom that a closing bracket completes. -/
def close? (bracket : Bracket) (trimmed : Nat) (level : Level) : Option Atom :=
  match bracket, level.finishRow trimmed with
  | .paren, .paren row => if row.isFresh then none else some (.paren row.atoms)
  | .list, .list elements _ => some (.list elements.reverse)
  | .block, .block statements _ _ => some (.block statements.reverse)
  | _, _ => none

end Level

def unexpectedAt {α : Type} (position : Nat) (letter : Char) : Outcome α :=
  refuseAt ⟨position, position + 1⟩ (.unexpected letter)

def unexpectedEndAt {α : Type} (position : Nat) : Outcome α :=
  refuseAt ⟨position, position + 1⟩ .unexpectedEnd

/-- The levels after one token, the innermost first. -/
def Level.accept (placed : Placed) (level : Level) (outer : List Level) :
    Outcome (Level × List Level) :=
  let row := level.currentRow
  let unexpected := unexpectedAt placed.start placed.letter
  match placed.token with
  | .atom atom => .ok ((level.startAt placed.start).mapRow (·.add atom), outer)
  | .opening bracket =>
      if nestingLimit ≤ outer.length + 1 then
        refuseAt ⟨placed.start, placed.start + 1⟩ (.nestedTooDeeply nestingLimit)
      else .ok (.ofBracket bracket, level.startAt placed.start :: outer)
  | .closing bracket =>
      if row.tied then unexpected
      else
        match level.close? bracket placed.trimmed, outer with
        | some atom, next :: rest => .ok (next.mapRow (·.add atom), rest)
        | _, _ => unexpected
  | .tie =>
      if row.strands.isEmpty || row.tied then unexpected
      else .ok (level.mapRow fun found => ⟨found.strands, true⟩, outer)
  | .separator =>
      match level with
      | .paren _ => unexpected
      | _ => if row.tied then unexpected else .ok (level.finishRow placed.trimmed, outer)
  | .blank =>
      match level with
      | .paren _ => unexpected
      | _ => if row.isFresh then .ok (level, outer) else unexpected

/-- The statements of a text that ends with every bracket closed. -/
def Level.finish (position trimmed : Nat) (level : Level) (outer : List Level) :
    Outcome (List RawStatement) :=
  if level.currentRow.tied then unexpectedEndAt position
  else
    match level.finishRow trimmed, outer with
    | .block statements _ _, [] => .ok statements.reverse
    | _, _ => unexpectedEndAt position

def Level.acceptAll : Tokens → Level → List Level → Outcome (List RawStatement)
  | .done position trimmed, level, outer => level.finish position trimmed outer
  | .broken position (some letter), _, _ => unexpectedAt position letter
  | .broken position none, _, _ => unexpectedEndAt position
  | .next placed rest, level, outer => do
      let levels ← level.accept placed outer
      Level.acceptAll rest levels.1 levels.2

/-- The statements of a source text, before roles are assigned. -/
def rawStatements (source : String) : Outcome (List RawStatement) :=
  Level.acceptAll (Tokens.ofLetters 0 0 0 source.toList) (.ofBracket .block) []

end PointFree
