import Mathlib.Data.List.Basic
import PointFree.Proofs.Spans.Shifting

/-!
Contract: the bodies of function literals in what has been read.

`bodies` lists the statements of each literal in an atom, at any depth. The brackets that are
open hold bodies as well, and no token brings in any but the one that it completes.
-/

namespace PointFree

variable {offset : Nat}

/-! ### Bodies of atoms -/

mutual

/-- The bodies of all literals in the atom, at any depth. -/
def Atom.bodies : Atom → List (List RawStatement)
  | .paren atoms => Atom.bodiesOfAll atoms
  | .list elements => Atom.bodiesOfElements elements
  | .strand atoms => Atom.bodiesOfAll atoms
  | .block statements => statements :: RawStatement.bodiesOfAll statements
  | _ => []
termination_by structural atom => atom

def Atom.bodiesOfAll : List Atom → List (List RawStatement)
  | [] => []
  | atom :: atoms => atom.bodies ++ Atom.bodiesOfAll atoms
termination_by structural atoms => atoms

def Atom.bodiesOfElements : List (List Atom) → List (List RawStatement)
  | [] => []
  | element :: elements => Atom.bodiesOfAll element ++ Atom.bodiesOfElements elements
termination_by structural elements => elements

def RawStatement.bodies : RawStatement → List (List RawStatement)
  | .mk atoms _ => Atom.bodiesOfAll atoms
termination_by structural statement => statement

def RawStatement.bodiesOfAll : List RawStatement → List (List RawStatement)
  | [] => []
  | statement :: statements => statement.bodies ++ RawStatement.bodiesOfAll statements
termination_by structural statements => statements

end

@[simp] theorem Atom.bodiesOfAll_eq_flatMap (atoms : List Atom) :
    Atom.bodiesOfAll atoms = atoms.flatMap Atom.bodies := by
  induction atoms with
  | nil => rfl
  | cons atom atoms inductionHypothesis =>
      rw [Atom.bodiesOfAll, inductionHypothesis, List.flatMap_cons]

@[simp] theorem Atom.bodiesOfElements_eq_flatMap (elements : List (List Atom)) :
    Atom.bodiesOfElements elements = elements.flatMap (List.flatMap Atom.bodies) := by
  induction elements with
  | nil => rfl
  | cons element elements inductionHypothesis =>
      rw [Atom.bodiesOfElements, inductionHypothesis, Atom.bodiesOfAll_eq_flatMap,
        List.flatMap_cons]

@[simp] theorem RawStatement.bodiesOfAll_eq_flatMap (statements : List RawStatement) :
    RawStatement.bodiesOfAll statements = statements.flatMap RawStatement.bodies := by
  induction statements with
  | nil => rfl
  | cons statement statements inductionHypothesis =>
      rw [RawStatement.bodiesOfAll, inductionHypothesis, List.flatMap_cons]

theorem RawStatement.bodies_mk (atoms : List Atom) (span : Span) :
    (RawStatement.mk atoms span).bodies = atoms.flatMap Atom.bodies := by
  rw [RawStatement.bodies, Atom.bodiesOfAll_eq_flatMap]

theorem Atom.bodies_of_isWord {atom : Atom} (isWord : atom.isWord = true) : atom.bodies = [] := by
  cases atom <;> first | rfl | cases isWord

/-- The statements themselves and the bodies in them. -/
def RawStatement.bodiesWithin (statements : List RawStatement) : List (List RawStatement) :=
  statements :: statements.flatMap RawStatement.bodies

mutual

/-- The bodies in a body of the atom are bodies of the atom. -/
theorem Atom.mem_bodies_trans (atom : Atom) {body inner : List RawStatement}
    (member : body ∈ atom.bodies) (inside : inner ∈ RawStatement.bodiesOfAll body) :
    inner ∈ atom.bodies := by
  match atom with
  | .paren atoms => exact Atom.mem_bodiesOfAll_trans atoms member inside
  | .list elements => exact Atom.mem_bodiesOfElements_trans elements member inside
  | .strand atoms => exact Atom.mem_bodiesOfAll_trans atoms member inside
  | .block statements =>
      rcases List.mem_cons.1 member with rfl | deeper
      · exact List.mem_cons_of_mem _ inside
      · exact List.mem_cons_of_mem _ (RawStatement.mem_bodiesOfAll_trans statements deeper inside)
  | .number _ | .character _ | .string _ | .name _ | .implicit _ _ | .system _ | .primitive _
  | .oneModifier _ | .twoModifier _ | .define | .assign | .guard => cases member
termination_by structural atom

theorem Atom.mem_bodiesOfAll_trans (atoms : List Atom) {body inner : List RawStatement}
    (member : body ∈ Atom.bodiesOfAll atoms) (inside : inner ∈ RawStatement.bodiesOfAll body) :
    inner ∈ Atom.bodiesOfAll atoms := by
  match atoms with
  | [] => cases member
  | atom :: atoms =>
      rcases List.mem_append.1 member with here | later
      · exact List.mem_append_left _ (Atom.mem_bodies_trans atom here inside)
      · exact List.mem_append_right _ (Atom.mem_bodiesOfAll_trans atoms later inside)
termination_by structural atoms

theorem Atom.mem_bodiesOfElements_trans (elements : List (List Atom))
    {body inner : List RawStatement} (member : body ∈ Atom.bodiesOfElements elements)
    (inside : inner ∈ RawStatement.bodiesOfAll body) :
    inner ∈ Atom.bodiesOfElements elements := by
  match elements with
  | [] => cases member
  | element :: elements =>
      rcases List.mem_append.1 member with here | later
      · exact List.mem_append_left _ (Atom.mem_bodiesOfAll_trans element here inside)
      · exact List.mem_append_right _ (Atom.mem_bodiesOfElements_trans elements later inside)
termination_by structural elements

theorem RawStatement.mem_bodies_trans (statement : RawStatement) {body inner : List RawStatement}
    (member : body ∈ statement.bodies) (inside : inner ∈ RawStatement.bodiesOfAll body) :
    inner ∈ statement.bodies := by
  match statement with
  | .mk atoms _ => exact Atom.mem_bodiesOfAll_trans atoms member inside
termination_by structural statement

theorem RawStatement.mem_bodiesOfAll_trans (statements : List RawStatement)
    {body inner : List RawStatement} (member : body ∈ RawStatement.bodiesOfAll statements)
    (inside : inner ∈ RawStatement.bodiesOfAll body) :
    inner ∈ RawStatement.bodiesOfAll statements := by
  match statements with
  | [] => cases member
  | statement :: statements =>
      rcases List.mem_append.1 member with here | later
      · exact List.mem_append_left _ (RawStatement.mem_bodies_trans statement here inside)
      · exact List.mem_append_right _ (RawStatement.mem_bodiesOfAll_trans statements later inside)
termination_by structural statements

end

theorem RawStatement.mem_bodiesWithin_trans {statements body inner : List RawStatement}
    {statement : RawStatement} (within : body ∈ bodiesWithin statements)
    (member : statement ∈ body) (inside : inner ∈ statement.bodies) :
    inner ∈ bodiesWithin statements := by
  have deeper : inner ∈ body.flatMap RawStatement.bodies :=
    List.mem_flatMap.2 ⟨statement, member, inside⟩
  rcases List.mem_cons.1 within with rfl | nested
  · exact List.mem_cons_of_mem _ deeper
  · rw [← bodiesOfAll_eq_flatMap] at nested deeper
    rw [bodiesWithin, ← bodiesOfAll_eq_flatMap]
    exact List.mem_cons_of_mem _ (mem_bodiesOfAll_trans statements nested deeper)

/-! ### Shifts -/

mutual

theorem Atom.bodies_shift (atom : Atom) :
    (atom.shift offset).bodies = atom.bodies.map (List.map (RawStatement.shift offset)) := by
  match atom with
  | .paren atoms =>
      rw [Atom.shift, Atom.bodies, Atom.bodies]
      exact Atom.bodiesOfAll_shift atoms
  | .list elements =>
      rw [Atom.shift, Atom.bodies, Atom.bodies]
      exact Atom.bodiesOfElements_shift elements
  | .strand atoms =>
      rw [Atom.shift, Atom.bodies, Atom.bodies]
      exact Atom.bodiesOfAll_shift atoms
  | .block statements =>
      rw [Atom.shift, Atom.bodies, Atom.bodies, List.map_cons,
        ← RawStatement.bodiesOfAll_shift statements, RawStatement.shiftAll_eq_map]
  | .number _ | .character _ | .string _ | .name _ | .implicit _ _ | .system _ | .primitive _
  | .oneModifier _ | .twoModifier _ | .define | .assign | .guard => rfl
termination_by structural atom

theorem Atom.bodiesOfAll_shift (atoms : List Atom) :
    Atom.bodiesOfAll (Atom.shiftAll offset atoms) =
      (Atom.bodiesOfAll atoms).map (List.map (RawStatement.shift offset)) := by
  match atoms with
  | [] => rfl
  | atom :: atoms =>
      rw [Atom.shiftAll, Atom.bodiesOfAll, Atom.bodiesOfAll, Atom.bodies_shift atom,
        Atom.bodiesOfAll_shift atoms, List.map_append]
termination_by structural atoms

theorem Atom.bodiesOfElements_shift (elements : List (List Atom)) :
    Atom.bodiesOfElements (Atom.shiftElements offset elements) =
      (Atom.bodiesOfElements elements).map (List.map (RawStatement.shift offset)) := by
  match elements with
  | [] => rfl
  | element :: elements =>
      rw [Atom.shiftElements, Atom.bodiesOfElements, Atom.bodiesOfElements,
        Atom.bodiesOfAll_shift element, Atom.bodiesOfElements_shift elements, List.map_append]
termination_by structural elements

theorem RawStatement.bodies_shift (statement : RawStatement) :
    (statement.shift offset).bodies =
      statement.bodies.map (List.map (RawStatement.shift offset)) := by
  match statement with
  | .mk atoms span =>
      rw [RawStatement.shift, RawStatement.bodies, RawStatement.bodies]
      exact Atom.bodiesOfAll_shift atoms
termination_by structural statement

theorem RawStatement.bodiesOfAll_shift (statements : List RawStatement) :
    RawStatement.bodiesOfAll (RawStatement.shiftAll offset statements) =
      (RawStatement.bodiesOfAll statements).map (List.map (RawStatement.shift offset)) := by
  match statements with
  | [] => rfl
  | statement :: statements =>
      rw [RawStatement.shiftAll, RawStatement.bodiesOfAll, RawStatement.bodiesOfAll,
        RawStatement.bodies_shift statement, RawStatement.bodiesOfAll_shift statements,
        List.map_append]
termination_by structural statements

end

/-! ### Bodies of open brackets -/

namespace Row

def bodies (row : Row) : List (List RawStatement) :=
  row.strands.flatMap (List.flatMap Atom.bodies)

variable (row : Row)

theorem mem_bodies_strandAtom {strand : List Atom} {body : List RawStatement} :
    body ∈ (strandAtom strand).bodies ↔ body ∈ strand.flatMap Atom.bodies := by
  cases strand with
  | nil => exact Iff.rfl
  | cons first rest =>
      cases rest with
      | nil => rw [List.flatMap_singleton, strandAtom]
      | cons second rest =>
          rw [strandAtom, Atom.bodies, Atom.bodiesOfAll_eq_flatMap]
          · simp only [List.mem_flatMap, List.mem_reverse]
          · intro atom same
            cases same

theorem mem_bodies_atoms {body : List RawStatement} :
    body ∈ row.atoms.flatMap Atom.bodies ↔ body ∈ row.bodies := by
  simp only [atoms, bodies, List.mem_flatMap (l := row.strands), List.mem_flatMap,
    List.mem_reverse, List.mem_map]
  constructor
  · rintro ⟨_, ⟨strand, member, rfl⟩, inside⟩
    exact ⟨strand, member, List.mem_flatMap.1 (mem_bodies_strandAtom.1 inside)⟩
  · rintro ⟨strand, member, inside⟩
    exact ⟨_, ⟨strand, member, rfl⟩, mem_bodies_strandAtom.2 (List.mem_flatMap.2 inside)⟩

theorem mem_bodies_add {atom : Atom} {body : List RawStatement}
    (member : body ∈ (row.add atom).bodies) : body ∈ atom.bodies ∨ body ∈ row.bodies := by
  obtain ⟨strands, tied⟩ := row
  cases strands with
  | nil => cases tied <;> simpa [add, bodies] using member
  | cons strand strands =>
      cases tied <;> simpa [add, bodies, or_assoc] using member

end Row

namespace Level

/-- The bodies of all literals in what the bracket holds, with the statements before the
current one if it is a block. -/
def bodies : Level → List (List RawStatement)
  | .paren row => row.bodies
  | .list elements row => elements.flatMap (List.flatMap Atom.bodies) ++ row.bodies
  | .block statements _ row => RawStatement.bodiesWithin statements.reverse ++ row.bodies

variable {level : Level} {body : List RawStatement}

theorem eq_nil_of_mem_ofBracket (bracket : Bracket) (member : body ∈ (ofBracket bracket).bodies) :
    body = [] := by
  cases bracket with
  | paren => cases member
  | list => cases member
  | block => exact List.mem_singleton.1 member

@[simp] theorem bodies_startAt (position : Nat) :
    (level.startAt position).bodies = level.bodies := by
  cases level <;> rfl

@[simp] theorem bodies_tie : (level.mapRow Row.tie).bodies = level.bodies := by
  cases level <;> rfl

theorem mem_bodies_add {atom : Atom} (member : body ∈ (level.mapRow (·.add atom)).bodies) :
    body ∈ atom.bodies ∨ body ∈ level.bodies := by
  cases level with
  | paren row => exact row.mem_bodies_add member
  | list elements row =>
      rcases List.mem_append.1 member with earlier | current
      · exact .inr (List.mem_append_left _ earlier)
      · exact (row.mem_bodies_add current).imp_right (List.mem_append_right _)
  | block statements start row =>
      rcases List.mem_append.1 member with earlier | current
      · exact .inr (List.mem_append_left _ earlier)
      · exact (row.mem_bodies_add current).imp_right (List.mem_append_right _)

/-- Where a row ends, the only new body is that of the block, with a statement more. -/
theorem mem_bodies_finishRow {trimmed : Nat} (member : body ∈ (level.finishRow trimmed).bodies) :
    body ∈ level.bodies ∨ ∃ statements start row, level = .block statements start row ∧
      row.isFresh = false ∧ body = statements.reverse ++ [.mk row.atoms ⟨start, trimmed⟩] := by
  cases level with
  | paren row => exact .inl member
  | list elements row =>
      rw [finishRow] at member
      split at member
      · exact .inl member
      · simp only [bodies, List.flatMap_cons, List.mem_append, row.mem_bodies_atoms] at member ⊢
        rcases member with (current | earlier) | fresh
        · exact .inl (.inr current)
        · exact .inl (.inl earlier)
        · cases fresh
  | block statements start row =>
      rw [finishRow] at member
      split at member
      · exact .inl member
      · next busy =>
          simp only [bodies, RawStatement.bodiesWithin, List.reverse_cons, List.flatMap_append,
            List.flatMap_singleton, RawStatement.bodies_mk, List.mem_append, List.mem_cons,
            row.mem_bodies_atoms] at member ⊢
          rcases member with (whole | earlier | current) | fresh
          · exact .inr ⟨statements, start, row, rfl, Bool.eq_false_iff.2 busy, whole⟩
          · exact .inl (.inl (.inr earlier))
          · exact .inl (.inr current)
          · cases fresh

theorem eq_block_of_close? {bracket : Bracket} {statements : List RawStatement}
    {start trimmed : Nat} {row : Row} {atom : Atom}
    (closes : (block statements start row).close? bracket trimmed = some atom) :
    bracket = .block := by
  cases fresh : row.isFresh <;> cases bracket <;> simp [close?, finishRow, fresh] at closes ⊢

theorem mem_bodies_close? {bracket : Bracket} {trimmed : Nat} {atom : Atom}
    (closes : level.close? bracket trimmed = some atom) (member : body ∈ atom.bodies) :
    body ∈ (level.finishRow trimmed).bodies := by
  unfold close? at closes
  generalize level.finishRow trimmed = ended at closes
  split at closes
  · next row =>
      split at closes
      · cases closes
      · cases closes
        rw [Atom.bodies, Atom.bodiesOfAll_eq_flatMap] at member
        exact (row.mem_bodies_atoms).1 member
  · cases closes
    rw [Atom.bodies, Atom.bodiesOfElements_eq_flatMap] at member
    refine List.mem_append_left _ ?_
    simpa only [List.mem_flatMap, List.mem_reverse] using member
  · cases closes
    rw [Atom.bodies, RawStatement.bodiesOfAll_eq_flatMap] at member
    exact List.mem_append_left _ member
  · cases closes

end Level

end PointFree
