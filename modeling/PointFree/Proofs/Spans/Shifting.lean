import PointFree.Proofs.Spans.Accepting

/-!
Contract: reading the same tokens further on in a text, inside more brackets.

Where a text stands and what is open around it make no difference to how its tokens are
accepted: a statement that is read on its own and one that is read in its place are the same up
to a shift of all spans. `Embedded` relates the brackets that are open in the two readings, from
the first token of the statement on.
-/

namespace PointFree

variable {offset : Nat}

/-! ### Shifts -/

mutual

/-- The atom as it stands further on in a text. -/
def Atom.shift (offset : Nat) : Atom → Atom
  | .paren atoms => .paren (Atom.shiftAll offset atoms)
  | .list elements => .list (Atom.shiftElements offset elements)
  | .strand atoms => .strand (Atom.shiftAll offset atoms)
  | .block statements => .block (RawStatement.shiftAll offset statements)
  | word => word
termination_by structural atom => atom

def Atom.shiftAll (offset : Nat) : List Atom → List Atom
  | [] => []
  | atom :: atoms => atom.shift offset :: Atom.shiftAll offset atoms
termination_by structural atoms => atoms

def Atom.shiftElements (offset : Nat) : List (List Atom) → List (List Atom)
  | [] => []
  | element :: elements => Atom.shiftAll offset element :: Atom.shiftElements offset elements
termination_by structural elements => elements

def RawStatement.shift (offset : Nat) : RawStatement → RawStatement
  | .mk atoms span => .mk (Atom.shiftAll offset atoms) (span.shift offset)
termination_by structural statement => statement

def RawStatement.shiftAll (offset : Nat) : List RawStatement → List RawStatement
  | [] => []
  | statement :: statements =>
      statement.shift offset :: RawStatement.shiftAll offset statements
termination_by structural statements => statements

end

@[simp] theorem Atom.shiftAll_eq_map (atoms : List Atom) :
    Atom.shiftAll offset atoms = atoms.map (Atom.shift offset) := by
  induction atoms with
  | nil => rfl
  | cons atom atoms inductionHypothesis =>
      rw [Atom.shiftAll, inductionHypothesis, List.map_cons]

@[simp] theorem Atom.shiftElements_eq_map (elements : List (List Atom)) :
    Atom.shiftElements offset elements = elements.map (List.map (Atom.shift offset)) := by
  induction elements with
  | nil => rfl
  | cons element elements inductionHypothesis =>
      rw [Atom.shiftElements, inductionHypothesis, Atom.shiftAll_eq_map, List.map_cons]

@[simp] theorem RawStatement.shiftAll_eq_map (statements : List RawStatement) :
    RawStatement.shiftAll offset statements = statements.map (RawStatement.shift offset) := by
  induction statements with
  | nil => rfl
  | cons statement statements inductionHypothesis =>
      rw [RawStatement.shiftAll, inductionHypothesis, List.map_cons]

theorem RawStatement.shift_mk (atoms : List Atom) (span : Span) :
    (RawStatement.mk atoms span).shift offset =
      .mk (atoms.map (Atom.shift offset)) (span.shift offset) := by
  rw [RawStatement.shift, Atom.shiftAll_eq_map]

def RawStatement.span : RawStatement → Span
  | .mk _ span => span

theorem RawStatement.span_shift (statement : RawStatement) :
    (statement.shift offset).span = statement.span.shift offset := by
  cases statement
  rfl

/-- A word looks the same wherever it stands. -/
theorem Atom.shift_of_isWord {atom : Atom} (isWord : atom.isWord = true) :
    atom.shift offset = atom := by
  cases atom with
  | paren => cases isWord
  | list => cases isWord
  | strand => cases isWord
  | block => cases isWord
  | _ => rfl

namespace Row

def shift (offset : Nat) (row : Row) : Row :=
  ⟨row.strands.map (List.map (Atom.shift offset)), row.tied⟩

variable (row : Row)

@[simp] theorem shift_empty : empty.shift offset = empty :=
  rfl

@[simp] theorem tied_shift : (row.shift offset).tied = row.tied :=
  rfl

@[simp] theorem isEmpty_shift : (row.shift offset).strands.isEmpty = row.strands.isEmpty :=
  List.isEmpty_map

@[simp] theorem isFresh_shift : (row.shift offset).isFresh = row.isFresh := by
  rw [isFresh, isFresh, isEmpty_shift, tied_shift]

theorem add_shift (atom : Atom) :
    (row.add atom).shift offset = (row.shift offset).add (atom.shift offset) := by
  obtain ⟨strands, tied⟩ := row
  cases strands with
  | nil => cases tied <;> rfl
  | cons => cases tied <;> rfl

theorem atoms_shift : (row.shift offset).atoms = row.atoms.map (Atom.shift offset) := by
  have strand (atoms : List Atom) :
      strandAtom (atoms.map (Atom.shift offset)) = (strandAtom atoms).shift offset := by
    match atoms with
    | [] => rfl
    | [atom] => rfl
    | first :: second :: rest =>
        simp only [strandAtom, List.map_cons, Atom.shift, Atom.shiftAll_eq_map, List.map_reverse]
  rw [atoms, atoms, shift, List.map_map, List.map_reverse, List.map_map]
  exact congrArg List.reverse (List.map_congr_left fun atoms _ => strand atoms)

theorem isFresh_add (atom : Atom) : (row.add atom).isFresh = false := by
  obtain ⟨strands, tied⟩ := row
  cases strands with
  | nil => cases tied <;> rfl
  | cons => cases tied <;> rfl

theorem isFresh_tie : row.tie.isFresh = false := by
  rw [isFresh, tie, Bool.not_true, Bool.and_false]

theorem eq_empty_of_isFresh {row : Row} (fresh : row.isFresh = true) : row = empty := by
  obtain ⟨strands, tied⟩ := row
  simp only [isFresh, Bool.and_eq_true, List.isEmpty_iff, Bool.not_eq_true'] at fresh
  rw [fresh.1, fresh.2]
  rfl

end Row

def Placed.shift (offset : Nat) (placed : Placed) : Placed :=
  { placed with start := placed.start + offset, trimmed := placed.trimmed + offset }

namespace Level

def shift (offset : Nat) : Level → Level
  | .paren row => .paren (row.shift offset)
  | .list elements row =>
      .list (elements.map (List.map (Atom.shift offset))) (row.shift offset)
  | .block statements start row =>
      .block (statements.map (RawStatement.shift offset)) (start + offset) (row.shift offset)

/-- The level as it stands further on in a text. Where no statement has begun, the place of the
last one does not count. -/
inductive Moved (offset : Nat) : Level → Level → Prop where
  | same (level : Level) : Moved offset level (level.shift offset)
  | idle (statements : List RawStatement) (start start' : Nat) {row : Row} :
      row.isFresh = true →
      Moved offset (.block statements start row)
        (.block (statements.map (RawStatement.shift offset)) start' (row.shift offset))

variable {level level' : Level}

theorem add_shift (atom : Atom) (level : Level) :
    (level.mapRow (·.add atom)).shift offset =
      (level.shift offset).mapRow (·.add (atom.shift offset)) := by
  cases level <;> simp only [mapRow, shift, Row.add_shift]

theorem Moved.currentRow (moved : Moved offset level level') :
    level'.currentRow = level.currentRow.shift offset := by
  cases moved with
  | same => cases level <;> rfl
  | idle => rfl

theorem Moved.isDivisible (moved : Moved offset level level') :
    level'.isDivisible = level.isDivisible := by
  cases moved with
  | same => cases level <;> rfl
  | idle => rfl

theorem startAt_of_busy {row : Row} (busy : row.isFresh = false) (statements : List RawStatement)
    (start position : Nat) :
    (block statements start row).startAt position = .block statements start row := by
  rw [startAt, busy]
  rfl

theorem Moved.startAt (moved : Moved offset level level') (position : Nat) :
    level'.startAt (position + offset) = (level.startAt position).shift offset := by
  cases moved with
  | same =>
      cases level with
      | paren => rfl
      | list => rfl
      | block statements start row =>
          simp only [shift, Level.startAt, Row.isFresh_shift]
          split <;> rfl
  | idle statements start start' fresh =>
      simp only [shift, Level.startAt, Row.isFresh_shift, fresh, if_true]

theorem Moved.tie (moved : Moved offset level level')
    (some : level.currentRow.strands.isEmpty = false) :
    Moved offset (level.mapRow Row.tie) (level'.mapRow Row.tie) := by
  cases moved with
  | same =>
      have tied : (level.shift offset).mapRow Row.tie = (level.mapRow Row.tie).shift offset := by
        cases level <;> rfl
      rw [tied]
      exact .same _
  | idle statements start start' fresh =>
      rw [Row.eq_empty_of_isFresh fresh] at some
      cases some

theorem Moved.finishRow (moved : Moved offset level level') (trimmed : Nat) :
    Moved offset (level.finishRow trimmed) (level'.finishRow (trimmed + offset)) := by
  cases moved with
  | same =>
      cases level with
      | paren row => exact .same _
      | list elements row =>
          simp only [shift, Level.finishRow, Row.isFresh_shift]
          split
          · exact .same (.list elements row)
          · rw [Row.atoms_shift]
            exact .same (.list (row.atoms :: elements) .empty)
      | block statements start row =>
          simp only [shift, Level.finishRow, Row.isFresh_shift]
          split
          · exact .same (.block statements start row)
          · rw [Row.atoms_shift]
            have shifted : Moved offset _ _ := .same
              (.block (.mk row.atoms ⟨start, trimmed⟩ :: statements) start .empty)
            rw [shift, List.map_cons, RawStatement.shift_mk] at shifted
            exact shifted
  | idle statements start start' fresh =>
      simp only [Level.finishRow, Row.isFresh_shift, fresh, if_true]
      exact .idle statements start start' fresh

theorem Moved.close? (moved : Moved offset level level') (bracket : Bracket) (trimmed : Nat) :
    level'.close? bracket (trimmed + offset) =
      (level.close? bracket trimmed).map (Atom.shift offset) := by
  have finished := moved.finishRow trimmed
  unfold Level.close?
  generalize level.finishRow trimmed = ended at finished
  generalize level'.finishRow (trimmed + offset) = ended' at finished
  cases finished with
  | same =>
      cases ended with
      | paren row =>
          cases bracket with
          | paren =>
              simp only [shift, Row.isFresh_shift, Row.atoms_shift]
              split
              · rfl
              · simp [Atom.shift]
          | list => rfl
          | block => rfl
      | list elements row =>
          cases bracket with
          | paren => rfl
          | list => simp [shift, Atom.shift]
          | block => rfl
      | block statements start row =>
          cases bracket with
          | paren => rfl
          | list => rfl
          | block => simp [shift, Atom.shift]
  | idle statements start start' fresh =>
      cases bracket with
      | paren => rfl
      | list => rfl
      | block => simp [Atom.shift]

theorem moved_ofBracket (bracket : Bracket) :
    Moved offset (ofBracket bracket) (ofBracket bracket) := by
  cases bracket with
  | paren => exact .same (.paren .empty)
  | list => exact .same (.list [] .empty)
  | block => exact .idle [] 0 0 rfl

theorem currentRow_mapRow (change : Row → Row) (level : Level) :
    (level.mapRow change).currentRow = change level.currentRow := by
  cases level <;> rfl

/-- What becomes of a row makes no difference to what it stands in. -/
theorem mapRow_eq_block {change : Row → Row} {statements : List RawStatement} {start : Nat}
    {row : Row} (same : level.mapRow change = .block statements start row) :
    ∃ before, level = .block statements start before ∧ change before = row := by
  cases level <;> cases same
  exact ⟨_, rfl, rfl⟩

end Level

/-- A statement can begin with the token. -/
def Token.begins : Token → Bool
  | .atom _ | .opening _ => true
  | _ => false

theorem Token.isSolid_of_begins {token : Token} (begins : token.begins = true) :
    token.isSolid = true := by
  cases token <;> first | rfl | cases begins

/-- A statement can end before the token. -/
def Token.ends : Token → Bool
  | .closing _ | .separator => true
  | _ => false

theorem Token.ends_of_begins {token : Token} (begins : token.begins = true) :
    token.ends = false := by
  cases token <;> first | rfl | cases begins

/-! ### Readings of a statement on its own and in its place -/

/-- The levels around the innermost one, on its own and in place: the statement began at
`offset` after other statements, with more levels around its block. -/
inductive Beneath (offset : Nat) (statements : List RawStatement) (more : List Level) :
    List Level → List Level → Prop where
  | base (row : Row) :
      Beneath offset statements more [.block [] 0 row]
        (.block statements offset (row.shift offset) :: more)
  | inner (level : Level) {outer outer' : List Level} :
      Beneath offset statements more outer outer' →
      Beneath offset statements more (level :: outer) (level.shift offset :: outer')

/-- All levels in the two readings, once the first token of the statement is read. -/
inductive Embedded (offset : Nat) (statements : List RawStatement) (more : List Level) :
    Level × List Level → Level × List Level → Prop where
  | base {row : Row} :
      row.isFresh = false →
      Embedded offset statements more (.block [] 0 row, [])
        (.block statements offset (row.shift offset), more)
  | inner {level level' : Level} {outer outer' : List Level} :
      Level.Moved offset level level' → Beneath offset statements more outer outer' →
      Embedded offset statements more (level, outer) (level', outer')

theorem Beneath.length {statements : List RawStatement} {more outer outer' : List Level}
    (beneath : Beneath offset statements more outer outer') :
    outer'.length = outer.length + more.length ∧ 0 < outer.length := by
  induction beneath with
  | base => exact ⟨Nat.add_comm .., Nat.one_pos⟩
  | inner _ _ inductionHypothesis =>
      simp only [List.length_cons]
      omega

namespace Embedded

variable {statements : List RawStatement} {more : List Level}

/-- Where no more brackets are open in place than around the block of the statement. -/
theorem eq_base {levels levels' : Level × List Level}
    (embedded : Embedded offset statements more levels levels') (outermost : levels'.2 = more) :
    ∃ row, row.isFresh = false ∧ levels = (.block [] 0 row, []) ∧
      levels' = (.block statements offset (row.shift offset), more) := by
  cases embedded with
  | base busy => exact ⟨_, busy, rfl, rfl⟩
  | inner moved beneath =>
      obtain ⟨length, positive⟩ := beneath.length
      subst outermost
      exact absurd length (by dsimp only; omega)

/-- An atom in the block of the statement. -/
theorem base_add (row : Row) (atom : Atom) :
    Embedded offset statements more (.block [] 0 (row.add atom), [])
      (.block statements offset ((row.shift offset).add (atom.shift offset)), more) := by
  rw [← Row.add_shift]
  exact .base (row.isFresh_add atom)

/-- An atom in the level that is reached when a bracket closes. -/
theorem closed {next' : Level} {outer rest' : List Level} (atom : Atom)
    (beneath : Beneath offset statements more outer (next' :: rest')) :
    ∃ next rest, outer = next :: rest ∧
      Embedded offset statements more (next.mapRow (·.add atom), rest)
        (next'.mapRow (·.add (atom.shift offset)), rest') := by
  cases beneath with
  | base row => exact ⟨_, [], rfl, base_add row atom⟩
  | inner level beneath =>
      refine ⟨level, _, rfl, ?_⟩
      rw [← Level.add_shift]
      exact .inner (.same _) beneath

/-- The first token of a statement. -/
theorem first (trimmed : Nat) {placed : Placed} {stale : Nat} {row : Row}
    {levels' : Level × List Level} (fresh : row.isFresh = true)
    (isWord : placed.token.isWord = true) (begins : placed.token.begins = true)
    (accepts : Level.Accepts placed (.block statements stale row) more levels') :
    ∃ levels, Level.Accepts { placed with start := 0, trimmed := trimmed } (.ofBracket .block) []
        levels ∧ Embedded placed.start statements more levels levels' := by
  obtain rfl := Row.eq_empty_of_isFresh fresh
  cases accepts with
  | @atom atom kind =>
      rw [kind] at isWord
      have embedded : Embedded placed.start statements more _ _ := base_add .empty atom
      rw [Atom.shift_of_isWord isWord] at embedded
      exact ⟨_, .atom kind, embedded⟩
  | opening kind fits =>
      refine ⟨_, .opening kind (by decide), ?_⟩
      exact .inner (Level.moved_ofBracket _) (.base .empty)
  | closing kind => simp [kind, Token.begins] at begins
  | tie kind => simp [kind, Token.begins] at begins
  | separator kind => simp [kind, Token.begins] at begins
  | blank kind => simp [kind, Token.begins] at begins

theorem next_base (placed : Placed) {row : Row} {ended' : Level × List Level}
    (busy : row.isFresh = false) (isWord : placed.token.isWord = true)
    (within : placed.token.ends = false)
    (accepts : Level.Accepts (placed.shift offset)
      (.block statements offset (row.shift offset)) more ended') :
    ∃ ended, Level.Accepts placed (.block [] 0 row) [] ended ∧
      Embedded offset statements more ended ended' := by
  have busy' : (row.shift offset).isFresh = false := row.isFresh_shift.trans busy
  cases accepts with
  | @atom atom kind =>
      have word := (congrArg Token.isWord kind).symm.trans isWord
      refine ⟨_, .atom kind, ?_⟩
      rw [Level.startAt_of_busy busy, Level.startAt_of_busy busy']
      have embedded : Embedded offset statements more _ _ := base_add row atom
      rwa [Atom.shift_of_isWord word] at embedded
  | opening kind =>
      refine ⟨_, .opening kind (show 0 + 1 < nestingLimit by decide), ?_⟩
      rw [Level.startAt_of_busy busy, Level.startAt_of_busy busy']
      exact .inner (Level.moved_ofBracket _) (.base row)
  | closing kind => cases (congrArg Token.ends kind).symm.trans within
  | tie kind some free =>
      refine ⟨_, .tie kind ((row.isEmpty_shift).symm.trans some) free, ?_⟩
      exact .base row.isFresh_tie
  | separator kind => cases (congrArg Token.ends kind).symm.trans within
  | blank kind _ fresh => cases busy'.symm.trans fresh

theorem next_inner (placed : Placed) {level level' : Level} {outer outer' : List Level}
    {ended' : Level × List Level} (moved : Level.Moved offset level level')
    (beneath : Beneath offset statements more outer outer') (isWord : placed.token.isWord = true)
    (accepts : Level.Accepts (placed.shift offset) level' outer' ended') :
    ∃ ended, Level.Accepts placed level outer ended ∧
      Embedded offset statements more ended ended' := by
  have row := moved.currentRow
  have length := beneath.length
  have start := moved.startAt placed.start
  cases accepts with
  | @atom atom kind =>
      have word := (congrArg Token.isWord kind).symm.trans isWord
      have added := @Level.add_shift offset atom (level.startAt placed.start)
      rw [Atom.shift_of_isWord word, ← start] at added
      exact ⟨_, .atom kind, .inner (added ▸ .same _) beneath⟩
  | opening kind fits =>
      have fits' : outer.length + 1 < nestingLimit := by omega
      refine ⟨_, .opening kind fits', .inner (Level.moved_ofBracket _) ?_⟩
      have below := Beneath.inner (level.startAt placed.start) beneath
      rwa [← start] at below
  | @closing bracket atom' next' rest' kind free closes same =>
      subst same
      have closes' : level'.close? bracket (placed.trimmed + offset) = some atom' := closes
      rw [moved.close?] at closes'
      obtain ⟨atom, closed?, rfl⟩ := Option.map_eq_some_iff.1 closes'
      obtain ⟨next, rest, rfl, embedded⟩ := closed atom beneath
      rw [row, Row.tied_shift] at free
      exact ⟨_, .closing kind free closed? rfl, embedded⟩
  | tie kind some free =>
      rw [row, Row.isEmpty_shift] at some
      rw [row, Row.tied_shift] at free
      exact ⟨_, .tie kind some free, .inner (moved.tie some) beneath⟩
  | separator kind divides free =>
      rw [moved.isDivisible] at divides
      rw [row, Row.tied_shift] at free
      exact ⟨_, .separator kind divides free, .inner (moved.finishRow _) beneath⟩
  | blank kind divides fresh =>
      rw [moved.isDivisible] at divides
      rw [row, Row.isFresh_shift] at fresh
      exact ⟨_, .blank kind divides fresh, .inner moved beneath⟩

/-- A token within the statement. -/
theorem next (placed : Placed) {levels levels' ended' : Level × List Level}
    (embedded : Embedded offset statements more levels levels')
    (isWord : placed.token.isWord = true)
    (within : levels'.2 = more → placed.token.ends = false)
    (accepts : Level.Accepts (placed.shift offset) levels'.1 levels'.2 ended') :
    ∃ ended, Level.Accepts placed levels.1 levels.2 ended ∧
      Embedded offset statements more ended ended' := by
  cases embedded with
  | base busy => exact next_base placed busy isWord (within rfl) accepts
  | inner moved beneath => exact next_inner placed moved beneath isWord accepts

end Embedded

end PointFree
