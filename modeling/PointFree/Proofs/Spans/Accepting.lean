import PointFree.Proofs.Spans.Scanning
import PointFree.Surface.Grouping

/-!
Contract: what a token does to the open brackets.

`Accepts` lists what can happen: each kind of token has one effect, under the conditions that
are named with it. Everything else about how tokens are accepted follows from it.
-/

namespace PointFree

/-- The neighbours are to be tied together. -/
def Row.tie (row : Row) : Row :=
  ⟨row.strands, true⟩

namespace Level

/-- Elements or statements can be divided here. -/
def isDivisible : Level → Bool
  | .paren _ => false
  | _ => true

/-- The levels after a token that is accepted. -/
inductive Accepts (placed : Placed) (level : Level) (outer : List Level) :
    Level × List Level → Prop where
  | atom {atom : Atom} :
      placed.token = .atom atom →
      Accepts placed level outer ((level.startAt placed.start).mapRow (·.add atom), outer)
  | opening {bracket : Bracket} :
      placed.token = .opening bracket → outer.length + 1 < nestingLimit →
      Accepts placed level outer (.ofBracket bracket, level.startAt placed.start :: outer)
  | closing {bracket : Bracket} {atom : Atom} {next : Level} {rest : List Level} :
      placed.token = .closing bracket → level.currentRow.tied = false →
      level.close? bracket placed.trimmed = some atom → outer = next :: rest →
      Accepts placed level outer (next.mapRow (·.add atom), rest)
  | tie :
      placed.token = .tie → level.currentRow.strands.isEmpty = false →
      level.currentRow.tied = false → Accepts placed level outer (level.mapRow Row.tie, outer)
  | separator :
      placed.token = .separator → level.isDivisible = true → level.currentRow.tied = false →
      Accepts placed level outer (level.finishRow placed.trimmed, outer)
  | blank :
      placed.token = .blank → level.isDivisible = true → level.currentRow.isFresh = true →
      Accepts placed level outer (level, outer)

variable {placed : Placed} {level : Level} {outer : List Level} {levels : Level × List Level}

theorem accept_separator (separates : placed.token = .separator) :
    level.accept placed outer =
      if level.isDivisible && !level.currentRow.tied then
        .ok (level.finishRow placed.trimmed, outer)
      else unexpectedAt placed.start placed.letter := by
  unfold accept
  rw [separates]
  cases level with
  | paren => rfl
  | list elements row => cases tied : row.tied <;> simp [isDivisible, currentRow, tied]
  | block statements start row => cases tied : row.tied <;> simp [isDivisible, currentRow, tied]

theorem accept_blank (blank : placed.token = .blank) :
    level.accept placed outer =
      if level.isDivisible && level.currentRow.isFresh then .ok (level, outer)
      else unexpectedAt placed.start placed.letter := by
  unfold accept
  rw [blank]
  cases level with
  | paren => rfl
  | list => rfl
  | block => rfl

theorem accepts_of_accept (accepted : level.accept placed outer = .ok levels) :
    Accepts placed level outer levels := by
  cases kind : placed.token with
  | atom atom =>
      simp only [accept, kind] at accepted
      cases accepted
      exact .atom kind
  | opening bracket =>
      simp only [accept, kind] at accepted
      split at accepted
      · cases accepted
      · next fits =>
          cases accepted
          exact .opening kind (Nat.lt_of_not_le fits)
  | closing bracket =>
      simp only [accept, kind] at accepted
      split at accepted
      · cases accepted
      · next free =>
          split at accepted
          · next closes =>
              cases accepted
              exact .closing kind (Bool.eq_false_iff.2 free) closes rfl
          · cases accepted
  | tie =>
      simp only [accept, kind] at accepted
      split at accepted
      · cases accepted
      · next free =>
          cases accepted
          rw [Bool.or_eq_true, not_or, Bool.not_eq_true, Bool.not_eq_true] at free
          exact .tie kind free.1 free.2
  | separator =>
      rw [accept_separator kind] at accepted
      split at accepted
      · next divides =>
          rw [Bool.and_eq_true, Bool.not_eq_true'] at divides
          cases accepted
          exact .separator kind divides.1 divides.2
      · cases accepted
  | blank =>
      rw [accept_blank kind] at accepted
      split at accepted
      · next fresh =>
          rw [Bool.and_eq_true] at fresh
          cases accepted
          exact .blank kind fresh.1 fresh.2
      · cases accepted

theorem Accepts.accept (accepts : Accepts placed level outer levels) :
    level.accept placed outer = .ok levels := by
  cases accepts with
  | atom kind => simp only [Level.accept, kind]
  | opening kind fits =>
      simp only [Level.accept, kind]
      rw [if_neg (Nat.not_le.2 fits)]
  | closing kind free closes same =>
      subst same
      simp only [Level.accept, kind, free, closes, Bool.false_eq_true, if_false]
  | tie kind some free =>
      simp only [Level.accept, kind, some, free, Bool.or_false, Bool.false_eq_true, if_false]
      rfl
  | separator kind divides free =>
      rw [accept_separator kind, divides, free]
      rfl
  | blank kind divides fresh =>
      rw [accept_blank kind, divides, fresh]
      rfl

theorem isFresh_finishRow (divides : level.isDivisible = true) (trimmed : Nat) :
    (level.finishRow trimmed).currentRow.isFresh = true := by
  cases level with
  | paren => cases divides
  | list elements row =>
      rw [finishRow]
      split
      · next fresh => exact fresh
      · rfl
  | block statements start row =>
      rw [finishRow]
      split
      · next fresh => exact fresh
      · rfl

/-- A token that divides something leaves nothing unfinished where it stands. -/
theorem Accepts.isFresh (accepts : Accepts placed level outer levels)
    (divides : placed.token.isSolid = false) : levels.1.currentRow.isFresh = true := by
  cases accepts with
  | atom kind => simp [kind, Token.isSolid] at divides
  | opening kind => simp [kind, Token.isSolid] at divides
  | closing kind => simp [kind, Token.isSolid] at divides
  | tie kind => simp [kind, Token.isSolid] at divides
  | separator _ divisible => exact isFresh_finishRow divisible placed.trimmed
  | blank _ _ fresh => exact fresh

end Level

end PointFree
