/-!
Contract: running an action over the first numbers.

`collect item count` runs `item 0`, `item 1`, and so on up to `count`, in this
order, and stops at the first failure. `collect_eq_ok` says what it holds when
nothing fails. `every` runs a test in the same way up to the first number that
does not pass it.
-/

namespace PointFree

variable {m : Type → Type} [Monad m] {α : Type}

@[specialize]
def collectFrom (item : Nat → m α) : (remaining index : Nat) → Array α → m (Array α)
  | 0, _, found => pure found
  | remaining + 1, index, found => do
      let value ← item index
      collectFrom item remaining (index + 1) (found.push value)

@[inline]
def collect (item : Nat → m α) (count : Nat) : m (Array α) :=
  collectFrom item count 0 #[]

@[specialize]
def everyFrom (test : Nat → m Bool) : (remaining index : Nat) → m Bool
  | 0, _ => pure true
  | remaining + 1, index => do
      if ← test index then everyFrom test remaining (index + 1) else pure false

@[inline]
def every (test : Nat → m Bool) (count : Nat) : m Bool :=
  everyFrom test count 0

variable {ε : Type}

theorem collectFrom_eq_ok (item : Nat → Except ε α) (remaining index : Nat)
    (found all : Array α) :
    collectFrom item remaining index found = .ok all ↔
      ∃ more : List α, more.length = remaining ∧ all.toList = found.toList ++ more ∧
        ∀ (place : Nat) (inside : place < more.length),
          item (index + place) = .ok more[place] := by
  induction remaining generalizing index found with
  | zero =>
      constructor
      · intro done
        cases done
        exact ⟨[], rfl, by simp, by simp⟩
      · rintro ⟨more, empty, same, _⟩
        cases List.length_eq_zero_iff.1 empty
        exact congrArg Except.ok (Array.toList_inj.1 (by simpa using same.symm))
  | succ remaining inductionHypothesis =>
      rw [collectFrom]
      cases first : item index with
      | error failure =>
          constructor
          · intro done
            cases done
          · rintro ⟨more, length, _, items⟩
            have refused := items 0 (by omega)
            rw [Nat.add_zero, first] at refused
            cases refused
      | ok value =>
          show collectFrom item remaining (index + 1) (found.push value) = .ok all ↔ _
          rw [inductionHypothesis]
          constructor
          · rintro ⟨more, length, same, items⟩
            refine ⟨value :: more, by simp [length], by simp [same], ?_⟩
            rintro (_ | place) inside
            · exact first
            · rw [← Nat.add_assoc, Nat.add_right_comm]
              exact items place (Nat.lt_of_succ_lt_succ inside)
          · rintro ⟨more, length, same, items⟩
            cases more with
            | nil => cases length
            | cons head more =>
                have equal := items 0 (Nat.succ_pos _)
                rw [Nat.add_zero, first] at equal
                cases equal
                refine ⟨more, Nat.succ.inj length, by simpa using same, ?_⟩
                intro place inside
                rw [Nat.add_right_comm, Nat.add_assoc]
                exact items (place + 1) (Nat.succ_lt_succ inside)

/-- A collection succeeds with exactly the results of all its items. -/
theorem collect_eq_ok (item : Nat → Except ε α) (count : Nat) (all : Array α) :
    collect item count = .ok all ↔
      all.size = count ∧
        ∀ (index : Nat) (inside : index < all.size), item index = .ok all[index] := by
  rw [collect, collectFrom_eq_ok]
  constructor
  · rintro ⟨more, length, same, items⟩
    have whole : all = more.toArray := by
      rw [← Array.toList_inj]
      simpa using same
    subst whole
    refine ⟨by simpa using length, fun index inside => ?_⟩
    simpa using items index (by simpa using inside)
  · rintro ⟨size, items⟩
    refine ⟨all.toList, by simpa using size, by simp, fun place inside => ?_⟩
    rw [Nat.zero_add]
    exact items place (by simpa using inside)

end PointFree
