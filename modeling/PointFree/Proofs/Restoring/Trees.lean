import Mathlib.Data.List.TakeDrop
import Mathlib.Data.List.TakeWhile
import PointFree.Proofs.Restoring.Reading
import PointFree.Surface.Reading

/-!
Contract: the tree of the written form of data.

The strands of data become terms, the latest of which is a value; what stands before it is applied
to it. Where a function comes before the whole, it is applied to all of it, since every function
that is written takes what is written after it. So the written form is one statement, with
the tree `Datum.expression`.
-/

namespace PointFree

namespace Datum

/-- The tree of an array, given those of its items. -/
def arrayExpression (shape : Shape) (items : List Datum) (parts : List Expression) : Expression :=
  match shape with
  | [] => .call (.primitive "<") (parts.headD (.list []))
  | [_] =>
      match text? items with
      | some text => .string (String.ofList text)
      | none => .list parts
  | axes =>
      .callBoth (.primitive "⥊") (.list (axes.map fun axis => .number (axisNumber axis)))
        (.list parts)

mutual

def expression : Datum → Expression
  | .number amount => .number (Decimal.restored amount)
  | .character letter => .character letter
  | .array shape items => arrayExpression shape items (expressionsOfAll items)
termination_by structural datum => datum

def expressionsOfAll : List Datum → List Expression
  | [] => []
  | item :: items => item.expression :: expressionsOfAll items
termination_by structural items => items

end

theorem expressionsOfAll_eq (items : List Datum) : expressionsOfAll items = items.map expression := by
  induction items with
  | nil => rfl
  | cons item items inductionHypothesis =>
      exact congrArg (item.expression :: ·) inductionHypothesis

section

variable {shape : Shape} {items : List Datum}

theorem expression_array (shape : Shape) (items : List Datum) :
    (array shape items).expression = arrayExpression shape items (items.map expression) :=
  congrArg (arrayExpression shape items) (expressionsOfAll_eq items)

theorem expression_boxed (content : Datum) :
    (array [] [content]).expression = .call (.primitive "<") content.expression :=
  expression_array [] [content]

theorem expression_text {text : List Char} (some : text ≠ []) (axis : Nat) :
    (array [axis] (text.map .character)).expression = .string (String.ofList text) := by
  rw [expression_array, arrayExpression, text?_map_character some]

theorem expression_list (none : text? items = none) (axis : Nat) :
    (array [axis] items).expression = .list (items.map expression) := by
  rw [expression_array, arrayExpression, none]

theorem expression_table (several : 1 < shape.length) :
    (array shape items).expression =
      .callBoth (.primitive "⥊") (.list (shape.map fun axis => .number (axisNumber axis)))
        (.list (items.map expression)) := by
  rw [expression_array]
  match shape, several with
  | _ :: _ :: _, _ => rfl

end

end Datum

/-! ### Terms -/

/-- The strand is a term. -/
def IsTerm (strand : List Atom) (term : Term) : Prop :=
  (Row.strandAtom strand).item = .ok (.term term)

theorem bindModifiers_terms (terms earlier : List Term) :
    bindModifiers (terms.map .term) earlier = .ok (terms.reverse ++ earlier) := by
  induction terms generalizing earlier with
  | nil => rfl
  | cons term terms inductionHypothesis =>
      rw [List.map_cons, bindModifiers, inductionHypothesis, List.reverse_cons, List.append_assoc]
      rfl

theorem Atom.readings_eq (atoms : List Atom) :
    Atom.readings atoms = atoms.map fun atom => (atom, atom.item) := by
  induction atoms with
  | nil => rfl
  | cons atom atoms inductionHypothesis =>
      exact congrArg ((atom, atom.item) :: ·) inductionHypothesis

/-- Strands that are terms make up what the terms do. -/
theorem readings_term {strands : List (List Atom)} {terms : List Term}
    (areTerms : List.Forall₂ IsTerm strands terms) :
    (Atom.readings (Datum.atomsOf strands)).term = termOfTerms terms := by
  have items : (Atom.readings (Datum.atomsOf strands)).mapM Prod.snd =
      (.ok (terms.reverse.map Item.term) : Outcome (List Item)) := by
    rw [Atom.readings_eq, Datum.atomsOf]
    have reversed := List.rel_reverse areTerms
    rw [← List.map_reverse]
    generalize strands.reverse = strands at reversed
    generalize terms.reverse = terms at reversed
    induction reversed with
    | nil => rfl
    | cons isTerm _ inductionHypothesis =>
        rw [List.map_cons, List.map_cons, List.mapM_cons, inductionHypothesis,
          show (Row.strandAtom _).item = _ from isTerm]
        rfl
  rw [Readings.term, items]
  change (bindModifiers (terms.reverse.map Item.term) []).bind termOfTerms = _
  rw [bindModifiers_terms, List.reverse_reverse, List.append_nil]
  rfl

/-- The terms of data: the latest is a value, and together with those before it, it is the value of
the whole, whatever functions come before. -/
def Datum.IsSpelled (datum : Datum) : Prop :=
  ∃ right rest, List.Forall₂ IsTerm datum.strands (⟨right, .data⟩ :: rest) ∧
    ∀ outer : List Term, (∀ term ∈ outer.head?, term.role = .function) →
      application right (rest ++ outer) = application datum.expression outer

theorem Datum.IsSpelled.alone {datum : Datum} {atom : Atom}
    (strands : datum.strands = [[atom]])
    (item : atom.item = .ok (.term ⟨datum.expression, .data⟩)) : datum.IsSpelled := by
  refine ⟨datum.expression, [], ?_, fun _ _ => rfl⟩
  rw [strands]
  exact .cons item .nil

/-- A function takes all that comes after it. -/
theorem application_function {right function : Expression} {outer : List Term}
    (functions : ∀ term ∈ outer.head?, term.role = .function) :
    application right (⟨function, .function⟩ :: outer) = application (.call function right) outer := by
  match outer with
  | [] => rfl
  | ⟨_, .function⟩ :: _ => rfl
  | ⟨_, .data⟩ :: _ => cases functions _ rfl

/-- What is spelled is read as its tree. -/
theorem Datum.IsSpelled.term {datum : Datum} (spelled : datum.IsSpelled) :
    (Atom.readings (atomsOf datum.strands)).term = .ok ⟨datum.expression, .data⟩ := by
  obtain ⟨right, rest, areTerms, applies⟩ := spelled
  rw [readings_term areTerms, termOfTerms, ← List.append_nil rest, applies [] nofun]
  rfl

theorem elementExpressions_eq {items : List Datum} (spelled : ∀ item ∈ items, item.IsSpelled) :
    Atom.elementExpressions ((items.map Datum.strands).map Datum.atomsOf) =
      .ok (items.map Datum.expression) := by
  induction items with
  | nil => rfl
  | cons item items inductionHypothesis =>
      obtain ⟨here, later⟩ := List.forall_mem_cons.1 spelled
      rw [List.map_cons, List.map_cons, List.map_cons, Atom.elementExpressions,
        inductionHypothesis later, Readings.expression, here.term]
      rfl

theorem item_listAtom {items : List Datum} (spelled : ∀ item ∈ items, item.IsSpelled) :
    (Datum.listAtom (items.map Datum.strands)).item =
      .ok (.term ⟨.list (items.map Datum.expression), .data⟩) := by
  rw [Datum.listAtom, Atom.item, elementExpressions_eq spelled]
  rfl

theorem strandExpressions_axes (shape : Shape) :
    Atom.strandExpressions (shape.map fun axis => .number (Datum.axisNumber axis)) =
      .ok (shape.map fun axis => .number (Datum.axisNumber axis)) := by
  induction shape with
  | nil => rfl
  | cons axis shape inductionHypothesis =>
      rw [List.map_cons, Atom.strandExpressions, inductionHypothesis]
      rfl

theorem strandAtom_of_length {strand : List Atom} (several : 1 < strand.length) :
    Row.strandAtom strand = .strand strand.reverse := by
  match strand, several with
  | _ :: _ :: _, _ => rfl

theorem isTerm_axes {shape : Shape} (several : 1 < shape.length) :
    IsTerm (Datum.axesStrand shape)
      ⟨.list (shape.map fun axis => .number (Datum.axisNumber axis)), .data⟩ := by
  have strand : Row.strandAtom (Datum.axesStrand shape) =
      .strand (shape.map fun axis => .number (Datum.axisNumber axis)) := by
    rw [strandAtom_of_length (by simpa [Datum.axesStrand] using several), Datum.axesStrand,
      List.reverse_reverse]
  rw [IsTerm, strand, Atom.item, strandExpressions_axes]
  rfl

theorem Datum.IsLegible.isSpelled {brackets : Nat} {datum : Datum}
    (legible : datum.IsLegible brackets) : datum.IsSpelled := by
  induction legible with
  | number => exact .alone (by rw [strands]) (by rw [expression]; rfl)
  | character => exact .alone (by rw [strands]) (by rw [expression]; rfl)
  | text some _ => exact .alone (strands_text some _) (by rw [expression_text some]; rfl)
  | list none _ inductionHypothesis =>
      refine .alone (strands_list none _) ?_
      rw [expression_list none]
      exact item_listAtom inductionHypothesis
  | @boxed _ content _ inductionHypothesis =>
      obtain ⟨right, rest, areTerms, applies⟩ := inductionHypothesis
      refine ⟨right, rest ++ [⟨.primitive "<", .function⟩], ?_, fun outer functions => ?_⟩
      · rw [strands_boxed]
        exact List.rel_append areTerms (.cons rfl .nil)
      · rw [expression_boxed, List.append_assoc, List.singleton_append,
          applies _ (by rintro _ ⟨⟩; rfl), application_function functions]
  | @table _ shape items several _ _ _ _ inductionHypothesis =>
      refine ⟨.list (items.map expression), [⟨.primitive "⥊", .function⟩,
        ⟨.list (shape.map fun axis => .number (axisNumber axis)), .data⟩], ?_, fun outer _ => ?_⟩
      · rw [strands_table several]
        exact .cons (item_listAtom inductionHypothesis) (.cons rfl (.cons (isTerm_axes several) .nil))
      · rw [expression_table several]
        rfl

/-! ### Statements -/

/-- An atom that is a term divides no statement. -/
theorem undivided_of_term {atom : Atom} {term : Term} (item : atom.item = .ok (.term term)) :
    isGuard atom = false ∧ isArrow atom = false := by
  cases atom <;> first | exact ⟨rfl, rfl⟩ | cases item

/-- What is spelled is a statement of its own. -/
theorem Datum.IsSpelled.clause {datum : Datum} (spelled : datum.IsSpelled) :
    (Atom.readings (atomsOf datum.strands)).clause = .ok (.expression datum.expression) := by
  have undivided : ∀ reading ∈ Atom.readings (atomsOf datum.strands),
      isGuard reading.1 = false ∧ isArrow reading.1 = false := by
    obtain ⟨right, rest, areTerms, _⟩ := spelled
    intro reading member
    rw [Atom.readings_eq, atomsOf] at member
    simp only [List.mem_map, List.mem_reverse] at member
    obtain ⟨_, ⟨strand, isStrand, rfl⟩, rfl⟩ := member
    obtain ⟨term, _, isTerm⟩ := Correspondence.exists_of_forall₂ areTerms isStrand
    exact undivided_of_term isTerm
  have spans (test : Atom → Bool) (none : ∀ reading ∈ Atom.readings (atomsOf datum.strands),
      test reading.1 = false) :
      (Atom.readings (atomsOf datum.strands)).span (fun reading => !test reading.1) =
        (Atom.readings (atomsOf datum.strands), []) := by
    have passes : ∀ reading ∈ Atom.readings (atomsOf datum.strands), (!test reading.1) = true :=
      fun reading member => by rw [none reading member]; rfl
    rw [List.span_eq_takeWhile_dropWhile, List.takeWhile_eq_self_iff.2 passes,
      List.dropWhile_eq_nil_iff.2 passes]
  rw [Readings.clause, spans isGuard fun reading member => (undivided reading member).1]
  dsimp only
  rw [spans isArrow fun reading member => (undivided reading member).2]
  dsimp only
  rw [Readings.expression, spelled.term]
  rfl

/-- The written form of data is a program of one statement. -/
theorem Datum.IsLegible.parse {brackets : Nat} {datum : Datum} (legible : datum.IsLegible brackets)
    (deep : brackets < nestingLimit) :
    ∃ span, Block.parse (String.ofList datum.letters) =
      .ok (.mk [.mk (.expression datum.expression) (some span)]) := by
  have readsWithin : datum.ReadsWithin 0 := legible.readsWithin (by omega)
  have adds : Adds Progress.start datum.letters [] datum.strands :=
    readsWithin rfl ⟨rfl, rfl⟩ divides_nil
  obtain ⟨last, reads, outer, gains⟩ := adds
  obtain ⟨position, trimmed, level, around⟩ := last
  obtain rfl : around = [] := outer
  have raw : rawStatements (String.ofList datum.letters) =
      Progress.finish ⟨position, trimmed, level, []⟩ := by
    rw [← Progress.resume_start, String.toList_ofList, ← List.append_nil datum.letters,
      reads.resume_eq, Progress.resume_nil]
  have level' : Level.Gains datum.strands (.block [] 0 .empty) level := gains
  cases level' with
  | @block _ _ start _ =>
      refine ⟨⟨start, trimmed⟩, ?_⟩
      have finished : Progress.finish ⟨position, trimmed,
          .block [] start ⟨datum.strands ++ Row.empty.strands, false⟩, []⟩ =
            .ok [.mk (atomsOf datum.strands) ⟨start, trimmed⟩] := by
        simp [Progress.finish, Level.finish, Level.currentRow, Level.finishRow, Row.isFresh,
          legible.strands_ne_nil, Row.empty, Row.atoms, atomsOf]
      rw [Block.parse, raw, finished]
      change (RawStatement.readAll [.mk (atomsOf datum.strands) ⟨start, trimmed⟩]).bind _ = _
      rw [RawStatement.readAll, RawStatement.read, legible.isSpelled.clause]
      rfl

end PointFree
