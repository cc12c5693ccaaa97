import PointFree.Proofs.Restoring.Data
import PointFree.Proofs.Spans.Passage

/-!
Contract: the written form of data is read as atoms.

`Adds` says that letters are read where more of the same written form comes after, and what they
leave in the row of the bracket that is open. The written form of data adds its strands: one atom
for a number, a character, a text or a list, and for other arrays the function that makes them
beside its arguments. A list opens one bracket more for its items.
-/

namespace PointFree

/-! ### Atoms -/

namespace Datum

/-- The atoms that a row of strands holds in the end. -/
def atomsOf (strands : List (List Atom)) : List Atom :=
  (strands.map Row.strandAtom).reverse

def listAtom (parts : List (List (List Atom))) : Atom :=
  .list (parts.map atomsOf)

/-- The number that the length of an axis is read as. -/
def axisNumber (axis : Nat) : Float :=
  Decimal.nearest axis 0

/-- The lengths of axes as one strand, the latest first. -/
def axesStrand (shape : Shape) : List Atom :=
  (shape.map fun axis => .number (axisNumber axis)).reverse

/-- The strands of an array, the latest first, given those of its items. -/
def arrayStrands (shape : Shape) (items : List Datum) (parts : List (List (List Atom))) :
    List (List Atom) :=
  match shape with
  | [] => parts.flatten ++ [[.primitive .less]]
  | [_] =>
      match text? items with
      | some text => [[.string (String.ofList text)]]
      | none => [[listAtom parts]]
  | axes => [[listAtom parts], [.primitive .reshape], axesStrand axes]

mutual

def strands : Datum → List (List Atom)
  | .number amount => [[.number (Decimal.restored amount)]]
  | .character letter => [[.character letter]]
  | .array shape items => arrayStrands shape items (strandsOfAll items)
termination_by structural datum => datum

def strandsOfAll : List Datum → List (List (List Atom))
  | [] => []
  | item :: items => item.strands :: strandsOfAll items
termination_by structural items => items

end

theorem strandsOfAll_eq (items : List Datum) : strandsOfAll items = items.map strands := by
  induction items with
  | nil => rfl
  | cons item items inductionHypothesis =>
      rw [strandsOfAll, inductionHypothesis, List.map_cons]

section

variable {shape : Shape} {items : List Datum}

theorem strands_boxed (content : Datum) :
    (array [] [content]).strands = content.strands ++ [[.primitive .less]] := by
  rw [strands, strandsOfAll_eq, List.map_singleton, arrayStrands, List.flatten_singleton]

theorem strands_text {text : List Char} (some : text ≠ []) (axis : Nat) :
    (array [axis] (text.map .character)).strands = [[.string (String.ofList text)]] := by
  rw [strands, arrayStrands, text?_map_character some]

theorem strands_list (none : text? items = none) (axis : Nat) :
    (array [axis] items).strands = [[listAtom (items.map strands)]] := by
  rw [strands, strandsOfAll_eq, arrayStrands, none]

theorem strands_table (several : 1 < shape.length) :
    (array shape items).strands =
      [[listAtom (items.map strands)], [.primitive .reshape], axesStrand shape] := by
  rw [strands, strandsOfAll_eq]
  match shape, several with
  | _ :: _ :: _, _ => rfl

end

/-- Data adds something to the row. -/
theorem IsLegible.strands_ne_nil {brackets : Nat} {datum : Datum}
    (legible : datum.IsLegible brackets) : datum.strands ≠ [] := by
  cases legible with
  | number => exact List.cons_ne_nil _ _
  | character => exact List.cons_ne_nil _ _
  | boxed => simp [strands_boxed]
  | text some => simp [strands_text some]
  | list none => simp [strands_list none]
  | table several => simp [strands_table several]

end Datum

/-! ### Rows -/

namespace Level

/-- The level of a statement or an element, with nothing to be tied. -/
def IsOpen (level : Level) : Prop :=
  level.isDivisible = true ∧ level.currentRow.tied = false

/-- The row has these strands more; a statement may have begun. -/
inductive Gains (strands : List (List Atom)) : Level → Level → Prop where
  | list {elements : List (List Atom)} {row : Row} :
      Gains strands (.list elements row) (.list elements ⟨strands ++ row.strands, false⟩)
  | block {statements : List RawStatement} {start start' : Nat} {row : Row} :
      Gains strands (.block statements start row)
        (.block statements start' ⟨strands ++ row.strands, false⟩)

variable {level level' level'' : Level} {strands strands' : List (List Atom)}

theorem Gains.isOpen (gains : Gains strands level level') : level'.IsOpen := by
  cases gains <;> exact ⟨rfl, rfl⟩

theorem Gains.isEmpty_eq (gains : Gains strands level level') (some : strands ≠ []) :
    level'.currentRow.strands.isEmpty = false := by
  cases gains <;> simp [currentRow, some]

theorem Gains.trans (gains : Gains strands level level') (more : Gains strands' level' level'') :
    Gains (strands' ++ strands) level level'' := by
  cases gains with
  | list =>
      cases more
      rw [← List.append_assoc]
      exact .list
  | block =>
      cases more
      rw [← List.append_assoc]
      exact .block

/-- An element that was read is finished. -/
theorem Gains.finishRow {elements : List (List Atom)}
    (gains : Gains strands (.list elements .empty) level') (some : strands ≠ []) (trimmed : Nat) :
    level'.finishRow trimmed = .list (Datum.atomsOf strands :: elements) .empty := by
  cases gains with
  | list =>
      rw [Level.finishRow, if_neg (by simp [Row.isFresh, some])]
      simp [Row.atoms, Row.empty, Datum.atomsOf]

/-- An atom that is not tied to the ones before. -/
theorem IsOpen.gains (isOpen : level.IsOpen) (position : Nat) (atom : Atom) :
    Gains [[atom]] level ((level.startAt position).mapRow (·.add atom)) := by
  cases level with
  | paren => cases isOpen.1
  | list elements row =>
      obtain ⟨strands, tied⟩ := row
      cases isOpen.2
      exact .list
  | block statements start row =>
      obtain ⟨strands, tied⟩ := row
      cases isOpen.2
      exact .block

/-- An atom that is tied to the latest one. -/
theorem Gains.tie {strand : List Atom} (gains : Gains (strand :: strands) level level')
    (position : Nat) (atom : Atom) :
    Gains ((atom :: strand) :: strands) level
      (((level'.mapRow Row.tie).startAt position).mapRow (·.add atom)) := by
  cases gains with
  | list => exact .list
  | block => exact .block

end Level

/-! ### Passages -/

/-- The letters are read where these come after, and add strands to the row at hand. -/
def Adds (first : Progress) (letters after : List Char) (strands : List (List Atom)) : Prop :=
  ∃ last, Reads first letters after last ∧ last.outer = first.outer ∧
    Level.Gains strands first.level last.level

namespace Adds

variable {first : Progress} {letters others after : List Char} {strands strands' : List (List Atom)}

theorem append (adds : Adds first letters (others ++ after) strands)
    (rest : ∀ middle : Progress, middle.outer = first.outer → middle.level.IsOpen →
      Adds middle others after strands') :
    Adds first (letters ++ others) after (strands' ++ strands) := by
  obtain ⟨middle, reads, outer, gains⟩ := adds
  obtain ⟨last, reads', outer', gains'⟩ := rest middle outer gains.isOpen
  exact ⟨last, reads.trans reads', outer'.trans outer, gains.trans gains'⟩

/-- A token is passed over whole. -/
theorem reads_token {token : Token} {levels : Level × List Level}
    (isToken : IsToken after letters token)
    (accepted : ∀ letter, first.level.accept (first.place letter token) first.outer = .ok levels) :
    Reads first letters after ((first.passAll letters).within levels) := by
  cases isToken with
  | mk noGap noComment scans => exact .token (.refl _) noGap noComment scans (accepted _)

theorem reads_atom {atom : Atom} (isToken : IsToken after letters (.atom atom)) :
    Reads first letters after ((first.passAll letters).within
      ((first.level.startAt first.position).mapRow (·.add atom), first.outer)) :=
  reads_token isToken fun _ => (Level.Accepts.atom rfl).accept

theorem atom {atom : Atom} (isToken : IsToken after letters (.atom atom))
    (isOpen : first.level.IsOpen) : Adds first letters after [[atom]] :=
  ⟨_, reads_atom isToken, rfl, isOpen.gains first.position atom⟩

theorem tie {digits : List Char} {atom : Atom} {strand : List Atom}
    (adds : Adds first letters ('‿' :: digits ++ after) (strand :: strands))
    (isToken : IsToken after digits (.atom atom)) :
    Adds first (letters ++ '‿' :: digits) after ((atom :: strand) :: strands) := by
  obtain ⟨middle, reads, outer, gains⟩ := adds
  have sign : IsToken (digits ++ after) ['‿'] .tie := .mk (by decide) (by decide) rfl
  have some := gains.isEmpty_eq (List.cons_ne_nil _ _)
  have ties : Reads middle ['‿'] (digits ++ after)
      ((middle.passAll ['‿']).within (middle.level.mapRow Row.tie, middle.outer)) :=
    reads_token sign fun _ => (Level.Accepts.tie rfl some gains.isOpen.2).accept
  exact ⟨_, reads.trans (Reads.trans ties (reads_atom isToken)), outer, gains.tie _ atom⟩

end Adds

/-! ### Parts of arrays -/

/-- The item can be read within the given number of open brackets. -/
def Datum.ReadsWithin (brackets : Nat) (item : Datum) : Prop :=
  ∀ {first : Progress} {after : List Char}, first.outer.length = brackets → first.level.IsOpen →
    Divides after → Adds first item.letters after item.strands

theorem isToken_of_primitive {primitive : Primitive} {letter : Char} (plain : letter ∉ Scan.signs)
    (noNumber : Scan.isDigit letter = false) (noName : Text.isAlphabetic letter = false)
    (noGap : isGap letter = false) (noComment : letter ≠ '#')
    (glyph : Scan.glyph letter = .token (.atom (.primitive primitive)) 0) (after : List Char) :
    IsToken after [letter] (.atom (.primitive primitive)) := by
  refine .mk noGap noComment ?_
  rw [Scan.ofLetter_of_not_mem plain, noNumber, noName]
  exact glyph

theorem isToken_less (after : List Char) : IsToken after ['<'] (.atom (.primitive .less)) :=
  isToken_of_primitive (by decide) (by decide) (by decide +kernel) (by decide) (by decide) rfl after

theorem isToken_reshape (after : List Char) : IsToken after ['⥊'] (.atom (.primitive .reshape)) :=
  isToken_of_primitive (by decide) (by decide) (by decide +kernel) (by decide) (by decide) rfl after

namespace Adds

variable {first : Progress} {letters after : List Char}

/-- The lengths of further axes are tied to those before. -/
theorem further_axes {shape : Shape} {strand : List Atom} {strands : List (List Atom)}
    (adds : Adds first letters
      (shape.flatMap (fun axis => '‿' :: Nat.toDigits 10 axis) ++ '⥊' :: after)
      (strand :: strands)) :
    Adds first (letters ++ shape.flatMap fun axis => '‿' :: Nat.toDigits 10 axis) ('⥊' :: after)
      ((Datum.axesStrand shape ++ strand) :: strands) := by
  induction shape generalizing letters strand with
  | nil =>
      rw [List.flatMap_nil, List.append_nil]
      exact adds
  | cons axis shape inductionHypothesis =>
      rw [List.flatMap_cons, List.append_assoc] at adds
      have divides :
          Divides (shape.flatMap (fun axis => '‿' :: Nat.toDigits 10 axis) ++ '⥊' :: after) := by
        cases shape with
        | nil => exact divides_cons (by decide) _
        | cons => exact divides_cons (by decide) _
      have adds := adds.tie (IsToken.axis axis divides)
      have whole := inductionHypothesis adds
      rw [List.append_assoc] at whole
      rw [List.flatMap_cons]
      have strands : Datum.axesStrand (axis :: shape) ++ strand =
          Datum.axesStrand shape ++ .number (Datum.axisNumber axis) :: strand := by
        simp [Datum.axesStrand]
      rw [strands]
      exact whole

theorem intercalate_tie (part : List Char) (parts : List (List Char)) :
    ['‿'].intercalate (part :: parts) = part ++ parts.flatMap ('‿' :: ·) := by
  induction parts generalizing part with
  | nil => simp
  | cons next parts inductionHypothesis =>
      rw [List.intercalate_cons_cons, inductionHypothesis, List.flatMap_cons]
      simp

theorem axes {shape : Shape} (some : shape ≠ []) (isOpen : first.level.IsOpen) :
    Adds first (['‿'].intercalate (shape.map (Nat.toDigits 10))) ('⥊' :: after)
      [Datum.axesStrand shape] := by
  obtain ⟨axis, shape, rfl⟩ := List.exists_cons_of_ne_nil some
  have divides :
      Divides (shape.flatMap (fun axis => '‿' :: Nat.toDigits 10 axis) ++ '⥊' :: after) := by
    cases shape with
    | nil => exact divides_cons (by decide) _
    | cons => exact divides_cons (by decide) _
  have whole := further_axes (atom (IsToken.axis axis divides) isOpen)
  rw [List.map_cons, intercalate_tie, List.flatMap_map]
  have strands : Datum.axesStrand (axis :: shape) =
      Datum.axesStrand shape ++ [.number (Datum.axisNumber axis)] := by
    simp [Datum.axesStrand]
  rw [strands]
  exact whole

/-! ### Lists -/

/-- The comma ends an element, and the blank after it is passed over. -/
theorem reads_comma (isOpen : first.level.IsOpen) (after : List Char) :
    ∃ middle, Reads first [',', ' '] after middle ∧ middle.outer = first.outer ∧
      middle.level = first.level.finishRow first.trimmed := by
  have comma : IsToken (' ' :: after) [','] .separator := .mk (by decide) (by decide) rfl
  have accepted (letter : Char) : first.level.accept (first.place letter .separator) first.outer =
      .ok (first.level.finishRow first.trimmed, first.outer) :=
    (Level.Accepts.separator rfl isOpen.1 isOpen.2).accept
  exact ⟨_, .gap (reads_token comma accepted) (by decide), rfl, rfl⟩

/-- Items up to the bracket that closes the list. -/
theorem reads_items {items : List Datum} {brackets : Nat}
    (reads : ∀ item ∈ items, item.ReadsWithin brackets)
    (some : ∀ item ∈ items, item.strands ≠ [])
    {first : Progress} {elements : List (List Atom)} (level : first.level = .list elements .empty)
    (outer : first.outer.length = brackets) (after : List Char) :
    ∃ last, Reads first ([',', ' '].intercalate (items.map Datum.letters)) ('⟩' :: after) last ∧
      last.outer = first.outer ∧ last.level.currentRow.tied = false ∧ ∀ trimmed,
        last.level.finishRow trimmed =
          .list ((items.map fun item => Datum.atomsOf item.strands).reverse ++ elements) .empty := by
  induction items generalizing first elements with
  | nil => exact ⟨first, .refl _, rfl, by rw [level]; rfl, fun trimmed => by rw [level]; rfl⟩
  | cons item items inductionHypothesis =>
      obtain ⟨read, reads⟩ := List.forall_mem_cons.1 reads
      obtain ⟨here, some⟩ := List.forall_mem_cons.1 some
      have isOpen : first.level.IsOpen := by
        rw [level]
        exact ⟨rfl, rfl⟩
      match items with
      | [] =>
          have adds : Adds first item.letters ('⟩' :: after) item.strands :=
            read outer isOpen (divides_cons (by decide) _)
          obtain ⟨last, reads', same, gains⟩ := adds
          rw [level] at gains
          rw [List.map_singleton, List.intercalate_singleton]
          exact ⟨last, reads', same, gains.isOpen.2, gains.finishRow here⟩
      | next :: rest =>
          let letters := [',', ' '].intercalate ((next :: rest).map Datum.letters)
          have adds : Adds first item.letters ([',', ' '] ++ letters ++ '⟩' :: after) item.strands :=
            read outer isOpen (divides_cons (by decide) _)
          obtain ⟨between, reads', same, gains⟩ := adds
          rw [level] at gains
          obtain ⟨beyond, comma, same', finished⟩ := reads_comma gains.isOpen (letters ++ '⟩' :: after)
          rw [gains.finishRow here] at finished
          obtain ⟨last, reads'', same'', free, finishes⟩ := inductionHypothesis reads some finished
            (by rw [same', same, outer])
          refine ⟨last, ?_, by rw [same'', same', same], free, fun trimmed => ?_⟩
          · rw [List.map_cons, List.map_cons, List.intercalate_cons_cons, List.append_assoc]
            exact reads'.trans (comma.trans reads'')
          · rw [finishes, List.map_cons (a := item), List.reverse_cons, List.append_assoc]
            rfl

/-- A list is read as one atom. -/
theorem list {items : List Datum} {brackets : Nat}
    (reads : ∀ item ∈ items, item.ReadsWithin (brackets + 1))
    (some : ∀ item ∈ items, item.strands ≠ []) (deep : brackets + 1 < nestingLimit)
    (outer : first.outer.length = brackets) (isOpen : first.level.IsOpen) :
    Adds first (Datum.listLetters (items.map Datum.letters)) after
      [[Datum.listAtom (items.map Datum.strands)]] := by
  have opening : IsToken ([',', ' '].intercalate (items.map Datum.letters) ++ ['⟩'] ++ after) ['⟨']
      (.opening .list) := .mk (by decide) (by decide) rfl
  have opened (letter : Char) :
      first.level.accept (first.place letter (.opening .list)) first.outer =
        .ok (.ofBracket .list, first.level.startAt first.position :: first.outer) :=
    (Level.Accepts.opening rfl (outer ▸ deep)).accept
  let inside : Progress := (first.passAll ['⟨']).within
    (.ofBracket .list, first.level.startAt first.position :: first.outer)
  have level : inside.level = .list [] .empty := rfl
  obtain ⟨last, reads', same, free, finishes⟩ :=
    reads_items reads some level (congrArg (· + 1) outer) after
  have closing : IsToken after ['⟩'] (.closing .list) := .mk (by decide) (by decide) rfl
  have atom : last.level.close? .list last.trimmed =
      Option.some (Datum.listAtom (items.map Datum.strands)) := by
    simp only [Level.close?, finishes, List.append_nil, List.reverse_reverse, Datum.listAtom,
      List.map_map]
    rfl
  have closed (letter : Char) : last.level.accept (last.place letter (.closing .list)) last.outer =
      .ok ((first.level.startAt first.position).mapRow
        (·.add (Datum.listAtom (items.map Datum.strands))), first.outer) :=
    (Level.Accepts.closing rfl free atom same).accept
  have last' := reads_token closing closed
  have whole := (reads_token opening opened).trans (reads'.trans last')
  exact ⟨_, whole, rfl, isOpen.gains first.position _⟩

end Adds

/-- The written form of data is read as its strands. -/
theorem Datum.IsLegible.readsWithin {brackets : Nat} {datum : Datum}
    (legible : datum.IsLegible brackets) {opened : Nat}
    (deep : opened + brackets < nestingLimit) : datum.ReadsWithin opened := by
  induction legible generalizing opened with
  | number isNumber _ =>
      intro first after _ isOpen divides
      rw [letters, strands]
      exact .atom (.number isNumber divides) isOpen
  | character letter =>
      intro first after _ isOpen _
      rw [letters, strands]
      exact .atom (.character letter) isOpen
  | @boxed _ content legible inductionHypothesis =>
      intro first after outer isOpen divides
      rw [letters_boxed, strands_boxed]
      exact (Adds.atom (isToken_less (content.letters ++ after)) isOpen).append fun middle same isOpen =>
        inductionHypothesis deep ((congrArg List.length same).trans outer) isOpen divides
  | text some plain =>
      intro first after _ isOpen divides
      rw [letters_text some, strands_text some]
      exact .atom (.text plain divides) isOpen
  | list none legible inductionHypothesis =>
      intro first after outer isOpen _
      rw [letters_list none, strands_list none]
      exact .list (fun item member => inductionHypothesis item member (by omega))
        (fun item member => (legible item member).strands_ne_nil) (by omega) outer isOpen
  | @table _ shape items several size filled small legible inductionHypothesis =>
      intro first after outer isOpen _
      have axes : shape ≠ [] := by
        rintro rfl
        cases several
      rw [letters_table several, strands_table several, axesLetters, List.append_assoc]
      change Adds first _ after
        ([[listAtom (items.map Datum.strands)], [.primitive .reshape]] ++ [axesStrand shape])
      refine (Adds.axes axes isOpen).append fun middle same isOpen => ?_
      change Adds middle _ after ([[listAtom (items.map Datum.strands)]] ++ [[.primitive .reshape]])
      refine (Adds.atom (isToken_reshape _) isOpen).append fun middle' same' isOpen => ?_
      have outer : middle'.outer.length = opened := by rw [same', same, outer]
      exact .list (fun item member => inductionHypothesis item member (by omega))
        (fun item member => (legible item member).strands_ne_nil) (by omega) outer isOpen

end PointFree
