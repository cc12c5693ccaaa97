import Mathlib.Data.List.Pairwise
import PointFree.Proofs.Compilation.Emission
import PointFree.Proofs.Spans.Faithful
import PointFree.Proofs.Spans.Roles

/-!
Contract: what the span of a statement says.

A span is the place of a text in the source. The text alone is a program of one statement, and
the statement of the source is that one with every span moved to its place. Within a block spans
come one after the other, and a statement of a function literal stands within the statement that
the literal is part of.
-/

namespace PointFree

/-! ### Bodies -/

namespace RawStatement

/-- Bodies of a statement stand within its span. -/
theorem Faithful.within {whole : List Char} {statement : RawStatement}
    (faithful : statement.Faithful whole) {body : List RawStatement}
    (member : body ∈ statement.bodies) {nested : RawStatement} (inside : nested ∈ body) :
    statement.span.start ≤ nested.span.start ∧ nested.span.stop ≤ statement.span.stop := by
  obtain ⟨before, text, after, alone, _, _, span, reads, rfl⟩ := faithful
  rw [span]
  rw [bodies_shift] at member
  obtain ⟨own, isOwn, rfl⟩ := List.mem_map.1 member
  obtain ⟨part, isPart, rfl⟩ := List.mem_map.1 inside
  have within : own ∈ bodiesWithin [alone] := List.mem_cons_of_mem _ (by simpa using isOwn)
  obtain ⟨ahead, mine, behind, _, same, _, place, _⟩ :=
    (orderly_of_rawStatements reads own within).faithful part isPart
  rw [String.toList_ofList] at same
  have length := congrArg byteLength same
  rw [byteLength_append] at length
  rw [span_shift, place, Span.shift, byteLength_append before]
  dsimp only
  omega

theorem span_of_read {raw : RawStatement} {statement : Statement}
    (reads : raw.read = .ok statement) : statement.span = some raw.span := by
  obtain ⟨atoms, span⟩ := raw
  rw [read] at reads
  obtain ⟨clause, _, rfl⟩ := Outcome.map_eq_ok.1 reads
  rfl

section ReadAll

variable {raws : List RawStatement} {statements : List Statement}

theorem readAll_cons {raw : RawStatement} (reads : readAll (raw :: raws) = .ok statements) :
    ∃ first rest, raw.read = .ok first ∧ readAll raws = .ok rest ∧ statements = first :: rest := by
  rw [readAll] at reads
  obtain ⟨first, here, reads⟩ := Outcome.bind_eq_ok.1 reads
  obtain ⟨rest, later, same⟩ := Outcome.bind_eq_ok.1 reads
  cases same
  exact ⟨first, rest, here, later, rfl⟩

theorem exists_of_readAll (reads : readAll raws = .ok statements) {statement : Statement}
    (member : statement ∈ statements) : ∃ raw ∈ raws, raw.read = .ok statement := by
  induction raws generalizing statements with
  | nil =>
      cases reads
      cases member
  | cons raw raws inductionHypothesis =>
      obtain ⟨first, rest, here, later, rfl⟩ := readAll_cons reads
      rcases List.mem_cons.1 member with rfl | member
      · exact ⟨raw, List.mem_cons_self, here⟩
      · obtain ⟨other, isOther, reads⟩ := inductionHypothesis later member
        exact ⟨other, List.mem_cons_of_mem _ isOther, reads⟩

theorem spans_of_readAll (reads : readAll raws = .ok statements) :
    statements.map Statement.span = raws.map fun raw => some raw.span := by
  induction raws generalizing statements with
  | nil =>
      cases reads
      rfl
  | cons raw raws inductionHypothesis =>
      obtain ⟨first, rest, here, later, rfl⟩ := readAll_cons reads
      rw [List.map_cons, List.map_cons, span_of_read here, inductionHypothesis later]

end ReadAll

end RawStatement

/-! ### Statements of a program -/

namespace Statement

/-- The span is the place of a text in the source, without blanks around it, that reads as this
one statement with its spans counted from the start of the text. -/
def Faithful (source : String) (statement : Statement) : Prop :=
  ∃ before text after alone, source.toList = before ++ text ++ after ∧ Trimmed text ∧
    statement.span = some ⟨byteLength before, byteLength (before ++ text)⟩ ∧
    Block.parse (String.ofList text) = .ok (.mk [alone]) ∧
    statement = alone.shift (byteLength before)

/-- The span ends before the other one starts. -/
def Precedes (earlier later : Statement) : Prop :=
  ∀ first ∈ earlier.span, ∀ second ∈ later.span, first.stop ≤ second.start

/-- The span lies inside the other one. -/
def Inside (nested enclosing : Statement) : Prop :=
  ∀ inner ∈ nested.span, ∀ outer ∈ enclosing.span,
    outer.start ≤ inner.start ∧ inner.stop ≤ outer.stop

/-- The literals in a statement are read from bodies of the statement. -/
theorem exists_body {raw : RawStatement} {statement : Statement} (reads : raw.read = .ok statement)
    {inner : Block} (part : .block inner ∈ statement.clause.parts) :
    ∃ body ∈ raw.bodies, RawStatement.readAll body = .ok inner.statements := by
  have alike := raw.read_alike 0
  rw [reads] at alike
  generalize (raw.shift 0).read = other at alike
  cases alike with
  | ok moved => exact moved.stem inner part

theorem faithful_of_read {source : String} {raw : RawStatement} {statement : Statement}
    (reads : raw.read = .ok statement) (faithful : raw.Faithful source.toList) :
    statement.Faithful source := by
  obtain ⟨before, text, after, alone, same, trimmed, place, single, rfl⟩ := faithful
  have span := RawStatement.span_of_read reads
  have alike := alone.read_alike (byteLength before)
  rw [reads] at alike
  generalize own : alone.read = outcome at alike
  cases alike with
  | @ok result _ moved =>
      refine ⟨before, text, after, result, same, trimmed, span.trans (congrArg some place), ?_,
        moved.shifted⟩
      have reads : RawStatement.readAll [alone] = .ok [result] := by
        rw [RawStatement.readAll, own]
        rfl
      rw [Block.parse, single]
      exact Outcome.bind_eq_ok.2 ⟨_, rfl, Outcome.bind_eq_ok.2 ⟨_, reads, rfl⟩⟩

end Statement

namespace Block

/-- Every body of the program is read from a body of the source. -/
theorem exists_body {raws : List RawStatement} {whole : Block} {around : List Block} {body : Block}
    (nests : whole.Nests around body) (reads : RawStatement.readAll raws = .ok whole.statements) :
    ∃ own ∈ RawStatement.bodiesWithin raws, RawStatement.readAll own = .ok body.statements := by
  induction nests with
  | whole => exact ⟨raws, List.mem_cons_self, reads⟩
  | literal _ member part inductionHypothesis =>
      obtain ⟨own, within, bodyReads⟩ := inductionHypothesis
      obtain ⟨raw, isRaw, rawReads⟩ :=
        RawStatement.exists_of_readAll bodyReads member
      obtain ⟨inner, inside, innerReads⟩ := Statement.exists_body rawReads part
      exact ⟨inner, RawStatement.mem_bodiesWithin_trans within isRaw inside, innerReads⟩

/-- A statement of a program that has been read stands at a text of the source. -/
theorem exists_text {source : String} {block : Block} (parses : parse source = .ok block)
    {around : List Block} {body : Block} (nests : block.Nests around body) {statement : Statement}
    (member : statement ∈ body.statements) :
    ∃ before text after, source.toList = before ++ text ++ after ∧
      statement.span = some ⟨byteLength before, byteLength (before ++ text)⟩ := by
  rw [parse] at parses
  obtain ⟨raws, isRaw, parses⟩ := Outcome.bind_eq_ok.1 parses
  obtain ⟨statements, reads, same⟩ := Outcome.bind_eq_ok.1 parses
  cases same
  obtain ⟨own, within, bodyReads⟩ := exists_body nests reads
  obtain ⟨raw, member, rawReads⟩ := RawStatement.exists_of_readAll bodyReads member
  obtain ⟨before, text, after, _, split, _, place, _⟩ :=
    (orderly_of_rawStatements isRaw own within).faithful raw member
  refine ⟨before, text, after, split, ?_⟩
  rw [RawStatement.span_of_read rawReads, place]

/-- Spans are faithful. In every block of a program that has been read from a source, each
statement is the reading of its text alone, statements come one after the other, and those in
function literals stand within the statement around them. -/
theorem parse_spans {source : String} {block : Block} (parses : parse source = .ok block)
    {around : List Block} {body : Block} (nests : block.Nests around body) :
    (∀ statement ∈ body.statements, statement.Faithful source) ∧
      body.statements.Pairwise Statement.Precedes ∧
      ∀ statement ∈ body.statements, ∀ inner, .block inner ∈ statement.clause.parts →
        ∀ nested ∈ inner.statements, nested.Inside statement := by
  rw [parse] at parses
  obtain ⟨raws, isRaw, parses⟩ := Outcome.bind_eq_ok.1 parses
  obtain ⟨statements, reads, same⟩ := Outcome.bind_eq_ok.1 parses
  cases same
  obtain ⟨own, within, bodyReads⟩ := exists_body nests reads
  have orderly := orderly_of_rawStatements isRaw own within
  refine ⟨fun statement member => ?_, ?_, fun statement member inner part nested isNested => ?_⟩
  · obtain ⟨raw, isRaw, rawReads⟩ := RawStatement.exists_of_readAll bodyReads member
    exact Statement.faithful_of_read rawReads (orderly.faithful raw isRaw)
  · have apart : (own.map fun raw => some raw.span).Pairwise fun earlier later =>
        ∀ first ∈ earlier, ∀ second ∈ later, first.stop ≤ second.start :=
      List.pairwise_map.2 (orderly.apart.imp fun precedes => by
        rintro _ ⟨⟩ _ ⟨⟩
        exact precedes)
    rw [← RawStatement.spans_of_readAll bodyReads] at apart
    exact apart.of_map Statement.span fun _ _ precedes => precedes
  · obtain ⟨raw, isRaw, rawReads⟩ := RawStatement.exists_of_readAll bodyReads member
    obtain ⟨literal, inside, literalReads⟩ := Statement.exists_body rawReads part
    obtain ⟨part, isPart, partReads⟩ :=
      RawStatement.exists_of_readAll literalReads isNested
    rintro inner isInner outer isOuter
    rw [RawStatement.span_of_read partReads] at isInner
    rw [RawStatement.span_of_read rawReads] at isOuter
    cases isInner
    cases isOuter
    exact (orderly.faithful raw isRaw).within inside isPart

/-- A program with a function literal, a comment that holds a separator, and a string that holds
a bracket. -/
theorem parse_spans_literal :
    ∃ source block, source = "  F ← \x7b𝕩 # ⋄ é\n \"\x7d\"⋄ \x7d , x" ∧ parse source = .ok block ∧
      block.literals = 1 ∧ block.statements.map Statement.span = [some ⟨2, 32⟩, some ⟨35, 36⟩] ∧
      ∀ around body, block.Nests around body →
        (∀ statement ∈ body.statements, statement.Faithful source) ∧
          body.statements.Pairwise Statement.Precedes ∧
          ∀ statement ∈ body.statements, ∀ inner, .block inner ∈ statement.clause.parts →
            ∀ nested ∈ inner.statements, nested.Inside statement := by
  have computed : (parse "  F ← \x7b𝕩 # ⋄ é\n \"\x7d\"⋄ \x7d , x").toOption.map
      (fun block => (block.literals, block.statements.map Statement.span)) =
        some (1, [some ⟨2, 32⟩, some ⟨35, 36⟩]) := by decide +kernel
  obtain ⟨block, isBlock, found⟩ := Option.map_eq_some_iff.1 computed
  obtain ⟨literals, spans⟩ := Prod.mk.inj found
  have parses := Outcome.eq_ok_of_toOption isBlock
  exact ⟨_, block, rfl, parses, literals, spans, fun _ _ nests => parse_spans parses nests⟩

end Block

end PointFree
