import PointFree.Proofs.Interchange
import PointFree.Proofs.Restoring.Trees
import PointFree.Proofs.Spans

/-!
Contract: which programs that are read from a source survive as documents.

A source is read whatever its numbers are and however deep its tree is, as long as its brackets do
not nest too deeply. The document it is written as comes back only if it does not nest too deeply
itself and all its numbers are finite and are read as themselves. The places of statements are no
obstacle: they are within the source, so they are words.
-/

namespace PointFree

/-! ### How deep a document nests -/

namespace Json

mutual

/-- The number of lists and objects that are open at once. -/
def depth : Json → Nat
  | .list items => depthOfAll items + 1
  | .object fields => depthOfFields fields + 1
  | _ => 0
termination_by structural json => json

def depthOfAll : List Json → Nat
  | [] => 0
  | item :: items => max item.depth (depthOfAll items)
termination_by structural items => items

def depthOfFields : List (String × Json) → Nat
  | [] => 0
  | (_, value) :: fields => max value.depth (depthOfFields fields)
termination_by structural fields => fields

end

mutual

/-- What is written as a natural number. -/
def naturals : Json → List Nat
  | .number _ (some natural) => [natural]
  | .list items => naturalsOfAll items
  | .object fields => naturalsOfFields fields
  | _ => []
termination_by structural json => json

def naturalsOfAll : List Json → List Nat
  | [] => []
  | item :: items => item.naturals ++ naturalsOfAll items
termination_by structural items => items

def naturalsOfFields : List (String × Json) → List Nat
  | [] => []
  | (_, value) :: fields => value.naturals ++ naturalsOfFields fields
termination_by structural fields => fields

end

@[simp] theorem naturals_null : null.naturals = [] :=
  rfl

@[simp] theorem naturals_string (text : String) : (string text).naturals = [] :=
  rfl

@[simp] theorem naturals_ofNat (natural : Nat) : (ofNat natural).naturals = [natural] :=
  rfl

@[simp] theorem naturals_list (items : List Json) :
    (list items).naturals = naturalsOfAll items :=
  rfl

@[simp] theorem naturals_object (fields : List (String × Json)) :
    (object fields).naturals = naturalsOfFields fields :=
  rfl

@[simp] theorem naturalsOfAll_nil : naturalsOfAll [] = [] :=
  rfl

@[simp] theorem naturalsOfAll_cons (item : Json) (items : List Json) :
    naturalsOfAll (item :: items) = item.naturals ++ naturalsOfAll items :=
  rfl

@[simp] theorem naturalsOfFields_nil : naturalsOfFields [] = [] :=
  rfl

@[simp] theorem naturalsOfFields_cons (key : String) (value : Json)
    (fields : List (String × Json)) :
    naturalsOfFields ((key, value) :: fields) = value.naturals ++ naturalsOfFields fields :=
  rfl

mutual

theorem fits_iff_depth (json : Json) (room : Nat) :
    json.Fits room ↔ json.depth ≤ room ∧ ∀ natural ∈ json.naturals, natural ≤ Decimal.wordMax := by
  match json with
  | .null | .truth _ | .string _ | .number _ none | .number _ (some _) =>
      simp [Fits, depth, naturals]
  | .list items =>
      rw [Fits, depth, naturals, allFit_iff_depth items]
      exact and_assoc.symm.trans (and_congr_left' (by omega))
  | .object fields =>
      rw [Fits, depth, naturals, fieldsFit_iff_depth fields]
      exact and_assoc.symm.trans (and_congr_left' (by omega))
termination_by structural json

theorem allFit_iff_depth (items : List Json) (room : Nat) :
    AllFit room items ↔
      depthOfAll items ≤ room ∧ ∀ natural ∈ naturalsOfAll items, natural ≤ Decimal.wordMax := by
  match items with
  | [] => simp [AllFit, depthOfAll, naturalsOfAll]
  | item :: items =>
      rw [AllFit, depthOfAll, naturalsOfAll, List.forall_mem_append, Nat.max_le, fits_iff_depth item,
        allFit_iff_depth items]
      exact and_and_and_comm
termination_by structural items

theorem fieldsFit_iff_depth (fields : List (String × Json)) (room : Nat) :
    FieldsFit room fields ↔
      depthOfFields fields ≤ room ∧
        ∀ natural ∈ naturalsOfFields fields, natural ≤ Decimal.wordMax := by
  match fields with
  | [] => simp [FieldsFit, depthOfFields, naturalsOfFields]
  | (_, value) :: fields =>
      rw [FieldsFit, depthOfFields, naturalsOfFields, List.forall_mem_append, Nat.max_le,
        fits_iff_depth value, fieldsFit_iff_depth fields]
      exact and_and_and_comm
termination_by structural fields

end

end Json

/-! ### The places in a program -/

section Places

variable {whole : Block} {holds : Nat → Prop}

theorem forall_mem_naturals_optionalSpanToJson {place : Option Span}
    (known : ∀ span ∈ place, holds span.start ∧ holds span.stop) :
    ∀ natural ∈ (optionalSpanToJson place).naturals, holds natural := by
  cases place with
  | none => exact nofun
  | some span =>
      simpa [optionalSpanToJson, Span.toJson] using known span rfl

mutual

theorem Target.naturals_toJson (target : Target) : target.toJson.naturals = [] := by
  match target with
  | .name word => rfl
  | .list targets =>
      simp [toJson, Target.naturals_toJsons targets]
termination_by structural target

theorem Target.naturals_toJsons (targets : List Target) :
    Json.naturalsOfAll (toJsons targets) = [] := by
  match targets with
  | [] => rfl
  | target :: targets =>
      simp [toJsons, target.naturals_toJson, Target.naturals_toJsons targets]
termination_by structural targets

end

/-- The places of all statements, those in function literals included, have the property. -/
def Block.PlacesHold (whole : Block) (holds : Nat → Prop) : Prop :=
  ∀ around body, whole.Nests around body → ∀ statement ∈ body.statements,
    ∀ span ∈ statement.span, holds span.start ∧ holds span.stop

/-- Every function literal among the parts stands in the whole. -/
def Block.Contains (whole : Block) (parts : List Expression) : Prop :=
  ∀ inner, .block inner ∈ parts → ∃ around, whole.Nests around inner

theorem Block.Contains.append {parts more : List Expression}
    (contains : whole.Contains (parts ++ more)) : whole.Contains parts ∧ whole.Contains more :=
  ⟨fun inner part => contains inner (List.mem_append_left _ part),
    fun inner part => contains inner (List.mem_append_right _ part)⟩

theorem Block.Contains.tail {first : Expression} {parts : List Expression}
    (contains : whole.Contains (first :: parts)) : whole.Contains parts :=
  fun inner part => contains inner (List.mem_cons_of_mem first part)

theorem Clause.contains_operands {clause : Clause} (contains : whole.Contains clause.parts) :
    ∀ operand ∈ clause.operands, whole.Contains operand.parts :=
  fun operand member inner part => contains inner (List.mem_flatMap.2 ⟨operand, member, part⟩)

mutual

theorem Expression.forall_mem_naturals (places : whole.PlacesHold holds) (expression : Expression)
    (contains : whole.Contains expression.parts) :
    ∀ natural ∈ expression.toJson.naturals, holds natural := by
  match expression with
  | .number _ | .character _ | .string _ | .name _ | .primitive _ | .implicit _ => exact nofun
  | .list items =>
      simpa [Expression.toJson] using
        Expression.forall_mem_naturalsOfAll places items contains.tail
  | .call function right =>
      obtain ⟨inRight, inFunction⟩ := contains.tail.append
      simpa [Expression.toJson, or_imp, forall_and] using And.intro
        (function.forall_mem_naturals places inFunction) (right.forall_mem_naturals places inRight)
  | .callBoth function left right =>
      obtain ⟨others, inLeft⟩ := contains.tail.append
      obtain ⟨inRight, inFunction⟩ := others.append
      simpa [Expression.toJson, or_imp, forall_and] using
        And.intro (function.forall_mem_naturals places inFunction) <|
          And.intro (left.forall_mem_naturals places inLeft)
            (right.forall_mem_naturals places inRight)
  | .modifyOne _ operand =>
      simpa [Expression.toJson] using operand.forall_mem_naturals places contains.tail
  | .modifyTwo _ left right | .atop left right =>
      obtain ⟨inRight, inLeft⟩ := contains.tail.append
      simpa [Expression.toJson, or_imp, forall_and] using And.intro
        (left.forall_mem_naturals places inLeft) (right.forall_mem_naturals places inRight)
  | .fork left middle right =>
      obtain ⟨others, inLeft⟩ := contains.tail.append
      obtain ⟨inRight, inMiddle⟩ := others.append
      simpa [Expression.toJson, or_imp, forall_and] using
        And.intro (left.forall_mem_naturals places inLeft) <|
          And.intro (middle.forall_mem_naturals places inMiddle)
            (right.forall_mem_naturals places inRight)
  | .block body =>
      obtain ⟨around, nests⟩ := contains body (List.mem_singleton_self _)
      simpa [Expression.toJson] using body.forall_mem_naturals places nests
termination_by structural expression

theorem Expression.forall_mem_naturalsOfAll (places : whole.PlacesHold holds)
    (items : List Expression) (contains : whole.Contains (Expression.partsOfAll items)) :
    ∀ natural ∈ Json.naturalsOfAll (Expression.toJsons items), holds natural := by
  match items with
  | [] => exact nofun
  | item :: items =>
      obtain ⟨inItem, inItems⟩ := contains.append
      exact List.forall_mem_append.2 ⟨item.forall_mem_naturals places inItem,
        Expression.forall_mem_naturalsOfAll places items inItems⟩
termination_by structural items

theorem Clause.forall_mem_naturals (places : whole.PlacesHold holds) (clause : Clause)
    (contains : whole.Contains clause.parts) :
    ∀ natural ∈ clause.toJson.naturals, holds natural := by
  have operands := Clause.contains_operands contains
  match clause with
  | .expression result =>
      simpa [Clause.toJson] using result.forall_mem_naturals places (operands _ (.head _))
  | .define target value | .assign target value =>
      simpa [Clause.toJson, target.naturals_toJson] using
        value.forall_mem_naturals places (operands _ (.head _))
  | .modify _ function none =>
      simpa [Clause.toJson] using function.forall_mem_naturals places (operands _ (.head _))
  | .modify _ function (some argument) =>
      simpa [Clause.toJson, or_imp, forall_and] using And.intro
        (function.forall_mem_naturals places (operands _ (.tail _ (.head _))))
        (argument.forall_mem_naturals places (operands _ (.head _)))
  | .guard test fallback =>
      simpa [Clause.toJson, or_imp, forall_and] using And.intro
        (test.forall_mem_naturals places (operands _ (.head _)))
        (fallback.forall_mem_naturals places (operands _ (.tail _ (.head _))))
termination_by structural clause

theorem Statement.forall_mem_naturals (places : whole.PlacesHold holds) (statement : Statement)
    {around : List Block} {body : Block} (nests : whole.Nests around body)
    (member : statement ∈ body.statements) :
    ∀ natural ∈ statement.toJson.naturals, holds natural := by
  match statement with
  | .mk clause place =>
      have contains : whole.Contains clause.parts :=
        fun inner part => ⟨_, nests.literal member part⟩
      have known : ∀ span ∈ place, holds span.start ∧ holds span.stop :=
        places around body nests _ member
      simpa [Statement.toJson, or_imp, forall_and] using And.intro
        (clause.forall_mem_naturals places contains)
        (forall_mem_naturals_optionalSpanToJson known)
termination_by structural statement

theorem Statement.forall_mem_naturalsOfAll (places : whole.PlacesHold holds)
    (statements : List Statement) {around : List Block} {body : Block}
    (nests : whole.Nests around body)
    (members : ∀ statement ∈ statements, statement ∈ body.statements) :
    ∀ natural ∈ Json.naturalsOfAll (Statement.toJsons statements), holds natural := by
  match statements with
  | [] => exact nofun
  | statement :: statements =>
      obtain ⟨member, members⟩ := List.forall_mem_cons.1 members
      exact List.forall_mem_append.2 ⟨statement.forall_mem_naturals places nests member,
        Statement.forall_mem_naturalsOfAll places statements nests members⟩
termination_by structural statements

/-- The natural numbers in a program are the places of its statements. -/
theorem Block.forall_mem_naturals (places : whole.PlacesHold holds) (body : Block)
    {around : List Block} (nests : whole.Nests around body) :
    ∀ natural ∈ body.toJson.naturals, holds natural := by
  match body with
  | .mk statements =>
      simpa [Block.toJson] using Statement.forall_mem_naturalsOfAll places statements nests
        fun _ member => member
termination_by structural body

end

end Places

/-! ### Programs that have been read -/

namespace Block

variable {source : String} {block : Block} {change : Float → Float}

/-- Statements start and stop within the source. -/
theorem placesHold_of_parse (parses : parse source = .ok block) :
    block.PlacesHold (· ≤ byteLength source.toList) := by
  intro around body nests statement member span isSpan
  obtain ⟨before, text, after, split, place⟩ := exists_text parses nests member
  rw [place] at isSpan
  cases isSpan
  rw [split, byteLength_append, byteLength_append]
  dsimp only
  omega

/-- A program that has been read fits the limit if its document does not nest deeper. -/
theorem fits_iff_of_parse (parses : parse source = .ok block)
    (short : byteLength source.toList ≤ Decimal.wordMax) (room : Nat) :
    block.toJson.Fits room ↔ block.toJson.depth ≤ room := by
  have naturals := forall_mem_naturals (placesHold_of_parse parses) block .whole
  rw [Json.fits_iff_depth]
  exact and_iff_left fun natural member => (naturals natural member).trans short

/-- Of the programs that are read from a source, those come back from the document they are written
as that nest no deeper than the limit on documents, and whose numbers are finite and are read as
themselves. -/
theorem ofDocument_documentText_iff (parses : parse source = .ok block)
    (short : byteLength source.toList ≤ Decimal.wordMax)
    (rereads : ∀ number ∈ block.numbers, Json.RereadsIfFinite number (change number)) :
    ofDocument block.documentText = .ok block ↔
      block.toJson.depth ≤ Json.nestingLimit ∧
        ∀ number ∈ block.numbers, Decimal.isFinite number = true ∧ change number = number := by
  rw [← fits_iff_of_parse parses short]
  constructor
  · intro comesBack
    have fits := fits_of_ofDocument comesBack
    rw [ofDocument_documentText_of_fits fits rereads] at comesBack
    split at comesBack
    · next finite =>
        have same := block.mapNumbers_eq_self_iff.1 (Except.ok.inj comesBack)
        exact ⟨fits, fun number member => ⟨finite number member, same number member⟩⟩
    · cases comesBack
  · rintro ⟨fits, survive⟩
    have finite (number : Float) (member : number ∈ block.numbers) :
        Decimal.isFinite number = true := (survive number member).1
    have same (number : Float) (member : number ∈ block.numbers) : change number = number :=
      (survive number member).2
    rw [ofDocument_documentText_of_fits fits rereads, if_pos finite,
      block.mapNumbers_eq_self_iff.2 same]

/-- An infinity is read from a source, but not from the document that it is written as. -/
theorem infinity_is_lost : ∃ block, parse "∞" = .ok block ∧
    ofDocument block.documentText = refuse .invalidProgram := by
  have infinite : Decimal.isFinite Decimal.infinity = false := by decide +kernel
  have parses : parse "∞" =
      .ok (.mk [.mk (.expression (.number Decimal.infinity)) (some ⟨0, 3⟩)]) := rfl
  refine ⟨_, parses, ?_⟩
  have fits := (fits_iff_of_parse parses (by decide) Json.nestingLimit).2 (by decide)
  have numbers (number : Float) (member : number ∈ [Decimal.infinity]) :
      Decimal.isFinite number = false := by
    rw [List.mem_singleton.1 member, infinite]
  have rereads (number : Float) (member : number ∈ [Decimal.infinity]) :
      Json.RereadsIfFinite number (id number) :=
    fun finite => absurd finite (Bool.eq_false_iff.1 (numbers number member))
  rw [ofDocument_documentText_of_fits fits rereads]
  refine if_neg fun finite => ?_
  exact Bool.eq_false_iff.1 infinite (finite _ (List.mem_singleton_self _))

end Block

/-! ### Programs that nest more deeply as documents -/

/-- A character in boxes. -/
def Datum.boxes : Nat → Datum
  | 0 => .character 'a'
  | count + 1 => .array [] [boxes count]

namespace Datum

theorem letters_boxes (count : Nat) :
    (boxes count).letters = List.replicate count '<' ++ ['\'', 'a', '\''] := by
  induction count with
  | zero => rfl
  | succ count inductionHypothesis =>
      rw [boxes, letters_boxed, inductionHypothesis, List.replicate_succ, List.cons_append]

theorem isLegible_boxes (count : Nat) : (boxes count).IsLegible 0 := by
  induction count with
  | zero => exact .character 'a'
  | succ count inductionHypothesis => exact .boxed inductionHypothesis

theorem depth_toJson_boxes (count : Nat) :
    (boxes count).expression.toJson.depth = 2 * count + 1 := by
  induction count with
  | zero => rfl
  | succ count inductionHypothesis =>
      rw [boxes, expression_boxed]
      change max (max 1 (max (boxes count).expression.toJson.depth 0) + 1) 0 + 1 = _
      omega

end Datum

theorem Block.depth_lt_toJson (expression : Expression) (span : Option Span) :
    expression.toJson.depth < (mk [.mk (.expression expression) span]).toJson.depth := by
  change _ < max (max (max (max expression.toJson.depth 0 + 1)
    (max (optionalSpanToJson span).depth 0) + 1) 0 + 1) 0 + 1
  omega

/-- However many levels are asked for, a source without brackets is read as a program whose
document nests more deeply. -/
theorem Block.exists_parse_deeper (depth : Nat) :
    ∃ source block, (∀ letter ∈ source.toList, letter ∉ bracketSigns) ∧
      parse source = .ok block ∧ depth < block.toJson.depth := by
  obtain ⟨span, parses⟩ := (Datum.isLegible_boxes depth).parse (by decide)
  refine ⟨_, _, ?_, parses, ?_⟩
  · intro letter member
    rw [String.toList_ofList, Datum.letters_boxes, List.mem_append] at member
    rcases member with sign | letters
    · rw [List.eq_of_mem_replicate sign]
      decide
    · simp only [List.mem_cons, List.not_mem_nil, or_false] at letters
      rcases letters with rfl | rfl | rfl <;> decide
  · have deep := Datum.depth_toJson_boxes depth
    have inside := depth_lt_toJson (Datum.boxes depth).expression (some span)
    omega

/-- Nesting alone loses a program, of which the limit on brackets says nothing. -/
theorem Block.exists_parse_lost :
    ∃ source block, (∀ letter ∈ source.toList, letter ∉ bracketSigns) ∧
      parse source = .ok block ∧ ofDocument block.documentText ≠ .ok block := by
  obtain ⟨source, block, plain, parses, deep⟩ := exists_parse_deeper Json.nestingLimit
  refine ⟨source, block, plain, parses, fun comesBack => ?_⟩
  exact Nat.not_le.2 deep ((Json.fits_iff_depth _ _).1 (fits_of_ofDocument comesBack)).1

end PointFree
