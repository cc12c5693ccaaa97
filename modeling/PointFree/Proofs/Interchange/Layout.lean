import Mathlib.Data.List.Forall2
import PointFree.Proofs.Interchange.Fitting
import PointFree.Proofs.Interchange.Scanning

/-!
Contract: a document in its layout is a sequence of tokens.

The text of a document is cut into the tokens of the document, wherever it stands and whatever
the margins are. A number comes back as the number that its own text is read as.
-/

namespace PointFree.Json

/-! ### Stretches of text -/

/-- The letters are cut into these tokens when they are followed by what comes after. -/
def Lexes (letters after : List Char) (tokens : List Token) : Prop :=
  tokensFrom 0 (letters ++ after) = (tokensFrom 0 after).map (tokens ++ ·)

namespace Lexes

variable {letters others after : List Char} {tokens more : List Token}

theorem nil (after : List Char) : Lexes [] after [] := by
  rw [Lexes, List.nil_append]
  exact Option.map_id'.symm

theorem append (first : Lexes letters (others ++ after) tokens)
    (second : Lexes others after more) : Lexes (letters ++ others) after (tokens ++ more) := by
  rw [Lexes, List.append_assoc, first, second, Option.map_map]
  exact congrArg (Option.map · _) (funext fun found => (List.append_assoc ..).symm)

theorem gap {letter : Char} (gap : isGap letter = true) (after : List Char) :
    Lexes [letter] after [] := by
  rw [Lexes, List.singleton_append, tokensFrom]
  simp only [gap, if_true]
  exact Option.map_id'.symm

theorem tokensFrom_skip (letters after : List Char) :
    tokensFrom letters.length (letters ++ after) = tokensFrom 0 after := by
  induction letters with
  | nil => rfl
  | cons letter letters inductionHypothesis =>
      rw [List.cons_append, List.length_cons, tokensFrom]
      exact inductionHypothesis

theorem token {token : Token} (begins : ∀ letter ∈ letters.head?, isGap letter = false)
    (scans : scan (letters ++ after) = some (token, letters.length)) (some : letters ≠ []) :
    Lexes letters after [token] := by
  obtain ⟨letter, rest, rfl⟩ := List.exists_cons_of_ne_nil some
  rw [List.cons_append] at scans
  rw [Lexes, List.cons_append, tokensFrom]
  simp only [begins letter rfl, Bool.false_eq_true, if_false, scans, List.length_cons,
    Nat.add_sub_cancel, tokensFrom_skip]
  rfl

end Lexes

theorem lexes_sign {letter : Char} {token : Token} (noGap : isGap letter = false)
    (scans : ∀ {after}, scan (letter :: after) = some (token, 1)) (after : List Char) :
    Lexes [letter] after [token] := by
  refine .token ?_ scans (List.cons_ne_nil letter [])
  rintro _ ⟨⟩
  exact noGap

/-! ### Values -/

/-- The text of the first number is read as the second one, from beginning to end. -/
def Rereads (value reread : Float) : Prop :=
  scanNumber (numberText value none).toList =
    some (.value (.number reread none), (numberText value none).toList.length)

theorem isGap_of_scanNumber {letters : List Char} {result : Token × Nat}
    (scans : scanNumber letters = some result) :
    letters ≠ [] ∧ ∀ letter ∈ letters.head?, isGap letter = false := by
  constructor
  · rintro rfl
    cases scans
  · intro letter isHead
    obtain ⟨rest, rfl⟩ := List.head?_eq_some_iff.1 isHead
    rw [← Bool.not_eq_true]
    intro gap
    simp only [isGap, Bool.or_eq_true, beq_iff_eq] at gap
    rcases gap with ((rfl | rfl) | rfl) | rfl <;> cases scans

theorem lexes_number {letters after : List Char} {json : Json} (ends : Ends after)
    (scans : scanNumber letters = some (.value json, letters.length)) :
    Lexes letters after [.value json] := by
  obtain ⟨some, begins⟩ := isGap_of_scanNumber scans
  refine .token begins (scan_of_scanNumber ?_) some
  rw [ends.scanNumber_append, scans]

theorem lexes_quoted (text : String) (after : List Char) :
    Lexes (quoted text).toList after [.string text] := by
  have begins : ∀ letter ∈ (quoted text).toList.head?, isGap letter = false := by
    rw [toList_quoted]
    rintro _ ⟨⟩
    rfl
  refine .token begins (scan_quoted text after) ?_
  rw [toList_quoted]
  exact List.cons_ne_nil _ _

/-! ### Brackets -/

theorem lexes_margin (depth : Nat) (after : List Char) : Lexes (margin depth).toList after [] := by
  rw [margin, String.toList_ofList]
  induction 2 * depth with
  | zero => exact .nil after
  | succ width inductionHypothesis => exact (Lexes.gap rfl _).append inductionHypothesis

/-- Entries on lines of their own, each after a margin. -/
theorem lexes_lines {depth : Nat} {entries : List String} {tokens : List (List Token)}
    (each : List.Forall₂ (fun entry found =>
      ∀ after, Ends after → Lexes entry.toList after found) entries tokens)
    {after : List Char} (ends : Ends after) :
    Lexes (",\n".intercalate (entries.map (margin depth ++ ·))).toList after
      ([Token.comma].intercalate tokens) := by
  have line {entry : String} {found : List Token} {after : List Char}
      (lexes : Lexes entry.toList after found) :
      Lexes (margin depth ++ entry).toList after found := by
    rw [String.toList_append]
    exact (lexes_margin depth _).append lexes
  rw [String.toList_intercalate]
  induction each with
  | nil => exact .nil after
  | @cons entry found entries tokens first rest inductionHypothesis =>
      cases rest with
      | nil =>
          simp only [List.map_cons, List.map_nil, List.intercalate_singleton]
          exact line (first after ends)
      | @cons other next entries tokens second rest =>
          simp only [List.map_cons, List.intercalate_cons_cons] at inductionHypothesis ⊢
          have comma (after : List Char) : Lexes ",\n".toList after [.comma] :=
            (lexes_sign rfl rfl _).append (Lexes.gap rfl after)
          refine Lexes.append ?_ inductionHypothesis
          exact (line (first _ (ends_comma _))).append (comma _)

theorem lexes_bracketed {opening closing : String} {openToken closeToken : Token}
    (opens : ∀ after, Lexes opening.toList after [openToken])
    (closes : ∀ after, Lexes closing.toList after [closeToken]) (depth : Nat)
    {entries : List String} {tokens : List (List Token)}
    (each : List.Forall₂ (fun entry found =>
      ∀ after, Ends after → Lexes entry.toList after found) entries tokens) (after : List Char) :
    Lexes (bracketed opening closing depth entries).toList after
      (openToken :: ([Token.comma].intercalate tokens ++ [closeToken])) := by
  have line (after : List Char) : Lexes "\n".toList after [] := .gap rfl after
  rw [bracketed]
  split
  · next empty =>
      obtain rfl := List.isEmpty_iff.1 empty
      cases each
      rw [String.toList_append]
      exact (opens _).append (closes after)
  · simp only [String.toList_append, List.append_assoc]
    have ends : Ends ("\n".toList ++ ((margin depth).toList ++ closing.toList) ++ after) :=
      ends_line _
    exact (opens _).append <| (line _).append <| (lexes_lines each ends).append <|
      (line _).append <| (lexes_margin depth _).append (closes after)

/-! ### Documents -/

mutual

/-- The tokens of a document. -/
def sequence : Json → List Token
  | .string text => [.string text]
  | .list items => .openList :: ([Token.comma].intercalate (sequences items) ++ [.closeList])
  | .object fields =>
      .openObject :: ([Token.comma].intercalate (fieldSequences fields) ++ [.closeObject])
  | word => [.value word]
termination_by structural json => json

def sequences : List Json → List (List Token)
  | [] => []
  | item :: items => item.sequence :: sequences items
termination_by structural items => items

def fieldSequences : List (String × Json) → List (List Token)
  | [] => []
  | (key, value) :: fields => (.string key :: .colon :: value.sequence) :: fieldSequences fields
termination_by structural fields => fields

end

mutual

/-- Each number in the document has the property, natural numbers are written as such, and no two
fields of an object have one key. -/
def Sound (holds : Float → Prop) : Json → Prop
  | .number value none => holds value
  | .number value (some natural) => value = natural.toFloat
  | .list items => AllSound holds items
  | .object fields => (fields.map Prod.fst).Nodup ∧ FieldsSound holds fields
  | _ => True
termination_by structural json => json

def AllSound (holds : Float → Prop) : List Json → Prop
  | [] => True
  | item :: items => item.Sound holds ∧ AllSound holds items
termination_by structural items => items

def FieldsSound (holds : Float → Prop) : List (String × Json) → Prop
  | [] => True
  | (_, value) :: fields => value.Sound holds ∧ FieldsSound holds fields
termination_by structural fields => fields

end

/-- Each number in the document is read as its replacement. -/
abbrev Readable (change : Float → Float) (json : Json) : Prop :=
  json.Sound fun value => Rereads value (change value)

abbrev AllReadable (change : Float → Float) (items : List Json) : Prop :=
  AllSound (fun value => Rereads value (change value)) items

abbrev FieldsReadable (change : Float → Float) (fields : List (String × Json)) : Prop :=
  FieldsSound (fun value => Rereads value (change value)) fields

section Documents

variable {change : Float → Float}

mutual

theorem lexes_textAt {room : Nat} (json : Json) (depth : Nat) (fits : json.Fits room)
    (readable : json.Readable change) {after : List Char} (ends : Ends after) :
    Lexes (textAt depth json).toList after (json.mapNumbers change).sequence := by
  match json with
  | .null =>
      show Lexes "null".toList after [.value .null]
      exact .token (by simp [isGap]) rfl (by decide)
  | .truth true =>
      show Lexes "true".toList after [.value (.truth true)]
      exact .token (by simp [isGap]) rfl (by decide)
  | .truth false =>
      show Lexes "false".toList after [.value (.truth false)]
      exact .token (by simp [isGap]) rfl (by decide)
  | .number value none => exact lexes_number ends readable
  | .number value (some natural) =>
      obtain rfl : value = natural.toFloat := readable
      have scans := scanNumber_toDigits (show natural ≤ Decimal.wordMax from fits)
      rw [textAt, numberText, Nat.toString_eq_repr, Nat.toList_repr]
      exact lexes_number ends scans
  | .string text => exact lexes_quoted text after
  | .list items =>
      have opens (after : List Char) : Lexes "[".toList after [.openList] :=
        lexes_sign rfl rfl after
      have closes (after : List Char) : Lexes "]".toList after [.closeList] :=
        lexes_sign rfl rfl after
      rw [textAt]
      exact lexes_bracketed opens closes depth
        (lexes_textsAt items (depth + 1) fits.2 readable) after
  | .object fields =>
      have opens (after : List Char) : Lexes "\x7b".toList after [.openObject] :=
        lexes_sign rfl rfl after
      have closes (after : List Char) : Lexes "\x7d".toList after [.closeObject] :=
        lexes_sign rfl rfl after
      rw [textAt]
      exact lexes_bracketed opens closes depth
        (lexes_fieldTextsAt fields (depth + 1) fits.2 readable.2) after
termination_by structural json

theorem lexes_textsAt {room : Nat} (items : List Json) (depth : Nat) (fit : AllFit room items)
    (readable : AllReadable change items) :
    List.Forall₂ (fun entry found => ∀ after, Ends after → Lexes entry.toList after found)
      (textsAt depth items) (sequences (mapAllNumbers change items)) := by
  match items with
  | [] => exact .nil
  | item :: items =>
      exact .cons (fun _ ends => lexes_textAt item depth fit.1 readable.1 ends)
        (lexes_textsAt items depth fit.2 readable.2)
termination_by structural items

theorem lexes_fieldTextsAt {room : Nat} (fields : List (String × Json)) (depth : Nat)
    (fit : FieldsFit room fields) (readable : FieldsReadable change fields) :
    List.Forall₂ (fun entry found => ∀ after, Ends after → Lexes entry.toList after found)
      (fieldTextsAt depth fields) (fieldSequences (mapFieldNumbers change fields)) := by
  match fields with
  | [] => exact .nil
  | (key, value) :: fields =>
      refine .cons (fun after ends => ?_) (lexes_fieldTextsAt fields depth fit.2 readable.2)
      have colon (after : List Char) : Lexes ": ".toList after [.colon] :=
        (lexes_sign rfl rfl _).append (Lexes.gap rfl after)
      rw [String.toList_append, String.toList_append, List.append_assoc]
      exact (lexes_quoted key _).append <| (colon _).append <|
        lexes_textAt value depth fit.1 readable.1 ends
termination_by structural fields

end

theorem tokens_text {json : Json} {room : Nat} (fits : json.Fits room)
    (readable : json.Readable change) :
    tokens json.text = some (json.mapNumbers change).sequence := by
  have lexes := lexes_textAt json 0 fits readable ends_nil
  rw [Lexes, List.append_nil] at lexes
  rw [tokens, text, lexes]
  exact congrArg some (List.append_nil _)

end Documents

end PointFree.Json
