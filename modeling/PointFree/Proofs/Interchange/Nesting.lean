import PointFree.Proofs.Interchange.Layout

/-!
Contract: the stack that reads a document.

The tokens of a document lead from a place where a value may come to that value, handed to the
holder around it, as long as there is room for the brackets it opens. Conversely whatever the
stack lets through fits the limit on open brackets.
-/

namespace PointFree.Json

open State

/-! ### What the tokens of a document lead to -/

theorem setField_of_not_mem {key : String} {fields : List (String × Json)}
    (other : key ∉ fields.map Prod.fst) (value : Json) :
    setField key value fields = fields ++ [(key, value)] := by
  induction fields with
  | nil => rfl
  | cons first fields inductionHypothesis =>
      obtain ⟨here, found⟩ := first
      rw [List.map_cons, List.mem_cons, not_or] at other
      rw [setField, if_neg (Ne.symm other.1), inductionHypothesis other.2]
      rfl

theorem not_mem_of_nodup {key : String} {value : Json} {done fields : List (String × Json)}
    (distinct : ((done ++ (key, value) :: fields).map Prod.fst).Nodup) :
    key ∉ done.map Prod.fst := by
  rw [List.map_append, List.nodup_append] at distinct
  intro member
  exact distinct.2.2 key member key (List.mem_cons_self ..) rfl

/-- A key and the tokens that lead to its value add a field. -/
theorem foldlM_field {key : String} {value : Json} {letters : List Token} {holders : List Holder}
    {done : List (String × Json)} (other : key ∉ done.map Prod.fst)
    (reads : letters.foldlM step ⟨.object done key :: holders, .value false⟩ =
      some (deliver value (.object done key :: holders))) (before : String) (closable : Bool) :
    (Token.string key :: .colon :: letters).foldlM step
        ⟨.object done before :: holders, .key closable⟩ =
      some ⟨.object (done ++ [(key, value)]) key :: holders, .after⟩ := by
  rw [← setField_of_not_mem other]
  cases closable <;> exact reads

theorem openHolder_of_lt {holders : List Holder} (space : holders.length < nestingLimit)
    (holder : Holder) (stage : Stage) :
    openHolder holder stage holders = some ⟨holder :: holders, stage⟩ :=
  if_neg (Nat.not_le.2 space)

section Reading

variable {change : Float → Float}

mutual

theorem foldlM_sequence {room : Nat} (json : Json) (fits : json.Fits room)
    (readable : json.Readable change) (holders : List Holder)
    (space : holders.length + room ≤ nestingLimit) (closable : Bool) :
    (json.mapNumbers change).sequence.foldlM step ⟨holders, .value closable⟩ =
      some (deliver (json.mapNumbers change) holders) := by
  match json with
  | .null | .truth _ | .string _ | .number _ none | .number _ (some _) => rfl
  | .list items =>
      obtain ⟨inner, rfl, inside⟩ := fits.exists_room
      have below : holders.length < nestingLimit := by omega
      have opens : step ⟨holders, .value closable⟩ .openList =
          some ⟨.list [] :: holders, .value true⟩ :=
        openHolder_of_lt below ..
      rw [mapNumbers, sequence, List.foldlM_cons, opens, Option.bind_eq_bind, Option.bind_some,
        List.foldlM_append]
      by_cases empty : items = []
      · subst empty
        rfl
      · rw [foldlM_sequences items empty inside readable holders (by omega) [] true,
          List.append_nil]
        show some (deliver (.list (mapAllNumbers change items).reverse.reverse) holders) = _
        rw [List.reverse_reverse]
  | .object fields =>
      obtain ⟨inner, rfl, inside⟩ := fits.exists_room_object
      have below : holders.length < nestingLimit := by omega
      have opens : step ⟨holders, .value closable⟩ .openObject =
          some ⟨.object [] "" :: holders, .key true⟩ :=
        openHolder_of_lt below ..
      rw [mapNumbers, sequence, List.foldlM_cons, opens, Option.bind_eq_bind, Option.bind_some,
        List.foldlM_append]
      by_cases empty : fields = []
      · subst empty
        rfl
      · obtain ⟨last, reads⟩ :=
          foldlM_fieldSequences fields empty inside readable.2 holders (by omega) []
            readable.1 "" true
        rw [reads]
        rfl
termination_by structural json

/-- The items of a list after those that have been read. -/
theorem foldlM_sequences {room : Nat} (items : List Json) (some : items ≠ [])
    (fit : AllFit room items) (readable : AllReadable change items) (holders : List Holder)
    (space : holders.length + 1 + room ≤ nestingLimit) (done : List Json) (closable : Bool) :
    ([Token.comma].intercalate (sequences (mapAllNumbers change items))).foldlM step
        ⟨.list done :: holders, .value closable⟩ =
      .some ⟨.list ((mapAllNumbers change items).reverse ++ done) :: holders, .after⟩ := by
  match items with
  | [] => exact absurd rfl some
  | [item] =>
      rw [mapAllNumbers, mapAllNumbers, sequences, sequences, List.intercalate_singleton]
      exact foldlM_sequence item fit.1 readable.1 (.list done :: holders) space closable
  | item :: second :: items =>
      rw [mapAllNumbers, mapAllNumbers, sequences, sequences, List.intercalate_cons_cons,
        List.append_assoc, List.foldlM_append,
        foldlM_sequence item fit.1 readable.1 (.list done :: holders) space closable]
      have rest := foldlM_sequences (second :: items) (List.cons_ne_nil second items) fit.2
        readable.2 holders space (item.mapNumbers change :: done) false
      rw [List.reverse_cons, List.append_assoc]
      exact rest
termination_by structural items

/-- The fields of an object after those that have been read. -/
theorem foldlM_fieldSequences {room : Nat} (fields : List (String × Json)) (some : fields ≠ [])
    (fit : FieldsFit room fields) (readable : FieldsReadable change fields) (holders : List Holder)
    (space : holders.length + 1 + room ≤ nestingLimit) (done : List (String × Json))
    (distinct : ((done ++ fields).map Prod.fst).Nodup) (before : String) (closable : Bool) :
    ∃ last, ([Token.comma].intercalate (fieldSequences (mapFieldNumbers change fields))).foldlM
        step ⟨.object done before :: holders, .key closable⟩ =
      .some ⟨.object (done ++ mapFieldNumbers change fields) last :: holders, .after⟩ := by
  match fields with
  | [] => exact absurd rfl some
  | [(key, value)] =>
      have other := not_mem_of_nodup distinct
      have reads :=
        foldlM_sequence value fit.1 readable.1 (.object done key :: holders) space false
      rw [mapFieldNumbers, mapFieldNumbers, fieldSequences, fieldSequences,
        List.intercalate_singleton]
      exact ⟨key, foldlM_field other reads before closable⟩
  | (key, value) :: second :: fields =>
      have other := not_mem_of_nodup distinct
      have reads :=
        foldlM_sequence value fit.1 readable.1 (.object done key :: holders) space false
      obtain ⟨last, rest⟩ := foldlM_fieldSequences (second :: fields)
        (List.cons_ne_nil second fields) fit.2 readable.2 holders space
        (done ++ [(key, value.mapNumbers change)]) (by simpa using distinct) key false
      refine ⟨last, ?_⟩
      rw [mapFieldNumbers, mapFieldNumbers, fieldSequences, fieldSequences,
        List.intercalate_cons_cons, List.append_assoc, List.foldlM_append,
        foldlM_field other reads before closable]
      rw [List.append_assoc] at rest
      exact rest
termination_by structural fields

end

theorem read?_text {json : Json} (fits : json.Fits nestingLimit)
    (readable : json.Readable change) : read? json.text = some (json.mapNumbers change) := by
  have reads := foldlM_sequence json fits readable [] (Nat.le_of_eq (Nat.zero_add _)) false
  rw [read?, tokens_text fits readable, Option.bind_eq_bind, Option.bind_some, start, reads]
  rfl

end Reading

/-! ### What the stack lets through -/

theorem allFit_iff {room : Nat} {items : List Json} :
    AllFit room items ↔ ∀ item ∈ items, item.Fits room := by
  induction items with
  | nil => simp
  | cons item items inductionHypothesis => simp [inductionHypothesis]

theorem fieldsFit_setField {room : Nat} {key : String} {value : Json}
    {fields : List (String × Json)} (fits : value.Fits room) (fit : FieldsFit room fields) :
    FieldsFit room (setField key value fields) := by
  induction fields with
  | nil => exact ⟨fits, trivial⟩
  | cons first fields inductionHypothesis =>
      obtain ⟨other, found⟩ := first
      rw [setField]
      split
      · exact ⟨fits, fit.2⟩
      · exact ⟨fit.1, inductionHypothesis fit.2⟩

/-- What a token carries is no list or object, and its natural number is a word. -/
def Token.Fits : Token → Prop
  | .value json => ∀ room, json.Fits room
  | _ => True

theorem gather_le {total : Nat} (digits : List Char) (word : total ≤ Decimal.wordMax) :
    (Decimal.gather total digits).1 ≤ Decimal.wordMax := by
  induction digits generalizing total with
  | nil => exact word
  | cons digit digits inductionHypothesis =>
      rw [Decimal.gather]
      split
      · next fits => exact inductionHypothesis fits
      · exact word

theorem natural_le_of_scaled {numeral : Decimal.Numeral} {denoted : Decimal.Denoted}
    (scales : numeral.scaled = some denoted) :
    ∀ natural ∈ denoted.natural, natural ≤ Decimal.wordMax := by
  simp only [Decimal.Numeral.scaled] at scales
  split at scales
  · cases scales
    simp only
    split
    · intro _ isNatural
      cases isNatural
    · rintro _ ⟨⟩
      exact gather_le numeral.whole (Nat.zero_le _)
  · obtain ⟨value, _, rfl⟩ := Option.map_eq_some_iff.1 scales
    intro _ isNatural
    cases isNatural

theorem fits_of_scanNumber {letters : List Char} {token : Token} {width : Nat}
    (scans : scanNumber letters = some (token, width)) : token.Fits := by
  simp only [scanNumber, Option.ite_none_left_eq_some] at scans
  obtain ⟨denoted, scales, same⟩ := Option.map_eq_some_iff.1 scans.2
  cases same
  intro room
  have word := natural_le_of_scaled scales
  generalize denoted.natural = natural at word
  cases natural with
  | none => trivial
  | some natural => exact word natural rfl

theorem fits_of_scan {letters : List Char} {token : Token} {width : Nat}
    (scans : scan letters = some (token, width)) : token.Fits := by
  unfold scan at scans
  split at scans
  case h_7 =>
    obtain ⟨found, isFound, same⟩ := Option.map_eq_some_iff.1 scans
    obtain ⟨pieces, _, letters, _, isString⟩ := by
      simpa only [scanString, Option.bind_eq_bind, Option.bind_eq_some_iff] using isFound
    cases isString
    cases same
    trivial
  case h_11 => exact fits_of_scanNumber scans
  all_goals
    cases scans
    first
    | exact trivial
    | exact fun _ => trivial

theorem fits_of_tokensFrom {skip : Nat} {letters : List Char} {tokens : List Token}
    (cuts : tokensFrom skip letters = some tokens) : ∀ token ∈ tokens, token.Fits := by
  induction letters generalizing skip tokens with
  | nil =>
      cases cuts
      nofun
  | cons letter letters inductionHypothesis =>
      unfold tokensFrom at cuts
      split at cuts
      · exact inductionHypothesis cuts
      · split at cuts
        · exact inductionHypothesis cuts
        · split at cuts
          · cases cuts
          · next token width scans =>
              obtain ⟨rest, isRest, rfl⟩ := Option.map_eq_some_iff.1 cuts
              intro found member
              rcases List.mem_cons.1 member with rfl | member
              · exact fits_of_scan scans
              · exact inductionHypothesis isRest found member

/-- Whatever an open bracket holds fits the room that is left inside of it. -/
def HoldersFit : List Holder → Prop
  | [] => True
  | .list items :: outer =>
      outer.length < nestingLimit ∧ AllFit (nestingLimit - outer.length - 1) items ∧
        HoldersFit outer
  | .object fields _ :: outer =>
      outer.length < nestingLimit ∧ FieldsFit (nestingLimit - outer.length - 1) fields ∧
        HoldersFit outer

structure State.Fits (state : State) : Prop where
  holders : HoldersFit state.holders
  document : ∀ document, state.stage = .finished document → document.Fits nestingLimit

theorem start_fits : start.Fits :=
  ⟨trivial, nofun⟩

theorem deliver_fits {value : Json} {holders : List Holder}
    (fits : value.Fits (nestingLimit - holders.length)) (fit : HoldersFit holders) :
    (deliver value holders).Fits := by
  match holders with
  | [] =>
      refine ⟨trivial, ?_⟩
      rintro _ ⟨⟩
      exact fits
  | .list items :: outer => exact ⟨⟨fit.1, ⟨fits, fit.2.1⟩, fit.2.2⟩, nofun⟩
  | .object fields key :: outer =>
      exact ⟨⟨fit.1, fieldsFit_setField fits fit.2.1, fit.2.2⟩, nofun⟩

theorem openHolder_fits {holder : Holder} {stage : Stage} {holders : List Holder} {after : State}
    (opens : openHolder holder stage holders = some after)
    (fit : holders.length < nestingLimit → HoldersFit (holder :: holders))
    (unfinished : ∀ document, stage ≠ .finished document) : after.Fits := by
  rw [openHolder] at opens
  split at opens
  · cases opens
  · next space =>
      cases opens
      exact ⟨fit (Nat.not_le.1 space), fun document same => absurd same (unfinished document)⟩

theorem closeList_fits {holders : List Holder} {after : State} (fit : HoldersFit holders)
    (closes : closeList holders = some after) : after.Fits := by
  match holders with
  | .list items :: outer =>
      cases closes
      refine deliver_fits ⟨Nat.sub_pos_of_lt fit.1, ?_⟩ fit.2.2
      rw [allFit_iff]
      intro item member
      exact allFit_iff.1 fit.2.1 item (List.mem_reverse.1 member)
  | [] | .object _ _ :: _ => cases closes

theorem closeObject_fits {holders : List Holder} {after : State} (fit : HoldersFit holders)
    (closes : closeObject holders = some after) : after.Fits := by
  match holders with
  | .object fields key :: outer =>
      cases closes
      exact deliver_fits ⟨Nat.sub_pos_of_lt fit.1, fit.2.1⟩ fit.2.2
  | [] | .list _ :: _ => cases closes

theorem continued_fits {holders : List Holder} {after : State} (fit : HoldersFit holders)
    (continues : continued holders = some after) : after.Fits := by
  match holders with
  | .list items :: outer =>
      cases continues
      exact ⟨fit, nofun⟩
  | .object fields key :: outer =>
      cases continues
      exact ⟨fit, nofun⟩
  | [] => cases continues

theorem named_fits {key : String} {holders : List Holder} {after : State} (fit : HoldersFit holders)
    (names : named key holders = some after) : after.Fits := by
  match holders with
  | .object fields before :: outer =>
      cases names
      exact ⟨fit, nofun⟩
  | [] | .list _ :: _ => cases names

theorem step_fits {state after : State} {token : Token} (fits : state.Fits) (small : token.Fits)
    (steps : step state token = some after) : after.Fits := by
  unfold step at steps
  split at steps
  · cases steps
    exact deliver_fits (small _) fits.holders
  · cases steps
    exact deliver_fits trivial fits.holders
  · exact openHolder_fits steps (fun space => ⟨space, trivial, fits.holders⟩) nofun
  · exact openHolder_fits steps (fun space => ⟨space, trivial, fits.holders⟩) nofun
  · exact closeList_fits fits.holders steps
  · exact named_fits fits.holders steps
  · exact closeObject_fits fits.holders steps
  · cases steps
    exact ⟨fits.holders, nofun⟩
  · exact continued_fits fits.holders steps
  · exact closeList_fits fits.holders steps
  · exact closeObject_fits fits.holders steps
  · cases steps

theorem foldlM_fits {tokens : List Token} {state after : State} (fits : state.Fits)
    (small : ∀ token ∈ tokens, token.Fits) (runs : tokens.foldlM step state = some after) :
    after.Fits := by
  induction tokens generalizing state with
  | nil =>
      cases runs
      exact fits
  | cons token tokens inductionHypothesis =>
      rw [List.foldlM_cons] at runs
      obtain ⟨next, steps, runs⟩ := Option.bind_eq_some_iff.1 runs
      have here := step_fits fits (small token (List.mem_cons_self ..)) steps
      exact inductionHypothesis here (fun other member => small other (.tail _ member)) runs

theorem read?_fits {text : String} {json : Json} (reads : read? text = some json) :
    json.Fits nestingLimit := by
  obtain ⟨found, cuts, state, runs, result⟩ := by
    simpa only [read?, Option.bind_eq_bind, Option.bind_eq_some_iff] using reads
  have fits : state.Fits := foldlM_fits start_fits (fits_of_tokensFrom cuts) runs
  unfold result? at result
  split at result
  · next document isFinished =>
      cases result
      exact fits.document _ isFinished
  · cases result

end PointFree.Json
