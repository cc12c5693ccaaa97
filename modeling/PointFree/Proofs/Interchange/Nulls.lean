import PointFree.Proofs.Interchange.Layout

/-!
Contract: a document holds null where its text does.

A number that is not finite is written as null. The document with null in its place has the same
text, and it is this document that comes back when the text is read.
-/

namespace PointFree

open Decimal (Dyadic)

/-- Neither an infinity nor a double that is not a number. -/
def Decimal.isFinite (value : Float) : Bool :=
  (Dyadic.ofFloat? value).isSome

namespace Json

theorem numberText_of_not_isFinite {value : Float} (infinite : ¬Decimal.isFinite value = true) :
    numberText value none = "null" := by
  have nothing : Dyadic.ofFloat? value = none := Option.not_isSome_iff_eq_none.1 infinite
  rw [numberText, Decimal.Style.text, nothing]
  simp [Decimal.Style.document]

/-- Only a finite number is read as a number again. -/
theorem Rereads.isFinite {value reread : Float} (rereads : Rereads value reread) :
    Decimal.isFinite value = true := by
  by_contra infinite
  rw [Rereads, numberText_of_not_isFinite infinite] at rereads
  cases rereads

/-- The number is read as its replacement, if it is written as a number at all. -/
def RereadsIfFinite (value reread : Float) : Prop :=
  Decimal.isFinite value = true → Rereads value reread

mutual

/-- The document with null for each number that is not finite. -/
def withNulls : Json → Json
  | .number value none => if Decimal.isFinite value then .number value none else .null
  | .list items => .list (allWithNulls items)
  | .object fields => .object (fieldsWithNulls fields)
  | other => other
termination_by structural json => json

def allWithNulls : List Json → List Json
  | [] => []
  | item :: items => item.withNulls :: allWithNulls items
termination_by structural items => items

def fieldsWithNulls : List (String × Json) → List (String × Json)
  | [] => []
  | (key, value) :: fields => (key, value.withNulls) :: fieldsWithNulls fields
termination_by structural fields => fields

end

section Parts

@[simp] theorem withNulls_null : null.withNulls = null :=
  rfl

@[simp] theorem withNulls_string (text : String) : (string text).withNulls = string text :=
  rfl

@[simp] theorem withNulls_ofNat (natural : Nat) : (ofNat natural).withNulls = ofNat natural :=
  rfl

theorem withNulls_ofFloat (value : Float) :
    (ofFloat value).withNulls = if Decimal.isFinite value then ofFloat value else null :=
  rfl

@[simp] theorem withNulls_list (items : List Json) :
    (list items).withNulls = list (allWithNulls items) :=
  rfl

@[simp] theorem withNulls_object (fields : List (String × Json)) :
    (object fields).withNulls = object (fieldsWithNulls fields) :=
  rfl

@[simp] theorem fieldsWithNulls_nil : fieldsWithNulls [] = [] :=
  rfl

@[simp] theorem fieldsWithNulls_cons (key : String) (value : Json)
    (fields : List (String × Json)) :
    fieldsWithNulls ((key, value) :: fields) = (key, value.withNulls) :: fieldsWithNulls fields :=
  rfl

@[simp] theorem allWithNulls_nil : allWithNulls [] = [] :=
  rfl

@[simp] theorem allWithNulls_cons (item : Json) (items : List Json) :
    allWithNulls (item :: items) = item.withNulls :: allWithNulls items :=
  rfl

end Parts

mutual

theorem textAt_withNulls (json : Json) (depth : Nat) :
    textAt depth json.withNulls = textAt depth json := by
  match json with
  | .null | .truth _ | .string _ | .number _ (some _) => rfl
  | .number value none =>
      rw [withNulls]
      split
      · rfl
      · next infinite => exact (numberText_of_not_isFinite infinite).symm
  | .list items => rw [withNulls, textAt, textAt, textsAt_allWithNulls items]
  | .object fields => rw [withNulls, textAt, textAt, fieldTextsAt_fieldsWithNulls fields]
termination_by structural json

theorem textsAt_allWithNulls (items : List Json) (depth : Nat) :
    textsAt depth (allWithNulls items) = textsAt depth items := by
  match items with
  | [] => rfl
  | item :: items =>
      rw [allWithNulls, textsAt, textsAt, textAt_withNulls item, textsAt_allWithNulls items]
termination_by structural items

theorem fieldTextsAt_fieldsWithNulls (fields : List (String × Json)) (depth : Nat) :
    fieldTextsAt depth (fieldsWithNulls fields) = fieldTextsAt depth fields := by
  match fields with
  | [] => rfl
  | (key, value) :: fields =>
      rw [fieldsWithNulls, fieldTextsAt, fieldTextsAt, textAt_withNulls value,
        fieldTextsAt_fieldsWithNulls fields]
termination_by structural fields

end

theorem map_fst_fieldsWithNulls (fields : List (String × Json)) :
    (fieldsWithNulls fields).map Prod.fst = fields.map Prod.fst := by
  induction fields with
  | nil => rfl
  | cons first fields inductionHypothesis =>
      obtain ⟨key, value⟩ := first
      rw [fieldsWithNulls, List.map_cons, List.map_cons, inductionHypothesis]

theorem text_withNulls (json : Json) : json.withNulls.text = json.text :=
  textAt_withNulls json 0

mutual

theorem Fits.withNulls {room : Nat} {json : Json} (fits : json.Fits room) :
    json.withNulls.Fits room := by
  match json with
  | .null | .truth _ | .string _ | .number _ (some _) => exact fits
  | .number value none =>
      rw [Json.withNulls]
      split
      · exact fits
      · exact fits_null
  | .list items => exact ⟨fits.1, AllFit.withNulls fits.2⟩
  | .object fields => exact ⟨fits.1, FieldsFit.withNulls fits.2⟩
termination_by structural json

theorem AllFit.withNulls {room : Nat} {items : List Json} (fit : AllFit room items) :
    AllFit room (allWithNulls items) := by
  match items with
  | [] => trivial
  | item :: items => exact ⟨fit.1.withNulls, AllFit.withNulls fit.2⟩
termination_by structural items

theorem FieldsFit.withNulls {room : Nat} {fields : List (String × Json)}
    (fit : FieldsFit room fields) : FieldsFit room (fieldsWithNulls fields) := by
  match fields with
  | [] => trivial
  | (key, value) :: fields => exact ⟨fit.1.withNulls, FieldsFit.withNulls fit.2⟩
termination_by structural fields

end

mutual

theorem Sound.withNulls_eq {json : Json}
    (finite : json.Sound fun value => Decimal.isFinite value = true) : json.withNulls = json := by
  match json with
  | .null | .truth _ | .string _ | .number _ (some _) => rfl
  | .number value none => exact if_pos finite
  | .list items => rw [Json.withNulls, AllSound.withNulls_eq finite]
  | .object fields => rw [Json.withNulls, FieldsSound.withNulls_eq finite.2]
termination_by structural json

theorem AllSound.withNulls_eq {items : List Json}
    (finite : AllSound (fun value => Decimal.isFinite value = true) items) :
    allWithNulls items = items := by
  match items with
  | [] => rfl
  | item :: items => rw [allWithNulls, finite.1.withNulls_eq, AllSound.withNulls_eq finite.2]
termination_by structural items

theorem FieldsSound.withNulls_eq {fields : List (String × Json)}
    (finite : FieldsSound (fun value => Decimal.isFinite value = true) fields) :
    fieldsWithNulls fields = fields := by
  match fields with
  | [] => rfl
  | (key, value) :: fields =>
      rw [fieldsWithNulls, Sound.withNulls_eq finite.1, FieldsSound.withNulls_eq finite.2]
termination_by structural fields

end

section Readable

variable {change : Float → Float}

mutual

theorem Sound.readable {json : Json}
    (sound : json.Sound fun value => RereadsIfFinite value (change value)) :
    json.withNulls.Readable change := by
  match json with
  | .null | .truth _ | .string _ | .number _ (some _) => exact sound
  | .number value none =>
      rw [withNulls]
      split
      · next finite => exact sound finite
      · trivial
  | .list items => exact AllSound.readable sound
  | .object fields =>
      refine ⟨?_, FieldsSound.readable sound.2⟩
      rw [map_fst_fieldsWithNulls]
      exact sound.1
termination_by structural json

theorem AllSound.readable {items : List Json}
    (sound : AllSound (fun value => RereadsIfFinite value (change value)) items) :
    AllReadable change (allWithNulls items) := by
  match items with
  | [] => trivial
  | item :: items => exact ⟨sound.1.readable, AllSound.readable sound.2⟩
termination_by structural items

theorem FieldsSound.readable {fields : List (String × Json)}
    (sound : FieldsSound (fun value => RereadsIfFinite value (change value)) fields) :
    FieldsReadable change (fieldsWithNulls fields) := by
  match fields with
  | [] => trivial
  | (key, value) :: fields => exact ⟨Sound.readable sound.1, FieldsSound.readable sound.2⟩
termination_by structural fields

end

end Readable

end Json

end PointFree
