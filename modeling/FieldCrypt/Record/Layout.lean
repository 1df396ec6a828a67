import FieldCrypt.Key.Uri

/-!
# Encrypted places of a record

A field names places of a record that hold texts to encrypt: one place at most, or one for each
element of a list. Places without a value are no slots. A layout lists the fields of a type of
records. It takes the texts of all slots out as excerpts, and puts texts back into the slots that
excerpts came from.
-/

namespace FieldCrypt

/-- Whether a field is one value or one for each element of a list. -/
inductive FieldKind where
  | scalar | each
  deriving DecidableEq, Repr

/-- A named field: how to read the texts in its slots, and how to write as many back. -/
structure Field (R : Type) where
  name : String
  kind : FieldKind
  read : R → List String
  write : R → List String → R

namespace Field

variable {R : Type}

/-- A single value that may be absent. -/
def scalar (name : String) (get : R → Option String) (set : R → String → R) : Field R where
  name := name
  kind := .scalar
  read record := (get record).toList
  write record
    | [] => record
    | text :: _ => set record text

/-- A value in every element of a list. -/
def each (name : String) (get : R → List String) (set : R → List String → R) : Field R where
  name := name
  kind := .each
  read := get
  write := set

/-- The field as it shows in a report about it. -/
def describe (field : Field R) : String :=
  let kind := match field.kind with
    | .scalar => "scalar"
    | .each => "each"
  "Field \x7b name: \"" ++ field.name ++ "\", kind: \"" ++ kind ++ "\" \x7d"

/-- A field is sound when texts written are read again, when writing what is there changes nothing,
and when of two writings the later one counts. Texts are written as many as there are slots. -/
structure Sound (field : Field R) : Prop where
  read_write : ∀ record texts, texts.length = (field.read record).length →
    field.read (field.write record texts) = texts
  write_read : ∀ record, field.write record (field.read record) = record
  write_write : ∀ record first second, first.length = (field.read record).length →
    second.length = (field.read record).length →
    field.write (field.write record first) second = field.write record second

/-- A single value is sound when setting it is. -/
theorem sound_scalar (name : String) {get : R → Option String} {set : R → String → R}
    (get_set : ∀ record text, get (set record text) = some text)
    (set_get : ∀ record text, get record = some text → set record text = record)
    (set_set : ∀ record first second, set (set record first) second = set record second) :
    (scalar name get set).Sound where
  read_write record texts fits := by
    match texts with
    | [] => exact (List.length_eq_zero_iff.1 fits.symm).symm ▸ rfl
    | [text] => simp [scalar, get_set]
    | _ :: _ :: _ => cases h : get record <;> simp [scalar, h] at fits
  write_read record := by
    cases h : get record with
    | none => simp [scalar, h]
    | some text => simp [scalar, h, set_get record text h]
  write_write record first second firstFits secondFits := by
    match first, second with
    | [], _ => rfl
    | first :: _, [] => simp [← secondFits] at firstFits
    | first :: _, second :: _ => exact set_set record first second

end Field

/-- Put texts into the elements of a list that have one, in order. -/
def refill {α : Type} (get : α → Option String) (set : α → String → α) :
    List α → List String → List α
  | [], _ => []
  | element :: rest, texts =>
    match get element, texts with
    | some _, text :: texts => set element text :: refill get set rest texts
    | some _, [] => element :: rest
    | none, texts => element :: refill get set rest texts

section Refill

variable {α : Type} {get : α → Option String} {set : α → String → α}

/-- Putting back what is there changes nothing. -/
theorem refill_filterMap
    (set_get : ∀ element text, get element = some text → set element text = element)
    (elements : List α) : refill get set elements (elements.filterMap get) = elements := by
  induction elements with
  | nil => rfl
  | cons element rest ih =>
    cases h : get element with
    | none => simp [refill, h, ih]
    | some text => simp [refill, h, ih, set_get element text h]

/-- Texts that were put in are read again. -/
theorem filterMap_refill (get_set : ∀ element text, get (set element text) = some text)
    (elements : List α) (texts : List String)
    (fits : texts.length = (elements.filterMap get).length) :
    (refill get set elements texts).filterMap get = texts := by
  induction elements generalizing texts with
  | nil => exact (List.length_eq_zero_iff.1 fits).symm
  | cons element rest ih =>
    cases h : get element with
    | none =>
      rw [List.filterMap_cons_none h] at fits
      simp [refill, h, ih texts fits]
    | some held =>
      rw [List.filterMap_cons_some h] at fits
      cases texts with
      | nil => cases fits
      | cons text texts => simp [refill, h, get_set, ih texts (Nat.succ.inj fits)]

/-- Of two refillings the later one counts. -/
theorem refill_refill (get_set : ∀ element text, get (set element text) = some text)
    (set_set : ∀ element first second, set (set element first) second = set element second)
    (elements : List α) (first second : List String)
    (firstFits : first.length = (elements.filterMap get).length)
    (secondFits : second.length = (elements.filterMap get).length) :
    refill get set (refill get set elements first) second = refill get set elements second := by
  induction elements generalizing first second with
  | nil => rfl
  | cons element rest ih =>
    cases h : get element with
    | none =>
      rw [List.filterMap_cons_none h] at firstFits secondFits
      simp [refill, h, ih first second firstFits secondFits]
    | some held =>
      rw [List.filterMap_cons_some h] at firstFits secondFits
      match first, second with
      | [], _ => cases firstFits
      | _ :: _, [] => cases secondFits
      | _ :: first, _ :: second =>
        simp [refill, h, get_set, set_set,
          ih first second (Nat.succ.inj firstFits) (Nat.succ.inj secondFits)]

end Refill

/-- The fields of a type of records, in order. -/
structure Layout (R : Type) where
  fields : List (Field R)

/-- A text taken out of a record: the name and place of its field, its slot, and the text. -/
structure Excerpt where
  field : String
  fieldIndex : Nat
  slotIndex : Nat
  text : String
  deriving DecidableEq, Repr, Inhabited

namespace Layout

variable {R : Type}

def names (layout : Layout R) : List String := layout.fields.map Field.name

/-- The fields as they show in a report about them. -/
def describe (layout : Layout R) : String :=
  "FieldSpec \x7b fields: [" ++ ", ".intercalate (layout.fields.map Field.describe) ++ "] \x7d"

/-- The texts in the slots of one field that are not empty, the first slot having the number
`slotIndex`. -/
def excerptsOfSlots (field : String) (fieldIndex : Nat) :
    (slotIndex : Nat) → List String → List Excerpt
  | _, [] => []
  | slotIndex, text :: rest =>
    if text.isEmpty then excerptsOfSlots field fieldIndex (slotIndex + 1) rest
    else
      ⟨field, fieldIndex, slotIndex, text⟩ ::
        excerptsOfSlots field fieldIndex (slotIndex + 1) rest

/-- The texts of fields that begin with the number `fieldIndex`. -/
def excerptsOfFields (record : R) : (fieldIndex : Nat) → List (Field R) → List Excerpt
  | _, [] => []
  | fieldIndex, field :: rest =>
    excerptsOfSlots field.name fieldIndex 0 (field.read record) ++
      excerptsOfFields record (fieldIndex + 1) rest

/-- The texts that are not empty, in the order of fields and slots. -/
def takeOut (layout : Layout R) (record : R) : List Excerpt :=
  excerptsOfFields record 0 layout.fields

/-- The texts of a list of slots with some of them replaced, one after another. -/
def overwrite (slots : List String) (done : List (Excerpt × String)) : List String :=
  done.foldl (fun slots item => slots.set item.1.slotIndex item.2) slots

/-- Write into fields that begin with the number `fieldIndex`. A field for which there is nothing to
write is left alone. -/
def putBackFields (done : List (Excerpt × String)) : (fieldIndex : Nat) → List (Field R) → R → R
  | _, [], record => record
  | fieldIndex, field :: rest, record =>
    let group := done.filter fun item => item.1.fieldIndex = fieldIndex
    let record :=
      if group.isEmpty then record else field.write record (overwrite (field.read record) group)
    putBackFields done (fieldIndex + 1) rest record

/-- Write texts into the slots that the excerpts came from. -/
def putBack (layout : Layout R) (record : R) (done : List (Excerpt × String)) : R :=
  putBackFields done 0 layout.fields record

end Layout

/-- A type of records with encrypted fields and a place for the URL of their key. -/
class Protected (R : Type) where
  layout : Layout R
  keyUrl : R → Option KeyUri
  stamp : R → KeyUri → R

end FieldCrypt
