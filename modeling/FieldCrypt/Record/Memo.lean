import FieldCrypt.Record.Layout

/-!
# Memos

A free-form record with fields of every shape: single values, a list, a list with gaps, and a grid
that is read row by row.
-/

namespace FieldCrypt

/-- A record with a field of every shape. -/
structure Memo where
  keyUrl : Option KeyUri := none
  subject : Option String := none
  body : Option String := none
  parts : List String := []
  lines : List (Option String) := []
  grid : List (List String) := []
  deriving DecidableEq, Repr, Inhabited

namespace Memo

/-- A line, `null` standing for a gap. -/
instance : Wire (Option String) where
  encode line := Json.orNull (line.map encode)
  decode?
    | .null => some none
    | json => (decode? json).map some

instance : Wire Memo where
  encode memo := .record [
    ("keyUrl", memo.keyUrl.map encode),
    ("subject", memo.subject.map encode),
    ("body", memo.body.map encode),
    ("parts", some (encode memo.parts)),
    ("lines", some (encode memo.lines)),
    ("grid", some (encode memo.grid))]
  decode? json := do
    let fields ← json.fields? ["keyUrl", "subject", "body", "parts", "lines", "grid"]
    return {
      keyUrl := ← Json.optional fields "keyUrl"
      subject := ← Json.optional fields "subject"
      body := ← Json.optional fields "body"
      parts := ← Json.defaulted fields "parts" []
      lines := ← Json.defaulted fields "lines" []
      grid := ← Json.defaulted fields "grid" [] }

/-- Cut texts into rows as long as those of a grid. -/
def regrid : List (List String) → List String → List (List String)
  | [], _ => []
  | row :: rest, texts => texts.take row.length :: regrid rest (texts.drop row.length)

/-- Every field of a memo. -/
def allFields : List (Field Memo) := [
  .scalar "subject" Memo.subject fun memo text => { memo with subject := some text },
  .scalar "body" Memo.body fun memo text => { memo with body := some text },
  .each "parts[]" Memo.parts fun memo texts => { memo with parts := texts },
  .each "lines[]" (fun memo => memo.lines.filterMap id) fun memo texts =>
    { memo with lines := refill id (fun _ text => some text) memo.lines texts },
  .each "grid[][]" (fun memo => memo.grid.flatten) fun memo texts =>
    { memo with grid := regrid memo.grid texts }]

/-- The layout of the fields with these names, in this order and as often as they are named. -/
def layoutOf (names : List String) : Layout Memo :=
  ⟨names.filterMap fun name => allFields.find? fun field => field.name = name⟩

instance : Protected Memo where
  layout := ⟨allFields⟩
  keyUrl := Memo.keyUrl
  stamp memo uri := { memo with keyUrl := some uri }

end Memo

end FieldCrypt
