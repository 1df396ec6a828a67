import FieldCrypt.Context.Binding
import FieldCrypt.Provider.Basic
import FieldCrypt.Record.Layout

/-!
# Encrypting and decrypting records

All texts of a record are encrypted or decrypted side by side. What succeeded is put back even when
something else failed, and the first failure in the order of the fields is reported. Routines here
end with the outcome and the record as it is afterwards.
-/

namespace FieldCrypt

namespace Layout

variable {R : Type}

/-- The texts that were transformed, with where they came from. -/
def succeeded : List (Excerpt × Except CryptoError String) → List (Excerpt × String)
  | [] => []
  | (excerpt, .ok text) :: rest => (excerpt, text) :: succeeded rest
  | (_, .error _) :: rest => succeeded rest

/-- The first failure, with the name of its field. -/
def firstFailure : List (Excerpt × Except CryptoError String) → Except RecordError Unit
  | [] => .ok ()
  | (_, .ok _) :: rest => firstFailure rest
  | (excerpt, .error error) :: _ => .error (.field excerpt.field error)

/-- Transform the texts of a record under one key. -/
def apply (transform : Transform) (direction : Direction) (key : KeyHandle) (layout : Layout R)
    (record : R) : Routine Effect (Except RecordError Unit × R) := do
  let excerpts := layout.takeOut record
  let outcomes ← Routine.all (excerpts.map fun excerpt => transform direction key excerpt.text)
  let results := excerpts.zip outcomes
  return (firstFailure results, layout.putBack record (succeeded results))

end Layout

namespace Protected

variable {R : Type} [Protected R]

/-- The first error in a list of outcomes. -/
def combined {α : Type} : List (Except RecordError Unit × α) → Except RecordError Unit
  | [] => .ok ()
  | (.ok _, _) :: rest => combined rest
  | (.error error, _) :: _ => .error error

/-- Encrypt some fields of a record under the key of a context, which is bound first if it has none.
The record is stamped with the URL of the key. -/
def encryptWith (transform : Transform) (layout : Layout R) (context : ContextId) (record : R) :
    Routine Effect (Except RecordError Unit × R) := do
  match ← Client.boundKey context with
  | .ok uri => layout.apply transform .encrypt (.named uri) (stamp record uri)
  | .error error => return (.error error, record)

/-- Encrypt the fields of a record. -/
def encrypt (transform : Transform) (context : ContextId) (record : R) :
    Routine Effect (Except RecordError Unit × R) :=
  encryptWith transform layout context record

/-- Encrypt records side by side, their context having been bound once before. -/
def encryptAll (transform : Transform) (context : ContextId) (records : List R) :
    Routine Effect (Except RecordError Unit × List R) :=
  if records.isEmpty then return (.ok (), records)
  else do
    match ← Client.boundKey context with
    | .ok _ =>
      let results ← Routine.all (records.map (encrypt transform context))
      return (combined results, results.map Prod.snd)
    | .error error => return (.error error, records)

/-- Decrypt some fields of a record under the key it is stamped with. A record without a key is left
as it is. -/
def decryptWith (transform : Transform) (layout : Layout R) (record : R) :
    Routine Effect (Except RecordError Unit × R) :=
  match (keyUrl record).filter fun uri => !uri.isEmpty with
  | some uri => layout.apply transform .decrypt (.named uri) record
  | none => return (.ok (), record)

/-- Decrypt the fields of a record. -/
def decrypt (transform : Transform) (record : R) : Routine Effect (Except RecordError Unit × R) :=
  decryptWith transform layout record

/-- Decrypt records side by side. -/
def decryptAll (transform : Transform) (records : List R) :
    Routine Effect (Except RecordError Unit × List R) := do
  let results ← Routine.all (records.map (decrypt transform))
  return (combined results, results.map Prod.snd)

end Protected

end FieldCrypt
