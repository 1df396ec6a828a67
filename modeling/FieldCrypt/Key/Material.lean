import FieldCrypt.Key.Uri

/-!
# Key material

A key as the broker hands it out, and the two ways in which a caller names the key of a single
value.
-/

namespace FieldCrypt

/-- A resolved key: its URI and the JSON web key, which is looked into by nobody but the cipher. -/
structure KeyMaterial where
  uri : KeyUri
  jwk : Json
  deriving Inhabited

namespace KeyMaterial

def memberNames : List String := ["uri", "jwk"]

instance : Wire KeyMaterial where
  encode key := .record [("uri", some (encode key.uri)), ("jwk", some key.jwk)]
  decode? json := do
    let fields ← json.fields? memberNames
    return { uri := ← Json.required fields "uri", jwk := ← Json.required fields "jwk" }

end KeyMaterial

/-- The key of a value: by name, or held already. -/
inductive KeyHandle where
  | named (uri : KeyUri)
  | held (material : KeyMaterial)

namespace KeyHandle

/-- The name of the key. Held material knows its own. -/
def uri : KeyHandle → KeyUri
  | named uri => uri
  | held material => material.uri

/-- The material, when it is held. -/
def material? : KeyHandle → Option KeyMaterial
  | named _ => none
  | held material => some material

end KeyHandle

end FieldCrypt
