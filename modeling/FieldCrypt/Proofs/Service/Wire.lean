import FieldCrypt.Proofs.Record.Kind
import FieldCrypt.Service

/-!
# Everything on the wire

Requests, replies, keys, settings and records are read back from the JSON that they are written as.
A member that is left out, or written as `null`, is read as the value that had it left out; where the
value can be `null` itself, as a web key can, the member is always written and never optional.
-/

namespace FieldCrypt

open Json

namespace Broker

instance : LawfulWire Method where
  decode?_encode method := by cases method <;> rfl
  encode_ne_null _ := nofun

instance : LawfulWire Request where
  decode?_encode request := by
    refine (bind_fields?_record (by simp) _ _).trans ?_
    simp
  encode_ne_null _ := nofun

instance : LawfulWire Options where
  decode?_encode options := by
    refine (bind_fields?_record (by simp) _ _).trans ?_
    simp
  encode_ne_null _ := nofun

instance : LawfulWire KeyEntry where
  decode?_encode key := by
    refine (bind_fields?_record (by simp) _ _).trans ?_
    simp
  encode_ne_null _ := nofun

instance : LawfulWire Resource where
  decode?_encode resource := by
    refine (bind_fields?_record (by simp) _ _).trans ?_
    simp
  encode_ne_null _ := nofun

instance : LawfulWire Authorization where
  decode?_encode authorization := by
    refine (bind_fields?_record (by simp) _ _).trans ?_
    simp
  encode_ne_null _ := nofun

instance : LawfulWire MasterKey where
  decode?_encode key := by
    refine (bind_fields?_record (by simp) _ _).trans ?_
    simp
  encode_ne_null _ := nofun

instance : LawfulWire Reply where
  decode?_encode reply := by
    refine (bind_fields?_record (by simp) _ _).trans ?_
    simp
  encode_ne_null _ := nofun

end Broker

instance : LawfulWire KeyMaterial where
  decode?_encode key := by
    refine (bind_fields?_record (by simp) _ _).trans ?_
    simp
  encode_ne_null _ := nofun

instance : LawfulWire ClientConfig where
  decode?_encode config := by
    refine (bind_fields?_record (by simp) _ _).trans ?_
    simp
  encode_ne_null _ := nofun

instance : LawfulWire ServiceConfig where
  decode?_encode config := by
    refine (bind_fields?_record (by simp) _ _).trans ?_
    simp
  encode_ne_null _ := nofun

instance : LawfulWire MasterKeyScope where
  decode?_encode scope := by
    refine (bind_fields?_record (by simp) _ _).trans ?_
    simp
  encode_ne_null _ := nofun

instance : LawfulWire MasterKeyUpload where
  decode?_encode upload := by
    refine (bind_fields?_record (by simp) _ _).trans ?_
    simp
  encode_ne_null _ := nofun

/-- The types that are sent and received. -/
inductive WireKind where
  | request | options | key | resource | authorization | masterKey | reply
  | material | clientConfig | serviceConfig | masterKeyScope | masterKeyUpload
  | record (kind : RecordKind)
  deriving DecidableEq, Repr

namespace WireKind

/-- The values of a kind. -/
def Value : WireKind → Type
  | request => Broker.Request
  | options => Broker.Options
  | key => Broker.KeyEntry
  | resource => Broker.Resource
  | authorization => Broker.Authorization
  | masterKey => Broker.MasterKey
  | reply => Broker.Reply
  | material => KeyMaterial
  | clientConfig => ClientConfig
  | serviceConfig => ServiceConfig
  | masterKeyScope => MasterKeyScope
  | masterKeyUpload => MasterKeyUpload
  | record kind => kind.Record

instance : (kind : WireKind) → Wire kind.Value
  | request => inferInstanceAs (Wire Broker.Request)
  | options => inferInstanceAs (Wire Broker.Options)
  | key => inferInstanceAs (Wire Broker.KeyEntry)
  | resource => inferInstanceAs (Wire Broker.Resource)
  | authorization => inferInstanceAs (Wire Broker.Authorization)
  | masterKey => inferInstanceAs (Wire Broker.MasterKey)
  | reply => inferInstanceAs (Wire Broker.Reply)
  | material => inferInstanceAs (Wire KeyMaterial)
  | clientConfig => inferInstanceAs (Wire ClientConfig)
  | serviceConfig => inferInstanceAs (Wire ServiceConfig)
  | masterKeyScope => inferInstanceAs (Wire MasterKeyScope)
  | masterKeyUpload => inferInstanceAs (Wire MasterKeyUpload)
  | record kind => inferInstanceAs (Wire kind.Record)

instance : (kind : WireKind) → LawfulWire kind.Value
  | request => inferInstanceAs (LawfulWire Broker.Request)
  | options => inferInstanceAs (LawfulWire Broker.Options)
  | key => inferInstanceAs (LawfulWire Broker.KeyEntry)
  | resource => inferInstanceAs (LawfulWire Broker.Resource)
  | authorization => inferInstanceAs (LawfulWire Broker.Authorization)
  | masterKey => inferInstanceAs (LawfulWire Broker.MasterKey)
  | reply => inferInstanceAs (LawfulWire Broker.Reply)
  | material => inferInstanceAs (LawfulWire KeyMaterial)
  | clientConfig => inferInstanceAs (LawfulWire ClientConfig)
  | serviceConfig => inferInstanceAs (LawfulWire ServiceConfig)
  | masterKeyScope => inferInstanceAs (LawfulWire MasterKeyScope)
  | masterKeyUpload => inferInstanceAs (LawfulWire MasterKeyUpload)
  | record kind => inferInstanceAs (LawfulWire kind.Record)

end WireKind

/-- Every value of every kind is read back from its JSON. So what is read from some JSON, defaults
and all, is read once more from what is written for it. -/
theorem wire_round_trip (kind : WireKind) :
    (∀ value : kind.Value, decode? (encode value) = some value) ∧
      ∀ json : Json, ((decode? json : Option kind.Value).map encode).bind decode? =
        (decode? json : Option kind.Value) := by
  refine ⟨LawfulWire.decode?_encode, fun json => ?_⟩
  cases (decode? json : Option kind.Value) with
  | none => rfl
  | some value => exact LawfulWire.decode?_encode value

end FieldCrypt
