import FieldCrypt.Json.Basic

/-!
# Values on the wire

A type with a JSON form is an instance of `Wire`. Records are written as objects and read from an
object, or from an array that gives their members in order. Three readers say what an absent member
means: `required` refuses it, `optional` reads it and `null` as no value, `defaulted` has a value
for it but none for `null`.
-/

namespace FieldCrypt

/-- A type whose values are written as JSON and read back from it. -/
class Wire (α : Type) where
  encode : α → Json
  decode? : Json → Option α

export Wire (encode decode?)

/-- Any JSON value stands for itself. -/
instance : Wire Json where
  encode := id
  decode? := some

instance : Wire String where
  encode := .str
  decode?
    | .str text => some text
    | _ => none

instance : Wire Bool where
  encode := .bool
  decode?
    | .bool value => some value
    | _ => none

/-- Integers below a bound. A double is refused even when it has a whole value. -/
def Json.natBelow? (bound : Nat) : Json → Option Nat
  | .int value => if 0 ≤ value ∧ value < bound then some value.toNat else none
  | _ => none

instance : Wire UInt16 where
  encode n := .int n.toNat
  decode? json := (json.natBelow? UInt16.size).map UInt16.ofNat

instance : Wire UInt32 where
  encode n := .int n.toNat
  decode? json := (json.natBelow? UInt32.size).map UInt32.ofNat

instance : Wire UInt64 where
  encode n := .int n.toNat
  decode? json := (json.natBelow? UInt64.size).map UInt64.ofNat

instance {α : Type} [Wire α] : Wire (List α) where
  encode items := .arr (items.map encode)
  decode?
    | .arr items => items.mapM decode?
    | _ => none

/-- A type is lawful on the wire when every value is read back from what is written for it, and none
is written as `null`, which stands for no value. -/
class LawfulWire (α : Type) [Wire α] : Prop where
  decode?_encode (value : α) : decode? (encode value) = some value
  encode_ne_null (value : α) : encode value ≠ .null

attribute [simp] LawfulWire.decode?_encode LawfulWire.encode_ne_null

instance : LawfulWire String := ⟨fun _ => rfl, fun _ => nofun⟩

instance : LawfulWire Bool := ⟨fun _ => rfl, fun _ => nofun⟩

theorem Json.natBelow?_of_lt {bound n : Nat} (h : n < bound) :
    Json.natBelow? bound (.int n) = some n := by
  simp only [Json.natBelow?, Int.toNat_natCast]
  exact if_pos ⟨Int.natCast_nonneg n, Int.ofNat_lt.2 h⟩

instance : LawfulWire UInt16 where
  decode?_encode n := by
    simp [decode?, encode, Json.natBelow?_of_lt n.toNat_lt]
  encode_ne_null _ := nofun

instance : LawfulWire UInt32 where
  decode?_encode n := by
    simp [decode?, encode, Json.natBelow?_of_lt n.toNat_lt]
  encode_ne_null _ := nofun

instance : LawfulWire UInt64 where
  decode?_encode n := by
    simp [decode?, encode, Json.natBelow?_of_lt n.toNat_lt]
  encode_ne_null _ := nofun

instance {α : Type} [Wire α] [LawfulWire α] : LawfulWire (List α) where
  decode?_encode items := by
    simp only [decode?, encode]
    induction items with
    | nil => rfl
    | cons item rest ih => simp [List.mapM_cons, ih]
  encode_ne_null _ := nofun

namespace Json

/-- How a record gives its members: by name in an object, by place in an array no longer than the
list of names. -/
def fields? (names : List String) : Json → Option (String → Option Json)
  | .obj members => some fun name => find? name members
  | .arr items =>
    if items.length ≤ names.length then some fun name => find? name (names.zip items) else none
  | _ => none

/-- A member that has to be there. -/
def required {α : Type} [Wire α] (fields : String → Option Json) (name : String) : Option α :=
  (fields name).bind decode?

/-- A member that may be absent or `null`. -/
def optional {α : Type} [Wire α] (fields : String → Option Json) (name : String) :
    Option (Option α) :=
  match fields name with
  | none => some none
  | some .null => some none
  | some json => (decode? json).map some

/-- A member that may be absent, when it has the value `absent`. -/
def defaulted {α : Type} [Wire α] (fields : String → Option Json) (name : String) (absent : α) :
    Option α :=
  match fields name with
  | none => some absent
  | some json => decode? json

/-- How a list is written that is left out when it is empty. -/
def unlessEmpty {α : Type} [Wire α] (items : List α) : Option Json :=
  if items.isEmpty then none else some (encode items)

theorem fields?_record (names : List String) (members : List (String × Option Json))
    (distinct : (members.map Prod.fst).Nodup) :
    (record members).fields? names = some fun name => member? name members := by
  obtain ⟨sorted, built, found⟩ := exists_record members distinct
  rw [built, fields?, funext found]

variable {α : Type} [Wire α] [LawfulWire α] {fields : String → Option Json} {name : String}

theorem required_of_encode {value : α} (h : fields name = some (encode value)) :
    required fields name = some value := by
  simp [required, h]

theorem optional_of_encode {value : Option α} (h : fields name = value.map encode) :
    optional fields name = some value := by
  unfold optional
  rw [h]
  cases value with
  | none => rfl
  | some value =>
    simp only [Option.map_some]
    split
    · contradiction
    · rename_i isNull
      exact absurd (Option.some.inj isNull) (LawfulWire.encode_ne_null value)
    · rename_i json _ same
      rw [← Option.some.inj same]
      simp

theorem defaulted_of_encode {value absent : α} (h : fields name = some (encode value)) :
    defaulted fields name absent = some value := by
  simp [defaulted, h]

theorem defaulted_of_unlessEmpty {items : List α} (h : fields name = unlessEmpty items) :
    defaulted fields name [] = some items := by
  unfold defaulted
  rw [h]
  cases items <;> simp [unlessEmpty]

/-- A name out of a fixed choice, given as a string or as an object whose one member, `null`, has it
for its name. -/
def choice? : Json → Option String
  | .str name => some name
  | .obj [(name, .null)] => some name
  | _ => none

end Json

end FieldCrypt
