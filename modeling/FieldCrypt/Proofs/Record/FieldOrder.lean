import FieldCrypt.Proofs.Record.Sealing
import Mathlib.Data.List.Pairwise

/-!
# The order of fields

A separate layout may list its fields in any order. The texts it takes out are the same ones in some
order, what it leaves alone is the same, and a field reads afterwards as its own texts tell, wherever
it stands: each text that came to another one has become that, and no other text has changed.
-/

namespace FieldCrypt

variable {R : Type}

/-- Of fields that are apart either may be made blank first. -/
theorem Field.Apart.blank_comm {field other : Field R} (apart : field.Apart other) (record : R) :
    field.blank (other.blank record) = other.blank (field.blank record) := by
  have fits : ((field.read record).map fun _ => "").length = (field.read record).length :=
    List.length_map _
  calc field.blank (other.blank record)
    _ = field.write (other.blank record) ((field.read record).map fun _ => "") := by
          rw [← apart.read_blank record]
          rfl
    _ = other.blank (field.blank record) := (apart.blank_write fits).symm

namespace Layout

variable {layout other : Layout R}

theorem Separate.perm (separate : layout.Separate) (perm : layout.fields.Perm other.fields) :
    other.Separate := by
  constructor
  · intro field member
    exact separate.sound field (perm.mem_iff.mpr member)
  · exact (perm.pairwise_iff fun apart => apart.symm).mp separate.apart

theorem Separate.blank_perm (separate : layout.Separate)
    (perm : layout.fields.Perm other.fields) (record : R) :
    layout.blank record = other.blank record := by
  have comm : layout.fields.Pairwise fun first second : Field R =>
      ∀ record, second.blank (first.blank record) = first.blank (second.blank record) :=
    separate.apart.imp fun apart record => apart.symm.blank_comm record
  apply perm.foldl_eq'
  intro first there second there'
  apply comm.forall_of_forall_of_flip
  · intro field _ record
    rfl
  · exact comm.imp fun comm record => (comm record).symm
  · exact there
  · exact there'

/-- The texts that are not empty, in the order of fields and slots. -/
def texts (layout : Layout R) (record : R) : List String := (layout.takeOut record).map Excerpt.text

theorem texts_excerptsOfSlots (name : String) (fieldIndex start : Nat) (slots : List String) :
    (excerptsOfSlots name fieldIndex start slots).map Excerpt.text =
      slots.filter fun text => !text.isEmpty := by
  induction slots generalizing start with
  | nil => rfl
  | cons text rest ih =>
      rw [excerptsOfSlots, List.filter_cons]
      cases text.isEmpty with
      | true => exact ih (start + 1)
      | false => exact congrArg (text :: ·) (ih (start + 1))

theorem texts_eq (layout : Layout R) (record : R) :
    layout.texts record = layout.fields.flatMap fun field =>
      (field.read record).filter fun text => !text.isEmpty := by
  have from_ (start : Nat) (fields : List (Field R)) :
      (excerptsOfFields record start fields).map Excerpt.text =
        fields.flatMap fun field => (field.read record).filter fun text => !text.isEmpty := by
    induction fields generalizing start with
    | nil => rfl
    | cons field rest ih =>
        rw [excerptsOfFields, List.map_append, texts_excerptsOfSlots, ih, List.flatMap_cons]
  exact from_ 0 layout.fields

theorem texts_perm (perm : layout.fields.Perm other.fields) (record : R) :
    (layout.texts record).Perm (other.texts record) := by
  rw [texts_eq, texts_eq]
  exact perm.flatMap_right _

/-- What a text that is tried has become. -/
def attempted (outcome : String → Except CryptoError String) (text : String) : String :=
  if text = "" then text else (outcome text).toOption.getD text

theorem attempted_ok {outcome : String → Except CryptoError String} {text result : String}
    (full : text ≠ "") (ok : outcome text = .ok result) : attempted outcome text = result := by
  rw [attempted, if_neg full, ok]
  rfl

theorem attempted_error {outcome : String → Except CryptoError String} {text : String}
    {fault : CryptoError} (failed : outcome text = .error fault) :
    attempted outcome text = text := by
  rw [attempted, failed]
  exact ite_self _

/-- When the outcome of a text depends on nothing but the text, a field reads afterwards as what its
own texts have become. -/
theorem Exact.read_eq {outcome : String → Except CryptoError String} {record : R}
    {calls : List Excerpt} {ended : Except RecordError Unit × R}
    (exact : layout.Exact record calls (calls.map fun call => outcome call.text) ended)
    (lists : layout.Lists record calls) {field : Field R} (member : field ∈ layout.fields) :
    field.read ended.2 = (field.read record).map (attempted outcome) := by
  obtain ⟨fieldIndex, there⟩ := List.mem_iff_getElem?.mp member
  have slot (record : R) (slotIndex : Nat) :
      layout.slot? record fieldIndex slotIndex = (field.read record)[slotIndex]? := by
    rw [slot?, there, Option.bind_some]
  have came {index : Nat} {call : Excerpt} (here : calls[index]? = some call) :
      (calls.map fun call => outcome call.text)[index]? = some (outcome call.text) := by
    rw [List.getElem?_map, here]
    rfl
  ext1 slotIndex
  rw [List.getElem?_map, ← slot, ← slot]
  -- Either some call for this slot came to a text, or the slot was left as it was.
  by_cases succeeds : ∃ (index : Nat) (call : Excerpt) (text : String),
      calls[index]? = some call ∧ outcome call.text = .ok text ∧
        call.fieldIndex = fieldIndex ∧ call.slotIndex = slotIndex
  · obtain ⟨index, call, text, here, ok, rfl, rfl⟩ := succeeds
    obtain ⟨-, held, full⟩ := (lists.mem call).mp (List.mem_of_getElem? here)
    rw [exact.succeeded index call text here ((came here).trans (congrArg some ok)), held,
      Option.map_some, attempted_ok full ok]
  · rw [exact.kept fieldIndex slotIndex]
    · cases held : layout.slot? record fieldIndex slotIndex with
      | none => rfl
      | some text =>
          rw [Option.map_some]
          by_cases full : text = ""
          · rw [attempted, if_pos full]
          · cases answered : outcome text with
            | error fault => rw [attempted_error answered]
            | ok result =>
                obtain ⟨index, name, here⟩ := lists.exists_call held full
                exact (succeeds ⟨index, _, result, here, answered, rfl, rfl⟩).elim
    · intro index call text here ok sameField sameSlot
      rw [came here] at ok
      exact succeeds ⟨index, call, text, here, Option.some.inj ok, sameField, sameSlot⟩

end Layout

end FieldCrypt
