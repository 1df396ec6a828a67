import FieldCrypt.Proofs.Record.Sealing
import Mathlib.Data.List.Perm.Subperm

/-!
# Putting parts back

Excerpts know their slots by two numbers. Texts can be put back for some excerpts only, and in any
order: each arrives in the slot of its excerpt, and nothing else changes. `putBack?` looks every
field and every slot up as it goes and gives up when one is not there. For excerpts of the record
that never happens, although slots are looked up in a record that other fields were written to.
-/

namespace FieldCrypt

variable {R : Type}

/-- A step at a time, each with a condition that the steps before it do not change. -/
theorem foldlM_guarded_eq_some_iff {α β : Type} {ok : β → α → Prop} [∀ b a, Decidable (ok b a)]
    {step : β → α → β} (kept : ∀ b first second, ok (step b first) second ↔ ok b second)
    {items : List α} {start last : β} :
    items.foldlM (fun b a => if ok b a then some (step b a) else none) start = some last ↔
      (∀ a ∈ items, ok start a) ∧ last = items.foldl step start := by
  induction items generalizing start with
  | nil => simp [eq_comm]
  | cons item rest ih =>
      rw [List.foldlM_cons, List.forall_mem_cons, List.foldl_cons]
      split
      · rename_i fine
        simp only [Option.bind_eq_bind, Option.bind_some, ih, kept, fine, true_and]
      · rename_i stuck
        simp only [Option.bind_eq_bind, Option.bind_none, reduceCtorEq, stuck, false_and]

namespace Layout

/-- Add a text to the ones for its field, if there is such a field. -/
def deal? (groups : List (List (Excerpt × String))) (item : Excerpt × String) :
    Option (List (List (Excerpt × String))) :=
  if item.1.fieldIndex < groups.length then
    some (groups.modify item.1.fieldIndex fun group => group ++ [item])
  else none

/-- Replace the text of a slot, if there is such a slot. -/
def replace? (slots : List String) (item : Excerpt × String) : Option (List String) :=
  if item.1.slotIndex < slots.length then some (slots.set item.1.slotIndex item.2) else none

/-- Write the texts for each field into its slots. -/
def fill? : List (Field R × List (Excerpt × String)) → R → Option R
  | [], record => some record
  | (field, group) :: rest, record =>
    if group.isEmpty then fill? rest record
    else (group.foldlM replace? (field.read record)).bind fun texts =>
      fill? rest (field.write record texts)

/-- Write texts into the slots that the excerpts came from, unless a field or a slot is missing. -/
def putBack? (layout : Layout R) (record : R) (done : List (Excerpt × String)) : Option R :=
  (done.foldlM deal? (List.replicate layout.fields.length [])).bind fun groups =>
    fill? (layout.fields.zip groups) record

theorem foldl_modify_append (done : List (Excerpt × String))
    (groups : List (List (Excerpt × String))) :
    done.foldl (fun groups item =>
        groups.modify item.1.fieldIndex fun group => group ++ [item]) groups =
      groups.mapIdx fun fieldIndex before => before ++ group done fieldIndex := by
  induction done generalizing groups with
  | nil =>
      ext1 fieldIndex
      simp [List.getElem?_mapIdx, group]
  | cons item rest ih =>
      rw [List.foldl_cons, ih]
      ext1 fieldIndex
      rw [List.getElem?_mapIdx, List.getElem?_mapIdx, List.getElem?_modify, Option.map_eq_map,
        Option.map_map]
      refine congrArg (Option.map · groups[fieldIndex]?) (funext fun before => ?_)
      by_cases same : item.1.fieldIndex = fieldIndex <;> simp [group, same]

/-- Dealing succeeds when all fields are there, and sorts the texts by their fields. -/
theorem foldlM_deal?_eq_some_iff {done : List (Excerpt × String)}
    {groups dealt : List (List (Excerpt × String))} :
    done.foldlM deal? groups = some dealt ↔
      (∀ item ∈ done, item.1.fieldIndex < groups.length) ∧
        dealt = done.foldl (fun groups item =>
          groups.modify item.1.fieldIndex fun group => group ++ [item]) groups :=
  foldlM_guarded_eq_some_iff fun groups first second => by rw [List.length_modify]

theorem foldl_modify_replicate (done : List (Excerpt × String)) (count : Nat) :
    done.foldl (fun groups item =>
        groups.modify item.1.fieldIndex fun group => group ++ [item]) (List.replicate count []) =
      (List.range' 0 count).map (group done) := by
  rw [foldl_modify_append]
  ext1 fieldIndex
  rw [List.getElem?_mapIdx, List.getElem?_map, List.getElem?_replicate]
  by_cases there : fieldIndex < count
  · simp [there]
  · simp [there]

/-- Replacing succeeds when all slots are there. -/
theorem foldlM_replace?_eq_some_iff {done : List (Excerpt × String)} {slots texts : List String} :
    done.foldlM replace? slots = some texts ↔
      (∀ item ∈ done, item.1.slotIndex < slots.length) ∧ texts = overwrite slots done :=
  foldlM_guarded_eq_some_iff fun slots first second => by rw [List.length_set]

theorem fill?_cons {field : Field R} (sound : field.Sound) (group : List (Excerpt × String))
    (rest : List (Field R × List (Excerpt × String))) (record : R) :
    fill? ((field, group) :: rest) record =
      (group.foldlM replace? (field.read record)).bind fun texts =>
        fill? rest (field.write record texts) := by
  rw [fill?]
  cases group with
  | nil => exact congrArg (fill? rest) (sound.write_read record).symm
  | cons item later => rfl

/-- Filling fields succeeds when the slots are there in the record as it is at first. -/
theorem fill?_eq_some_iff {fields : List (Field R)} (sound : ∀ field ∈ fields, field.Sound)
    (apart : fields.Pairwise Field.Apart) {done : List (Excerpt × String)} {start : Nat}
    {record after : R} :
    fill? (fields.zip ((List.range' start fields.length).map (group done))) record = some after ↔
      (∀ place ∈ fields.zipIdx start, ∀ item ∈ group done place.2,
        item.1.slotIndex < (place.1.read record).length) ∧
      after = putBackFields done start fields record := by
  induction fields generalizing start record with
  | nil => simp [fill?, putBackFields, eq_comm]
  | cons field rest ih =>
      obtain ⟨ahead, apart⟩ := List.pairwise_cons.mp apart
      obtain ⟨soundFirst, soundRest⟩ := List.forall_mem_cons.mp sound
      let texts := overwrite (field.read record) (group done start)
      -- Writing the first field leaves the later ones their slots.
      have kept : (∀ place ∈ rest.zipIdx (start + 1), ∀ item ∈ group done place.2,
            item.1.slotIndex < (place.1.read (field.write record texts)).length) ↔
          ∀ place ∈ rest.zipIdx (start + 1), ∀ item ∈ group done place.2,
            item.1.slotIndex < (place.1.read record).length := by
        refine forall₂_congr fun place there => ?_
        have other := (ahead place.1 (List.fst_mem_of_mem_zipIdx there)).read_write record texts
          (length_overwrite _ _)
        rw [other]
      rw [List.length_cons, List.range'_succ, List.map_cons, List.zip_cons_cons,
        fill?_cons soundFirst, Option.bind_eq_some_iff, List.zipIdx_cons, List.forall_mem_cons,
        putBackFields_cons soundFirst, and_assoc, ← kept, ← ih soundRest apart]
      constructor
      · rintro ⟨_, replaced, filled⟩
        obtain ⟨slots, rfl⟩ := foldlM_replace?_eq_some_iff.mp replaced
        exact ⟨slots, filled⟩
      · rintro ⟨slots, filled⟩
        exact ⟨texts, foldlM_replace?_eq_some_iff.mpr ⟨slots, rfl⟩, filled⟩

theorem slot?_ne_none_iff {layout : Layout R} {record : R} {fieldIndex slotIndex : Nat} :
    layout.slot? record fieldIndex slotIndex ≠ none ↔
      ∃ field, layout.fields[fieldIndex]? = some field ∧
        slotIndex < (field.read record).length := by
  rw [slot?, ← Option.isSome_iff_ne_none]
  cases layout.fields[fieldIndex]? with
  | none => simp
  | some field => simp

/-- Putting back misses nothing when all slots are there, and then comes to the same as not looking
them up. -/
theorem Separate.putBack?_eq_some_iff {layout : Layout R} (separate : layout.Separate)
    {record after : R} {done : List (Excerpt × String)} :
    layout.putBack? record done = some after ↔
      (∀ item ∈ done, layout.slot? record item.1.fieldIndex item.1.slotIndex ≠ none) ∧
        after = layout.putBack record done := by
  rw [putBack?, Option.bind_eq_some_iff]
  simp only [foldlM_deal?_eq_some_iff, foldl_modify_replicate, List.length_replicate]
  constructor
  · rintro ⟨groups, ⟨dealt, rfl⟩, filled⟩
    obtain ⟨slots, written⟩ := (fill?_eq_some_iff separate.sound separate.apart).mp filled
    refine ⟨fun item member => slot?_ne_none_iff.mpr ?_, written⟩
    have there := List.getElem?_eq_getElem (dealt item member)
    refine ⟨_, there, slots (_, item.1.fieldIndex) (List.mk_mem_zipIdx_iff_getElem?.mpr there) item ?_⟩
    exact List.mem_filter.mpr ⟨member, decide_eq_true rfl⟩
  · rintro ⟨held, written⟩
    refine ⟨_, ⟨fun item member => ?_, rfl⟩,
      (fill?_eq_some_iff separate.sound separate.apart).mpr ⟨?_, written⟩⟩
    · obtain ⟨field, there, -⟩ := slot?_ne_none_iff.mp (held item member)
      exact (List.getElem?_eq_some_iff.mp there).1
    · rintro ⟨field, fieldIndex⟩ there item chosen
      obtain ⟨member, same⟩ := List.mem_filter.mp chosen
      obtain ⟨other, here, bound⟩ := slot?_ne_none_iff.mp (held item member)
      rw [of_decide_eq_true same, List.mk_mem_zipIdx_iff_getElem?.mp there] at here
      obtain rfl := Option.some.inj here
      exact bound

section Part

variable {layout : Layout R} {record : R} {part : List (Excerpt × String)}
  (chosen : (part.map Prod.fst).Subperm (layout.takeOut record))
include chosen

/-- Excerpts that were chosen from those of a record, in any order, are for different slots. -/
theorem apart_of_subperm : part.Pairwise fun first second => first.1.Apart second.1 := by
  obtain ⟨ordered, perm, sublist⟩ := chosen
  have apart := ((lists_takeOut layout record).ordered.sublist sublist).imp Excerpt.Before.apart
  exact List.pairwise_map.mp ((perm.pairwise_iff Excerpt.Apart.symm).mp apart)

theorem slot?_of_subperm {item : Excerpt × String} (member : item ∈ part) :
    layout.slot? record item.1.fieldIndex item.1.slotIndex = some item.1.text :=
  have taken := chosen.subset (List.mem_map_of_mem member)
  (((lists_takeOut layout record).mem item.1).mp taken).2.1

/-- Texts for some of the excerpts of a record, in any order, are put back exactly: no field or slot
is missing on the way, each text arrives in the slot of its excerpt, and all else is as it was. The
excerpts themselves give back the record. -/
theorem Separate.putBack_part (separate : layout.Separate) :
    let after := layout.putBack record part
    layout.putBack? record part = some after ∧
      (∀ item ∈ part,
        layout.slot? after item.1.fieldIndex item.1.slotIndex = some item.2) ∧
      (∀ fieldIndex slotIndex,
        (∀ item ∈ part, item.1.fieldIndex = fieldIndex → item.1.slotIndex ≠ slotIndex) →
        layout.slot? after fieldIndex slotIndex = layout.slot? record fieldIndex slotIndex) ∧
      layout.blank after = layout.blank record ∧
      ((∀ item ∈ part, item.2 = item.1.text) → after = record) := by
  intro after
  have held (item : Excerpt × String) (member : item ∈ part) :
      layout.slot? record item.1.fieldIndex item.1.slotIndex ≠ none := by
    rw [slot?_of_subperm chosen member]
    exact Option.some_ne_none _
  have arrives (item : Excerpt × String) (member : item ∈ part) :
      layout.slot? after item.1.fieldIndex item.1.slotIndex = some item.2 :=
    separate.slot?_putBack_apart (apart_of_subperm chosen) member (held item member)
  refine ⟨separate.putBack?_eq_some_iff.mpr ⟨held, rfl⟩, arrives,
    fun _ _ other => separate.slot?_putBack_other other, separate.blank_putBack record part, ?_⟩
  intro own
  refine separate.ext (separate.blank_putBack record part) ?_
  intro fieldIndex slotIndex
  by_cases touched : ∃ item ∈ part, item.1.fieldIndex = fieldIndex ∧ item.1.slotIndex = slotIndex
  · obtain ⟨item, member, rfl, rfl⟩ := touched
    rw [slot?_of_subperm chosen member, ← own item member]
    exact arrives item member
  · apply separate.slot?_putBack_other
    intro item member same there
    exact touched ⟨item, member, same, there⟩

end Part

/-- The names of two of three files, the last one first. Between them stand an absent and an empty
name, and the content is not put back. -/
theorem putBack_part_files :
    let file (name : String) : SharedFile := { displayName := some name }
    let before : Activity := {
      content := some "hello"
      files := [file "a", {}, file "", file "b", file "c"] }
    let after : Activity := {
      content := some "hello"
      files := [file "x", {}, file "", file "b", file "z"] }
    let part : List (Excerpt × String) := [
      (⟨"files[].displayName", 2, 3, "c"⟩, "z"), (⟨"files[].displayName", 2, 0, "a"⟩, "x")]
    (part.map Prod.fst).Subperm (Protected.layout.takeOut before) ∧
      Protected.layout.putBack? before part = some after ∧
      Protected.layout.blank after = Protected.layout.blank before := by
  intro file before after part
  have chosen : (part.map Prod.fst).Subperm (Protected.layout.takeOut before) := by decide +kernel
  have comes : Protected.layout.putBack before part = after := by decide +kernel
  obtain ⟨found, -, -, outside, -⟩ := Separate.putBack_part chosen separate_activity
  rw [comes] at found outside
  exact ⟨chosen, found, outside⟩

end Layout

end FieldCrypt
