import FieldCrypt.Proofs.Record.Separate

/-!
# Slots of a record

A slot is found by the place of its field in the layout and its own place in the field. Excerpts are
the slots that hold a text, in order, and a text that is put back arrives in the slot that its
excerpt came from and in no other one.
-/

namespace FieldCrypt

variable {R : Type}

/-- In the order of fields, and of slots within a field. -/
def Excerpt.Before (first second : Excerpt) : Prop :=
  first.fieldIndex < second.fieldIndex ∨
    first.fieldIndex = second.fieldIndex ∧ first.slotIndex < second.slotIndex

/-- The slots are not the same one. -/
def Excerpt.Apart (first second : Excerpt) : Prop :=
  first.fieldIndex = second.fieldIndex → first.slotIndex ≠ second.slotIndex

theorem Excerpt.Apart.symm {first second : Excerpt} (apart : first.Apart second) :
    second.Apart first :=
  fun same => (apart same.symm).symm

theorem Excerpt.Before.apart {first second : Excerpt} (before : first.Before second) :
    first.Apart second := by
  intro same
  rcases before with less | ⟨-, less⟩
  · omega
  · exact Nat.ne_of_lt less

namespace Layout

/-- The text in a slot. -/
def slot? (layout : Layout R) (record : R) (fieldIndex slotIndex : Nat) : Option String :=
  layout.fields[fieldIndex]?.bind fun field => (field.read record)[slotIndex]?

/-- The calls are for the slots that hold a text, each slot once and in order. -/
structure Lists (layout : Layout R) (record : R) (calls : List Excerpt) : Prop where
  mem : ∀ call, call ∈ calls ↔
    (layout.fields[call.fieldIndex]?).map Field.name = some call.field ∧
      layout.slot? record call.fieldIndex call.slotIndex = some call.text ∧ call.text ≠ ""
  ordered : calls.Pairwise Excerpt.Before

theorem excerptsOfSlots_eq (name : String) (fieldIndex start : Nat) (texts : List String) :
    excerptsOfSlots name fieldIndex start texts = (texts.zipIdx start).filterMap fun slot =>
      if slot.1.isEmpty then none else some ⟨name, fieldIndex, slot.2, slot.1⟩ := by
  induction texts generalizing start with
  | nil => rfl
  | cons text rest ih =>
      rw [excerptsOfSlots, List.zipIdx_cons, List.filterMap_cons, ih]
      cases text.isEmpty with
      | true => rfl
      | false => rfl

theorem excerptsOfFields_eq (record : R) (start : Nat) (fields : List (Field R)) :
    excerptsOfFields record start fields = (fields.zipIdx start).flatMap fun field =>
      excerptsOfSlots field.1.name field.2 0 (field.1.read record) := by
  induction fields generalizing start with
  | nil => rfl
  | cons field rest ih =>
      rw [excerptsOfFields, List.zipIdx_cons, List.flatMap_cons, ih]

theorem mem_excerptsOfSlots {name : String} {fieldIndex : Nat} {texts : List String}
    {call : Excerpt} :
    call ∈ excerptsOfSlots name fieldIndex 0 texts ↔
      call.field = name ∧ call.fieldIndex = fieldIndex ∧
        texts[call.slotIndex]? = some call.text ∧ call.text ≠ "" := by
  rw [excerptsOfSlots_eq, List.mem_filterMap]
  constructor
  · rintro ⟨⟨text, slotIndex⟩, there, taken⟩
    split at taken
    · cases taken
    · rename_i full
      obtain rfl := Option.some.inj taken
      exact ⟨rfl, rfl, List.mk_mem_zipIdx_iff_getElem?.mp there, by simpa using full⟩
  · rintro ⟨rfl, rfl, there, full⟩
    refine ⟨(call.text, call.slotIndex), List.mk_mem_zipIdx_iff_getElem?.mpr there, ?_⟩
    exact if_neg (by simpa using full)

theorem zipIdx_ordered {α : Type} (list : List α) :
    list.zipIdx.Pairwise fun first second => first.2 < second.2 := by
  apply List.pairwise_map.mp
  rw [List.zipIdx_map_snd]
  exact List.pairwise_lt_range'

theorem excerptsOfSlots_ordered (name : String) (fieldIndex : Nat) (texts : List String) :
    (excerptsOfSlots name fieldIndex 0 texts).Pairwise Excerpt.Before := by
  rw [excerptsOfSlots_eq]
  refine (zipIdx_ordered texts).filterMap _ ?_
  intro first second less call taken call' taken'
  split at taken
  · cases taken
  · split at taken'
    · cases taken'
    · obtain rfl := Option.some.inj taken
      obtain rfl := Option.some.inj taken'
      exact .inr ⟨rfl, less⟩

theorem lists_takeOut (layout : Layout R) (record : R) :
    layout.Lists record (layout.takeOut record) where
  mem call := by
    rw [takeOut, excerptsOfFields_eq, List.mem_flatMap, slot?]
    constructor
    · rintro ⟨⟨field, fieldIndex⟩, there, taken⟩
      obtain ⟨named, rfl, held, full⟩ := mem_excerptsOfSlots.mp taken
      rw [List.mk_mem_zipIdx_iff_getElem?.mp there]
      exact ⟨congrArg some named.symm, held, full⟩
    · rintro ⟨named, held, full⟩
      obtain ⟨field, there, named⟩ := Option.map_eq_some_iff.mp named
      rw [there] at held
      refine ⟨(field, call.fieldIndex), List.mk_mem_zipIdx_iff_getElem?.mpr there, ?_⟩
      exact mem_excerptsOfSlots.mpr ⟨named.symm, rfl, held, full⟩
  ordered := by
    rw [takeOut, excerptsOfFields_eq, List.pairwise_flatMap]
    refine ⟨fun field _ => excerptsOfSlots_ordered _ _ _, (zipIdx_ordered layout.fields).imp ?_⟩
    intro first second less call taken call' taken'
    left
    rwa [(mem_excerptsOfSlots.mp taken).2.1, (mem_excerptsOfSlots.mp taken').2.1]

theorem length_overwrite (slots : List String) (done : List (Excerpt × String)) :
    (overwrite slots done).length = slots.length := by
  induction done generalizing slots with
  | nil => rfl
  | cons item rest ih =>
      rw [overwrite, List.foldl_cons, ← overwrite, ih, List.length_set]

theorem overwrite_other {slots : List String} {done : List (Excerpt × String)} {slotIndex : Nat}
    (other : ∀ item ∈ done, item.1.slotIndex ≠ slotIndex) :
    (overwrite slots done)[slotIndex]? = slots[slotIndex]? := by
  induction done generalizing slots with
  | nil => rfl
  | cons item rest ih =>
      rw [overwrite, List.foldl_cons, ← overwrite,
        ih fun later there => other later (List.mem_cons_of_mem item there)]
      exact List.getElem?_set_ne (other item List.mem_cons_self)

/-- Of texts for different slots each arrives in its own. -/
theorem overwrite_self {slots : List String} {done : List (Excerpt × String)}
    (apart : done.Pairwise fun first second => first.1.slotIndex ≠ second.1.slotIndex)
    {item : Excerpt × String} (member : item ∈ done)
    (there : item.1.slotIndex < slots.length) :
    (overwrite slots done)[item.1.slotIndex]? = some item.2 := by
  induction done generalizing slots with
  | nil => cases member
  | cons first rest ih =>
      obtain ⟨ahead, apart⟩ := List.pairwise_cons.mp apart
      rw [overwrite, List.foldl_cons, ← overwrite]
      rcases List.mem_cons.mp member with rfl | later
      · rw [overwrite_other fun later here => (ahead later here).symm]
        exact List.getElem?_set_self there
      · apply ih apart later
        rw [List.length_set]
        exact there

/-- The texts for the slots of one field. -/
def group (done : List (Excerpt × String)) (fieldIndex : Nat) : List (Excerpt × String) :=
  done.filter fun item => item.1.fieldIndex = fieldIndex

theorem putBackFields_cons {field : Field R} (sound : field.Sound)
    (done : List (Excerpt × String)) (start : Nat) (rest : List (Field R)) (record : R) :
    putBackFields done start (field :: rest) record =
      putBackFields done (start + 1) rest
        (field.write record (overwrite (field.read record) (group done start))) := by
  rw [putBackFields, ← group]
  cases group done start with
  | nil => exact congrArg (putBackFields done (start + 1) rest) (sound.write_read record).symm
  | cons item rest => rfl

section Write

variable {fields : List (Field R)} (sound : ∀ field ∈ fields, field.Sound)
include sound

/-- A field that is apart from those that are written is read as before. -/
theorem read_putBackFields_apart {other : Field R} (apart : ∀ field ∈ fields, field.Apart other)
    (done : List (Excerpt × String)) (start : Nat) (record : R) :
    other.read (putBackFields done start fields record) = other.read record := by
  induction fields generalizing start record with
  | nil => rfl
  | cons field rest ih =>
      obtain ⟨soundFirst, soundRest⟩ := List.forall_mem_cons.mp sound
      obtain ⟨apartFirst, apartRest⟩ := List.forall_mem_cons.mp apart
      let written := field.write record (overwrite (field.read record) (group done start))
      calc other.read (putBackFields done start (field :: rest) record)
        _ = other.read (putBackFields done (start + 1) rest written) := by
              rw [putBackFields_cons soundFirst]
        _ = other.read written := ih soundRest apartRest (start + 1) written
        _ = other.read record := apartFirst.read_write record _ (length_overwrite _ _)

theorem read_putBackFields (apart : fields.Pairwise Field.Apart) {index : Nat} {field : Field R}
    (there : fields[index]? = some field) (done : List (Excerpt × String)) (start : Nat)
    (record : R) :
    field.read (putBackFields done start fields record) =
      overwrite (field.read record) (group done (start + index)) := by
  induction fields generalizing start record index with
  | nil => cases there
  | cons first rest ih =>
      obtain ⟨ahead, apart⟩ := List.pairwise_cons.mp apart
      obtain ⟨soundFirst, soundRest⟩ := List.forall_mem_cons.mp sound
      rw [putBackFields_cons soundFirst]
      cases index with
      | zero =>
          obtain rfl := Option.some.inj there
          rw [read_putBackFields_apart soundRest fun later member => (ahead later member).symm]
          exact soundFirst.read_write record _ (length_overwrite _ _)
      | succ index =>
          have member := List.mem_of_getElem? (List.getElem?_cons_succ.symm.trans there)
          rw [ih soundRest apart there, (ahead field member).read_write record _
            (length_overwrite _ _), Nat.add_right_comm, Nat.add_assoc]

end Write

namespace Separate

variable {layout : Layout R} (separate : layout.Separate)
include separate

theorem read_putBack {fieldIndex : Nat} {field : Field R}
    (there : layout.fields[fieldIndex]? = some field) (record : R)
    (done : List (Excerpt × String)) :
    field.read (layout.putBack record done) =
      overwrite (field.read record) (group done fieldIndex) := by
  rw [putBack, read_putBackFields separate.sound separate.apart there, Nat.zero_add]

/-- Putting texts back changes nothing outside the layout. -/
theorem blank_putBack (record : R) (done : List (Excerpt × String)) :
    layout.blank (layout.putBack record done) = layout.blank record := by
  have kept (fields : List (Field R)) (within : ∀ field ∈ fields, field ∈ layout.fields)
      (start : Nat) (record : R) :
      layout.blank (putBackFields done start fields record) = layout.blank record := by
    induction fields generalizing start record with
    | nil => rfl
    | cons field rest ih =>
        obtain ⟨member, withinRest⟩ := List.forall_mem_cons.mp within
        let written := field.write record (overwrite (field.read record) (group done start))
        calc layout.blank (putBackFields done start (field :: rest) record)
          _ = layout.blank (putBackFields done (start + 1) rest written) := by
                rw [putBackFields_cons (separate.sound field member)]
          _ = layout.blank written := ih withinRest (start + 1) written
          _ = layout.blank record := separate.blank_write member (length_overwrite _ _)
  exact kept layout.fields (fun _ member => member) 0 record

/-- A slot that nothing is put back into holds what it held. -/
theorem slot?_putBack_other {record : R} {done : List (Excerpt × String)}
    {fieldIndex slotIndex : Nat}
    (other : ∀ item ∈ done, item.1.fieldIndex = fieldIndex → item.1.slotIndex ≠ slotIndex) :
    layout.slot? (layout.putBack record done) fieldIndex slotIndex =
      layout.slot? record fieldIndex slotIndex := by
  unfold slot?
  cases there : layout.fields[fieldIndex]? with
  | none => rfl
  | some field =>
      rw [Option.bind_some, Option.bind_some, separate.read_putBack there]
      apply overwrite_other
      intro item member
      obtain ⟨member, same⟩ := List.mem_filter.mp member
      exact other item member (of_decide_eq_true same)

/-- Of texts for different slots, in whatever order they are put back, each arrives in its own. -/
theorem slot?_putBack_apart {record : R} {done : List (Excerpt × String)}
    (apart : done.Pairwise fun first second => first.1.Apart second.1)
    {item : Excerpt × String} (member : item ∈ done)
    (held : layout.slot? record item.1.fieldIndex item.1.slotIndex ≠ none) :
    layout.slot? (layout.putBack record done) item.1.fieldIndex item.1.slotIndex =
      some item.2 := by
  unfold slot? at held ⊢
  cases there : layout.fields[item.1.fieldIndex]? with
  | none =>
      rw [there] at held
      exact (held rfl).elim
  | some field =>
      rw [there, Option.bind_some] at held
      rw [Option.bind_some, separate.read_putBack there]
      have bound : item.1.slotIndex < (field.read record).length :=
        Nat.lt_of_not_le fun beyond => held (List.getElem?_eq_none beyond)
      refine overwrite_self ?_ (List.mem_filter.mpr ⟨member, decide_eq_true rfl⟩) bound
      refine (apart.sublist List.filter_sublist).imp_of_mem ?_
      intro first second firstThere secondThere elsewhere
      have same := of_decide_eq_true (List.mem_filter.mp firstThere).2
      have same' := of_decide_eq_true (List.mem_filter.mp secondThere).2
      exact elsewhere (same.trans same'.symm)

/-- A text that is put back arrives in its slot. -/
theorem slot?_putBack_self {record : R} {done : List (Excerpt × String)}
    (ordered : done.Pairwise fun first second => first.1.Before second.1)
    {item : Excerpt × String} (member : item ∈ done)
    (held : layout.slot? record item.1.fieldIndex item.1.slotIndex ≠ none) :
    layout.slot? (layout.putBack record done) item.1.fieldIndex item.1.slotIndex =
      some item.2 :=
  separate.slot?_putBack_apart (ordered.imp fun before => before.apart) member held

end Separate

end Layout

end FieldCrypt
