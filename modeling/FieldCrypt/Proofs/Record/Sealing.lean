import FieldCrypt.Proofs.Record.Exact
import FieldCrypt.Proofs.Routine.Phases

/-!
# Sealed records

Applying a layout treats a record when every call succeeds: each text that is not empty has become
what it was transformed into, and nothing else has changed. A record that was treated by sealing its
texts, none of them into an empty one, is given back exactly when what was sealed is opened, since a
record of a separate layout is nothing but its slots and what is outside them.
-/

namespace FieldCrypt

variable {R σ φ : Type} [Preorder φ]

theorem Field.Sound.write_blank {field : Field R} (sound : field.Sound) (record : R) :
    field.write (field.blank record) (field.read record) = record := by
  rw [blank, sound.write_write record _ _ (List.length_map _) rfl, sound.write_read]

namespace Layout

variable {layout : Layout R}

theorem eq_of_reads {fields : List (Field R)} (sound : ∀ field ∈ fields, field.Sound)
    (apart : fields.Pairwise Field.Apart) {first second : R}
    (outside : fields.foldl (fun record field => field.blank record) first =
      fields.foldl (fun record field => field.blank record) second)
    (reads : ∀ field ∈ fields, field.read first = field.read second) : first = second := by
  induction fields generalizing first second with
  | nil => exact outside
  | cons field rest ih =>
      obtain ⟨ahead, apart⟩ := List.pairwise_cons.mp apart
      obtain ⟨soundFirst, soundRest⟩ := List.forall_mem_cons.mp sound
      obtain ⟨readFirst, readRest⟩ := List.forall_mem_cons.mp reads
      have blanked : field.blank first = field.blank second := by
        refine ih soundRest apart outside ?_
        intro other member
        have away := (ahead other member).symm
        rw [away.read_blank, away.read_blank]
        exact readRest other member
      rw [← soundFirst.write_blank first, ← soundFirst.write_blank second, blanked, readFirst]

/-- Two records that agree in every slot and outside the layout are the same. -/
theorem Separate.ext (separate : layout.Separate) {first second : R}
    (outside : layout.blank first = layout.blank second)
    (slots : ∀ fieldIndex slotIndex,
      layout.slot? first fieldIndex slotIndex = layout.slot? second fieldIndex slotIndex) :
    first = second := by
  refine eq_of_reads separate.sound separate.apart outside ?_
  intro field member
  obtain ⟨fieldIndex, there⟩ := List.mem_iff_getElem?.mp member
  apply List.ext_getElem?
  intro slotIndex
  have slot := slots fieldIndex slotIndex
  simp only [slot?, there, Option.bind_some] at slot
  exact slot

/-- Every text that is not empty has become one it is related to, and nothing else has changed. -/
structure Treats (layout : Layout R) (becomes : String → String → Prop) (before after : R) : Prop where
  outside : layout.blank after = layout.blank before
  treated : ∀ fieldIndex slotIndex text,
    layout.slot? before fieldIndex slotIndex = some text → text ≠ "" →
    ∃ other, layout.slot? after fieldIndex slotIndex = some other ∧ becomes text other
  kept : ∀ fieldIndex slotIndex, layout.slot? before fieldIndex slotIndex = none ∨
    layout.slot? before fieldIndex slotIndex = some "" →
    layout.slot? after fieldIndex slotIndex = layout.slot? before fieldIndex slotIndex

/-- Every slot that holds a text has a call. -/
theorem Lists.exists_call {record : R} {calls : List Excerpt} (lists : layout.Lists record calls)
    {fieldIndex slotIndex : Nat} {text : String}
    (held : layout.slot? record fieldIndex slotIndex = some text) (full : text ≠ "") :
    ∃ (index : Nat) (name : String), calls[index]? = some ⟨name, fieldIndex, slotIndex, text⟩ := by
  obtain ⟨field, there, -⟩ := Option.bind_eq_some_iff.mp held
  have named : (layout.fields[fieldIndex]?).map Field.name = some field.name := by
    rw [there]
    rfl
  have call := (lists.mem ⟨field.name, fieldIndex, slotIndex, text⟩).mpr ⟨named, held, full⟩
  obtain ⟨index, here⟩ := List.mem_iff_getElem?.mp call
  exact ⟨index, field.name, here⟩

theorem getElem?_of_forall₂ {α β : Type} {related : α → β → Prop} {first : List α} {second : List β}
    (all : List.Forall₂ related first second) {index : Nat} {a : α}
    (there : first[index]? = some a) : ∃ b, second[index]? = some b ∧ related a b := by
  induction all generalizing index with
  | nil => cases there
  | cons head _ ih =>
      cases index with
      | zero =>
          obtain rfl := Option.some.inj there
          exact ⟨_, rfl, head⟩
      | succ index => exact ih there

/-- When all calls succeed, what is left of the record is the record treated. -/
theorem Exact.treats {becomes : String → String → Prop} {record : R} {calls : List Excerpt}
    {outcomes : List (Except CryptoError String)} {ended : Except RecordError Unit × R}
    (exact : layout.Exact record calls outcomes ended) (lists : layout.Lists record calls)
    (all : List.Forall₂ (fun call outcome => ∃ other, outcome = .ok other ∧
      becomes call.text other) calls outcomes) :
    ended.1 = .ok () ∧ layout.Treats becomes record ended.2 := by
  refine ⟨exact.fine ?_, ⟨exact.outside, ?_, ?_⟩⟩
  · intro outcome member
    obtain ⟨index, there⟩ := List.mem_iff_getElem?.mp member
    obtain ⟨call, -, other, rfl, -⟩ := getElem?_of_forall₂ all.flip there
    exact ⟨other, rfl⟩
  · intro fieldIndex slotIndex text held full
    obtain ⟨index, name, there⟩ := lists.exists_call held full
    obtain ⟨_, outcome, other, rfl, becomes⟩ := getElem?_of_forall₂ all there
    exact ⟨other, exact.succeeded index _ other there outcome, becomes⟩
  · intro fieldIndex slotIndex idle
    apply exact.kept
    rintro index call other there - rfl rfl
    obtain ⟨-, held, full⟩ := (lists.mem call).mp (List.mem_of_getElem? there)
    rcases idle with absent | empty
    · rw [held] at absent
      cases absent
    · rw [held] at empty
      exact full (Option.some.inj empty)

/-- Applying a layout treats the record if every call comes to a text it may come to. -/
theorem Separate.apply_treats (separate : layout.Separate) {handle : Handler Effect σ}
    {invariant : φ → σ → Prop} {phase : φ} {transform : Transform} {direction : Direction}
    {key : KeyHandle} (record : R) (becomes : String → String → Prop)
    (each : ∀ call ∈ layout.takeOut record,
      (transform direction key call.text).Upholds handle invariant phase fun outcome =>
        ∃ other, outcome = .ok other ∧ becomes call.text other) :
    (layout.apply transform direction key record).Upholds handle invariant phase fun ended =>
      ended.1 = .ok () ∧ layout.Treats becomes record ended.2 := by
  refine (Routine.Upholds.all each).bind ?_
  intro outcomes all
  have lists := lists_takeOut layout record
  exact (separate.exact lists all.length_eq.symm).treats lists all

/-- A text was sealed when what stands for it is not empty and opens to it. -/
abbrev Seals (opens : String → Except CryptoError String) (text ciphertext : String) : Prop :=
  ciphertext ≠ "" ∧ opens ciphertext = .ok text

/-- Treating a sealed record by opening its texts gives back what it was sealed from. -/
theorem Treats.opened (separate : layout.Separate) {opens : String → Except CryptoError String}
    {plain sealed opened : R} (seals : layout.Treats (Seals opens) plain sealed)
    (opening : layout.Treats (fun ciphertext text => opens ciphertext = .ok text) sealed opened) :
    opened = plain := by
  refine separate.ext (opening.outside.trans seals.outside) ?_
  intro fieldIndex slotIndex
  have idle (before : layout.slot? plain fieldIndex slotIndex = none ∨
      layout.slot? plain fieldIndex slotIndex = some "") :
      layout.slot? opened fieldIndex slotIndex = layout.slot? plain fieldIndex slotIndex := by
    have kept := seals.kept fieldIndex slotIndex before
    rw [← kept] at before ⊢
    exact opening.kept fieldIndex slotIndex before
  cases held : layout.slot? plain fieldIndex slotIndex with
  | none => exact (idle (.inl held)).trans held
  | some text =>
      by_cases empty : text = ""
      · subst empty
        exact (idle (.inr held)).trans held
      · obtain ⟨ciphertext, there, full, opens'⟩ := seals.treated fieldIndex slotIndex text held empty
        obtain ⟨other, back, opens''⟩ := opening.treated fieldIndex slotIndex ciphertext there full
        obtain rfl := Except.ok.inj (opens'.symm.trans opens'')
        exact back

/-- What stands in a slot of a sealed record opens. -/
theorem Treats.exists_opens {opens : String → Except CryptoError String} {plain sealed : R}
    (seals : layout.Treats (Seals opens) plain sealed) {call : Excerpt}
    (there : call ∈ layout.takeOut sealed) : ∃ text, opens call.text = .ok text := by
  obtain ⟨-, held, full⟩ := ((lists_takeOut layout sealed).mem call).mp there
  cases before : layout.slot? plain call.fieldIndex call.slotIndex with
  | none =>
      rw [seals.kept _ _ (.inl before), before] at held
      cases held
  | some text =>
      by_cases empty : text = ""
      · subst empty
        rw [seals.kept _ _ (.inr before), before] at held
        exact (full (Option.some.inj held).symm).elim
      · obtain ⟨ciphertext, after, -, opens'⟩ := seals.treated _ _ text before empty
        obtain rfl := Option.some.inj (after.symm.trans held)
        exact ⟨text, opens'⟩

/-- Applying a layout to what was sealed gives back exactly what it was sealed from. -/
theorem Separate.apply_opens (separate : layout.Separate) {handle : Handler Effect σ}
    {invariant : φ → σ → Prop} {phase : φ} {transform : Transform} {key : KeyHandle}
    {plain sealed : R} {opens : String → Except CryptoError String}
    (seals : layout.Treats (Seals opens) plain sealed)
    (each : ∀ ciphertext text, opens ciphertext = .ok text →
      (transform .decrypt key ciphertext).Upholds handle invariant phase (· = .ok text)) :
    (layout.apply transform .decrypt key sealed).Upholds handle invariant phase
      (· = (.ok (), plain)) := by
  refine (separate.apply_treats sealed (fun ciphertext text => opens ciphertext = .ok text) ?_).mono ?_
  · intro call there
    obtain ⟨text, opens'⟩ := seals.exists_opens there
    refine (each call.text text opens').mono ?_
    rintro outcome rfl
    exact ⟨text, rfl, opens'⟩
  · rintro ⟨outcome, opened⟩ ⟨rfl, opening⟩
    exact Prod.ext rfl (seals.opened separate opening)

end Layout

end FieldCrypt
