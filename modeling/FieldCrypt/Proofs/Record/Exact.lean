import FieldCrypt.Proofs.Record.Slots
import FieldCrypt.Proofs.Routine.Effects
import FieldCrypt.Proofs.Routine.Run
import FieldCrypt.Record.Encryption
import Mathlib.Control.Monad.Basic

/-!
# Records are transformed exactly

Every slot that holds a text is asked about once, whatever becomes of the others. `Exact` says what
is left afterwards when some questions were answered and some were not, and nothing else can come of
applying a separate layout.
-/

namespace FieldCrypt

/-- A question to a cipher outside, and its answer. -/
structure Question where
  cipher : CipherId
  direction : Direction
  key : KeyHandle
  text : String
  outcome : Except CryptoError String

/-- The question, if that is what the effect is. -/
def Effect.questions : (β : Type) → Effect β → β → List Question
  | _, .transform cipher direction key text, outcome => [⟨cipher, direction, key, text, outcome⟩]
  | _, _, _ => []

variable {R σ : Type}

namespace Layout

/-- How a record ends up when its calls came to these outcomes: a slot whose call succeeded holds
what it came to, every other slot and everything outside the layout is as it was, and the first
failure is reported with the name of its field. -/
structure Exact (layout : Layout R) (record : R) (calls : List Excerpt)
    (outcomes : List (Except CryptoError String)) (ended : Except RecordError Unit × R) :
    Prop where
  succeeded : ∀ (index : Nat) call text, calls[index]? = some call →
    outcomes[index]? = some (.ok text) →
    layout.slot? ended.2 call.fieldIndex call.slotIndex = some text
  kept : ∀ fieldIndex slotIndex,
    (∀ (index : Nat) call text, calls[index]? = some call → outcomes[index]? = some (.ok text) →
      call.fieldIndex = fieldIndex → call.slotIndex ≠ slotIndex) →
    layout.slot? ended.2 fieldIndex slotIndex = layout.slot? record fieldIndex slotIndex
  outside : layout.blank ended.2 = layout.blank record
  fine : (∀ outcome ∈ outcomes, ∃ text, outcome = .ok text) → ended.1 = .ok ()
  failed : ∀ (index : Nat) call error, calls[index]? = some call →
    outcomes[index]? = some (.error error) →
    (∀ earlier < index, ∃ text, outcomes[earlier]? = some (.ok text)) →
    ended.1 = .error (.field call.field error)

theorem mem_succeeded {results : List (Excerpt × Except CryptoError String)}
    {item : Excerpt × String} :
    item ∈ succeeded results ↔ (item.1, Except.ok item.2) ∈ results := by
  induction results with
  | nil => simp [succeeded]
  | cons result rest ih =>
      obtain ⟨call, error | text⟩ := result
      · simp [succeeded, ih]
      · simp [succeeded, ih, Prod.ext_iff]

theorem mem_succeeded_zip {calls : List Excerpt} {outcomes : List (Except CryptoError String)}
    {item : Excerpt × String} :
    item ∈ succeeded (calls.zip outcomes) ↔ ∃ index : Nat,
      calls[index]? = some item.1 ∧ outcomes[index]? = some (.ok item.2) := by
  rw [mem_succeeded, List.mem_iff_getElem?]
  simp only [List.getElem?_zip_eq_some]

theorem succeeded_sublist (results : List (Excerpt × Except CryptoError String)) :
    ((succeeded results).map Prod.fst).Sublist (results.map Prod.fst) := by
  induction results with
  | nil => exact .slnil
  | cons result rest ih =>
      obtain ⟨call, error | text⟩ := result
      · exact ih.cons _
      · exact ih.cons_cons _

theorem succeeded_ordered {calls : List Excerpt} {outcomes : List (Except CryptoError String)}
    (ordered : calls.Pairwise Excerpt.Before) (fits : outcomes.length = calls.length) :
    (succeeded (calls.zip outcomes)).Pairwise fun first second => first.1.Before second.1 := by
  apply List.pairwise_map.mp
  refine ordered.sublist ?_
  have sublist := succeeded_sublist (calls.zip outcomes)
  rwa [List.map_fst_zip (Nat.le_of_eq fits.symm)] at sublist

theorem firstFailure_fine {results : List (Excerpt × Except CryptoError String)}
    (fine : ∀ result ∈ results, ∃ text, result.2 = .ok text) : firstFailure results = .ok () := by
  induction results with
  | nil => rfl
  | cons result rest ih =>
      obtain ⟨call, error | text⟩ := result
      · obtain ⟨text, absurd⟩ := fine _ List.mem_cons_self
        cases absurd
      · exact ih fun later member => fine later (List.mem_cons_of_mem _ member)

theorem firstFailure_failed {results : List (Excerpt × Except CryptoError String)} {index : Nat}
    {call : Excerpt} {error : CryptoError} (there : results[index]? = some (call, .error error))
    (fine : ∀ earlier < index, ∃ call text, results[earlier]? = some (call, .ok text)) :
    firstFailure results = .error (.field call.field error) := by
  induction results generalizing index with
  | nil => cases there
  | cons result rest ih =>
      cases index with
      | zero =>
          obtain rfl := Option.some.inj there
          rfl
      | succ index =>
          obtain ⟨first, text, head⟩ := fine 0 (Nat.succ_pos index)
          obtain rfl := Option.some.inj head
          exact ih there fun earlier less => fine (earlier + 1) (Nat.succ_lt_succ less)

theorem firstFailure_eq_ok_iff {results : List (Excerpt × Except CryptoError String)} :
    firstFailure results = .ok () ↔ ∀ result ∈ results, ∃ text, result.2 = .ok text := by
  constructor
  · intro fine
    induction results with
    | nil => exact nofun
    | cons result rest ih =>
        obtain ⟨call, error | text⟩ := result
        · cases fine
        · exact List.forall_mem_cons.mpr ⟨⟨text, rfl⟩, ih fine⟩
  · exact firstFailure_fine

/-- A failure that is reported is the first one. -/
theorem exists_of_firstFailure {results : List (Excerpt × Except CryptoError String)}
    {error : RecordError} (failed : firstFailure results = .error error) :
    ∃ (index : Nat) (call : Excerpt) (fault : CryptoError),
      results[index]? = some (call, .error fault) ∧
      (∀ earlier < index, ∃ call text, results[earlier]? = some (call, .ok text)) ∧
      error = .field call.field fault := by
  induction results with
  | nil => cases failed
  | cons result rest ih =>
      obtain ⟨call, fault | text⟩ := result
      · cases failed
        exact ⟨0, call, fault, rfl, nofun, rfl⟩
      · obtain ⟨index, other, fault, there, fine, same⟩ := ih failed
        refine ⟨index + 1, other, fault, there, ?_, same⟩
        rintro (_ | earlier) before
        · exact ⟨call, text, rfl⟩
        · exact fine earlier (Nat.lt_of_succ_lt_succ before)

/-- What `apply` makes of the outcomes of its calls is exact. -/
theorem Separate.exact {layout : Layout R} (separate : layout.Separate) {record : R}
    {calls : List Excerpt} (lists : layout.Lists record calls)
    {outcomes : List (Except CryptoError String)} (fits : outcomes.length = calls.length) :
    layout.Exact record calls outcomes (firstFailure (calls.zip outcomes),
      layout.putBack record (Layout.succeeded (calls.zip outcomes))) where
  succeeded index call text there outcome := by
    have held := ((lists.mem call).mp (List.mem_of_getElem? there)).2.1
    have member : (call, text) ∈ Layout.succeeded (calls.zip outcomes) :=
      mem_succeeded_zip.mpr ⟨index, there, outcome⟩
    refine separate.slot?_putBack_self (succeeded_ordered lists.ordered fits) member ?_
    rw [held]
    exact Option.some_ne_none _
  kept fieldIndex slotIndex other := by
    apply separate.slot?_putBack_other
    intro item member
    obtain ⟨index, there, outcome⟩ := mem_succeeded_zip.mp member
    exact other index item.1 item.2 there outcome
  outside := separate.blank_putBack record _
  fine fine := by
    apply firstFailure_fine
    intro result member
    exact fine result.2 (List.of_mem_zip member).2
  failed index call error there outcome fine := by
    apply firstFailure_failed (List.getElem?_zip_eq_some.mpr ⟨there, outcome⟩)
    intro earlier less
    obtain ⟨text, outcome⟩ := fine earlier less
    have bound := Nat.lt_trans less (List.getElem?_eq_some_iff.mp there).1
    exact ⟨calls[earlier], text,
      List.getElem?_zip_eq_some.mpr ⟨List.getElem?_eq_getElem bound, outcome⟩⟩

/-- The handler of an environment, with a record of all questions to ciphers outside. -/
abbrev questioned (environment : Environment σ) : Handler Effect (Shared σ × List Question) :=
  environment.handle.recording Effect.questions

/-- Questions to a cipher outside are asked in order and all answered within one turn. -/
theorem turn_questions (environment : Environment σ) (cipher : CipherId) (direction : Direction)
    (key : KeyHandle) (calls : List Excerpt) (shared : Shared σ) (record : List Question) :
    ∃ outcomes last moved, outcomes.length = calls.length ∧
      Routine.turn (questioned environment) (Routine.all (calls.map fun call =>
        (Provider.outside cipher).transform direction key call.text)) (shared, record) =
      ⟨.done outcomes, (last, record ++ List.zipWith
        (fun call outcome => ⟨cipher, direction, key, call.text, outcome⟩) calls outcomes),
        moved⟩ := by
  induction calls generalizing shared record with
  | nil => exact ⟨[], shared, false, rfl, by simp [Routine.all, Routine.turn]⟩
  | cons call rest ih =>
      let answered := environment.transform cipher direction key call.text shared.outside
      have asked : Routine.turn (questioned environment)
          ((Provider.outside cipher).transform direction key call.text) (shared, record) =
          ⟨.done answered.1, ({ shared with outside := answered.2 },
            record ++ [⟨cipher, direction, key, call.text, answered.1⟩]), true⟩ := rfl
      obtain ⟨outcomes, last, moved, fits, turned⟩ := ih { shared with outside := answered.2 }
        (record ++ [⟨cipher, direction, key, call.text, answered.1⟩])
      refine ⟨answered.1 :: outcomes, last, true, congrArg (· + 1) fits, ?_⟩
      rw [List.map_cons, Routine.all, Routine.turn]
      simp only [asked, turned, Routine.result?_done, Routine.turn, List.append_assoc,
        List.singleton_append, List.zipWith_cons_cons]

/-- The layouts of all records are separate. Applying a separate layout asks about each slot that
holds a text, once and in order, side by side and however texts are transformed, and nothing else.
It ends, under any interleaving, as the outcomes of these calls say, and for all of them that is
exact. With a cipher outside it always ends, having asked these questions in this order. -/
theorem apply_exact :
    ((Protected.layout : Layout TaskRequest).Separate ∧ (Protected.layout : Layout Task).Separate ∧
      (Protected.layout : Layout Activity).Separate ∧
      (Protected.layout : Layout AssistantRequest).Separate ∧
      (Protected.layout : Layout AssistantResponse).Separate) ∧
    ∀ {R σ : Type} {layout : Layout R}, layout.Separate → ∀ direction key record,
      ∃ (calls : List Excerpt)
        (finish : List (Except CryptoError String) → Except RecordError Unit × R),
      layout.Lists record calls ∧
      (∀ outcomes, outcomes.length = calls.length →
        layout.Exact record calls outcomes (finish outcomes)) ∧
      (∀ transform, layout.apply transform direction key record =
        Routine.all (calls.map fun call => transform direction key call.text) >>=
          fun outcomes => .done (finish outcomes)) ∧
      (∀ (handle : Handler Effect σ) transform state ended last,
        Routine.Ends handle (layout.apply transform direction key record) state ended last →
        ∃ outcomes, outcomes.length = calls.length ∧
          Routine.Ends handle
            (Routine.all (calls.map fun call => transform direction key call.text)) state
            outcomes last ∧
          ended = finish outcomes) ∧
      ∀ (environment : Environment σ) cipher shared, ∃ outcomes last,
        outcomes.length = calls.length ∧
        Routine.run (questioned environment)
            (layout.apply (Provider.outside cipher).transform direction key record) (shared, []) =
          some (finish outcomes, last, List.zipWith
            (fun call outcome => ⟨cipher, direction, key, call.text, outcome⟩) calls outcomes) := by
  constructor
  · exact ⟨separate_taskRequest, separate_task, separate_activity, separate_assistantRequest,
      separate_assistantResponse⟩
  intro R σ layout separate direction key record
  have lists := lists_takeOut layout record
  refine ⟨layout.takeOut record, _, lists, fun outcomes => separate.exact lists, fun _ => rfl,
    ?_, ?_⟩
  · intro handle transform state ended last ends
    obtain ⟨outcomes, middle, calls, rest⟩ := Routine.ends_bind ends
    obtain ⟨rfl, rfl⟩ := Routine.ends_done rest
    have fits := (Routine.all_gives _).of_ends calls
    rw [List.length_map] at fits
    exact ⟨outcomes, fits, calls, rfl⟩
  · intro environment cipher shared
    obtain ⟨outcomes, last, moved, fits, turned⟩ := turn_questions environment cipher direction key
      (layout.takeOut record) shared []
    refine ⟨outcomes, last, fits, ?_⟩
    rw [apply, Routine.run_bind, ← Routine.run_turn, turned, Routine.run_done, Option.bind_some,
      Routine.pure_eq, Routine.run_done, List.nil_append]

/-- The cipher fails for one of several files, and an absent and an empty name stand between that
one and the next. What succeeded arrives where it belongs. -/
theorem apply_exact_partial :
    let environment : Environment Unit :=
      ⟨fun _ _ => (.error (.transport "offline"), ()), fun _ _ => ([], ()), fun _ _ _ text _ =>
        (if text = "b" then .error (.encrypt "no") else .ok (if text = "a" then "x" else "z"), ())⟩
    let before : Activity := {
      displayName := some "a"
      files := [{ displayName := some "b" }, {}, { displayName := some "" },
        { displayName := some "c" }] }
    let after : Activity := {
      displayName := some "x"
      files := [{ displayName := some "b" }, {}, { displayName := some "" },
        { displayName := some "z" }] }
    let failure : RecordError := .field "files[].displayName" (.encrypt "no")
    let work := Protected.layout.apply (Provider.outside 0).transform .encrypt
      (.named ⟨"kms://k"⟩) before
    ∃ calls outcomes last, Protected.layout.Lists before calls ∧
      Routine.run (questioned environment) work (⟨(), {}, {}⟩, []) =
        some ((.error failure, after), last) ∧
      Protected.layout.Exact before calls outcomes (.error failure, after) := by
  intro environment before after failure work
  obtain ⟨calls, finish, lists, exact, -, -, asked⟩ :=
    apply_exact.2 separate_activity .encrypt (.named ⟨"kms://k"⟩) before
  obtain ⟨outcomes, last, fits, ran⟩ := asked environment 0 ⟨(), {}, {}⟩
  have turned : (Routine.turn (questioned environment) work (⟨(), {}, {}⟩, [])).rest.result? =
      some (.error failure, after) := by
    decide +kernel
  have same : finish outcomes = (.error failure, after) := by
    rw [← Routine.run_turn, Routine.eq_done_of_result? turned, Routine.run_done] at ran
    exact (Prod.mk.inj (Option.some.inj ran)).1.symm
  rw [same] at ran
  refine ⟨calls, outcomes, _, lists, ran, ?_⟩
  rw [← same]
  exact exact outcomes fits

end Layout

end FieldCrypt
