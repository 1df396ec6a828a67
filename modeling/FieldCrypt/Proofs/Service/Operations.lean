import FieldCrypt.Proofs.Context.Admission
import FieldCrypt.Proofs.Context.SingleKey
import FieldCrypt.Record.Sample
import FieldCrypt.Service

/-!
# Operations side by side

Whoever binds a context has a place in one queue at most, and waits for nothing else while inside.
Operations of services that are joined, and that join others in turn, can therefore not keep each
other from ending: taking turns, all of them come to a result, and nobody is left at a guard.
-/

namespace FieldCrypt

variable {σ κ : Type} {environment : Environment σ} {used : ContextId → Prop}

theorem Provider.transform_only (provider : Provider) (direction : Direction) (key : KeyHandle)
    (text : String) : (provider.transform direction key text).Only Effect.Quiet := by
  cases provider with
  | sealing client =>
      have resolving : (Provider.resolve client key).Only Effect.Quiet := by
        cases key with
        | held material => trivial
        | named uri =>
            refine ((client.resolveKey_only uri {}).mono fun _ _ => Effect.OfClient.quiet).bind ?_
            rintro (error | material) <;> trivial
      refine resolving.bind ?_
      rintro (error | material)
      · trivial
      · cases direction with
        | encrypt => exact ⟨trivial, fun _ => trivial⟩
        | decrypt => trivial
  | outside cipher => exact ⟨trivial, fun _ => trivial⟩

variable {R : Type}

theorem Layout.apply_only {p : (β : Type) → Effect β → Prop} {transform : Transform}
    (each : ∀ direction key text, (transform direction key text).Only p) (direction : Direction)
    (key : KeyHandle) (layout : Layout R) (record : R) :
    (layout.apply transform direction key record).Only p := by
  refine Routine.Only.bind (.all fun routine there => ?_) fun _ => trivial
  obtain ⟨excerpt, -, rfl⟩ := List.mem_map.mp there
  exact each direction key excerpt.text

variable [Protected R]

theorem Protected.decrypt_only {p : (β : Type) → Effect β → Prop} {transform : Transform}
    (each : ∀ direction key text, (transform direction key text).Only p) (record : R) :
    (Protected.decrypt transform record).Only p := by
  unfold Protected.decrypt Protected.decryptWith
  split
  · exact Layout.apply_only each .decrypt _ _ record
  · trivial

section Guarded

open Context (KeepsPlaces)

variable {context : ContextId} {transform : Transform}

theorem Routine.Only.keepsPlaces {α : Type} {routine : Routine Effect α}
    (only : routine.Only Effect.Quiet) : KeepsPlaces environment used routine 0 :=
  only.accounts fun _ _ => queueLedger_ignores

theorem Protected.encrypt_keepsPlaces (mine : used context)
    (each : ∀ direction key text, (transform direction key text).Only Effect.Quiet) (record : R) :
    KeepsPlaces environment used (Protected.encrypt transform context record) 0 := by
  refine (Context.bindOnce_keepsPlaces mine Client.createKey_serially).bind ?_
  rintro (error | uri)
  · exact ⟨rfl, trivial⟩
  · exact (Layout.apply_only each .encrypt _ _ _).keepsPlaces

theorem Protected.encryptAll_keepsPlaces (mine : used context)
    (each : ∀ direction key text, (transform direction key text).Only Effect.Quiet)
    (records : List R) :
    KeepsPlaces environment used (Protected.encryptAll transform context records) 0 := by
  unfold Protected.encryptAll
  split
  · exact ⟨rfl, trivial⟩
  · refine (Context.bindOnce_keepsPlaces mine Client.createKey_serially).bind ?_
    rintro (error | uri)
    · exact ⟨rfl, trivial⟩
    · have together : KeepsPlaces environment used
          (Routine.all (records.map (Protected.encrypt transform context))) 0 :=
        (Routine.Accounts.all_zero fun record _ => encrypt_keepsPlaces mine each record).mono
          fun _ _ ended => ⟨ended.1, trivial⟩
      exact together.bind fun _ => ⟨rfl, trivial⟩

end Guarded

/-- What can be asked of services, about records of several kinds. -/
inductive Operation (Record : κ → Type) where
  | ensureKey (context : ContextId)
  | prime (client : Client) (context : ContextId)
  | encrypt (service : Service) (context : ContextId) (kind : κ) (record : Record kind)
  | encryptAll (service : Service) (context : ContextId) (kind : κ) (records : List (Record kind))
  | decrypt (service : Service) (kind : κ) (record : Record kind)
  | decryptAll (service : Service) (kind : κ) (records : List (Record kind))

namespace Operation

variable {Record : κ → Type}

/-- The type of what an operation ends with. -/
def Result : Operation Record → Type
  | ensureKey _ | prime _ _ => Except RecordError KeyUri
  | encrypt _ _ kind _ | decrypt _ kind _ => Except ServiceError Unit × Record kind
  | encryptAll _ _ kind _ => Except RecordError Unit × List (Record kind)
  | decryptAll _ kind _ => Except ServiceError Unit × List (Record kind)

/-- The operation needs the key of this context. -/
def Uses (context : ContextId) : Operation Record → Prop
  | ensureKey own | prime _ own | encrypt _ own _ _ | encryptAll _ own _ _ => own = context
  | decrypt .. | decryptAll .. => False

variable [∀ kind, Protected (Record kind)]

def perform : (operation : Operation Record) → Routine Effect operation.Result
  | ensureKey context => Client.boundKey context
  | prime client context => client.prime context
  | encrypt service context _ record => service.encrypt context record
  | encryptAll service context _ records =>
    Protected.encryptAll service.provider.transform context records
  | decrypt service _ record => service.decrypt record
  | decryptAll service _ records => service.decryptAll records

/-- Perform an operation, and end with the operation and its result. -/
def report (operation : Operation Record) :
    Routine Effect (Σ operation : Operation Record, operation.Result) := do
  return ⟨operation, ← operation.perform⟩

theorem perform_keepsPlaces (operation : Operation Record)
    (mine : ∀ context, operation.Uses context → used context) :
    Context.KeepsPlaces environment used operation.perform 0 := by
  cases operation with
  | ensureKey context =>
      exact Context.bindOnce_keepsPlaces (mine context rfl) Client.createKey_serially
  | prime client context =>
      exact Context.bindOnce_keepsPlaces (mine context rfl) client.createResolvedKey_serially
  | encrypt service context kind record =>
      exact (Protected.encrypt_keepsPlaces (mine context rfl) service.provider.transform_only
        record).bind fun _ => ⟨rfl, trivial⟩
  | encryptAll service context kind records =>
      exact Protected.encryptAll_keepsPlaces (mine context rfl) service.provider.transform_only
        records
  | decrypt service kind record =>
      exact (Protected.decrypt_only service.provider.transform_only record).keepsPlaces.bind
        fun _ => ⟨rfl, trivial⟩
  | decryptAll service kind records =>
      have each : ∀ routine ∈ records.map (Protected.decrypt service.provider.transform),
          routine.Only Effect.Quiet := by
        intro routine there
        obtain ⟨record, -, rfl⟩ := List.mem_map.mp there
        exact Protected.decrypt_only service.provider.transform_only record
      have together : (Protected.decryptAll service.provider.transform records).Only
          Effect.Quiet := (Routine.Only.all each).bind fun _ => trivial
      exact together.keepsPlaces.bind fun _ => ⟨rfl, trivial⟩

theorem report_keepsPlaces (operation : Operation Record)
    (mine : ∀ context, operation.Uses context → used context) :
    operation.report.Accounts environment.handle (queueLedger used) (0 : Multiset (Place Unit))
      (Routine.EmptyHanded fun done => operation = done.1) := by
  refine Routine.Accounts.bind (operation.perform_keepsPlaces mine) ?_
  rintro result _ ⟨rfl, -⟩
  exact ⟨rfl, rfl⟩

/-- Joined operations that start with free guards run to their end from wherever they have got to,
and leave the guards free. -/
theorem run_all {operations : List (Operation Record)} {shared : Shared σ}
    {now : Routine Effect (List (Σ operation : Operation Record, operation.Result)) × Shared σ}
    (mine : ∀ operation ∈ operations, ∀ context, operation.Uses context → used context)
    (free : ∀ context, used context → (shared.guard context).isFree = true)
    (reached : Routine.Steps environment.handle
      (Routine.all (operations.map report), shared) now) :
    ∃ results last, Routine.run environment.handle now.1 now.2 = some (results, last) ∧
      results.map Sigma.fst = operations ∧
      ∀ context, used context → (last.guard context).isFree = true := by
  have accounts : (Routine.all (operations.map report)).Accounts environment.handle
      (queueLedger used) (0 : Multiset (Place Unit))
      (Routine.EmptyHanded (List.Forall₂ (fun operation done => operation = done.1) operations)) :=
    .all_zero fun operation there => operation.report_keepsPlaces (mine operation there)
  have start : (queueLedger used).agrees ((0 : Multiset (Place Unit)) + 0) shared := by
    rw [add_zero]
    exact Queued.empty_iff.mpr free
  obtain ⟨places, queued, rest⟩ := accounts.steps reached start
  rw [add_zero] at queued
  obtain ⟨results, last, _, ran, queued, rfl, performed⟩ :=
    rest.run (queueLedger_live used) queued
  refine ⟨results, last, ran, ?_, Queued.empty_iff.mp queued⟩
  rw [← List.forall₂_map_right_iff, List.forall₂_eq_eq_eq] at performed
  exact performed.symm

/-- Operations one after another run to their end as well. -/
theorem run_mapM (operations : List (Operation Record)) {shared : Shared σ}
    (mine : ∀ operation ∈ operations, ∀ context, operation.Uses context → used context)
    (free : ∀ context, used context → (shared.guard context).isFree = true) :
    ∃ results last, Routine.run environment.handle (operations.mapM report) shared =
      some (results, last) := by
  induction operations generalizing shared with
  | nil => exact ⟨[], shared, Routine.run_done [] shared⟩
  | cons operation operations ih =>
      obtain ⟨own, others⟩ := List.forall_mem_cons.mp mine
      obtain ⟨result, middle, _, ran, queued, rfl, -⟩ :=
        (operation.report_keepsPlaces own).run (queueLedger_live used) (Queued.empty_iff.mpr free)
      obtain ⟨results, last, later⟩ := ih others (Queued.empty_iff.mp queued)
      refine ⟨result :: results, last, ?_⟩
      rw [Routine.run_mapM_cons, ran, Option.bind_some, later, Option.map_some]

/-- Operations are joined, of any number and kind and through any services, while all guards are
free. Wherever they have got to, whatever they were answered and in whatever order they took their
steps, taking turns from there brings all of them to a result after some number of rounds. Then all
guards are free, and nobody waits at any. -/
theorem operations_end {operations : List (Operation Record)} {shared : Shared σ}
    {now : Routine Effect (List (Σ operation : Operation Record, operation.Result)) × Shared σ}
    (free : ∀ context, (shared.context context).guard.isFree = true)
    (reached : Routine.Steps environment.handle
      (Routine.all (operations.map report), shared) now) :
    ∃ rounds results last,
      (Routine.round environment.handle)^[rounds] now = (.done results, last) ∧
      results.map Sigma.fst = operations ∧
      ∀ context, (last.context context).guard.isFree = true := by
  have used : ∀ context, (fun _ => True) context → (shared.guard context).isFree = true :=
    fun context _ => free context
  obtain ⟨results, last, ran, performed, after⟩ :=
    run_all (fun _ _ _ _ => trivial) used reached
  obtain ⟨rounds, ended⟩ := Routine.exists_rounds ran
  exact ⟨rounds, results, last, ended, performed, fun context => after context trivial⟩

/-- Four operations on two contexts, of which the broker fails the first. One round later somebody
creates the key of the first context and somebody else waits behind its guard. -/
theorem operations_end_midway :
    let operations : List (Operation fun _ : Unit => TaskRequest) :=
      [.ensureKey 0, .encryptAll {} 0 () [Sample.taskRequest, Sample.taskRequest], .prime {} 1,
        .decrypt {} () Sample.taskRequest]
    let now := Routine.round Simulation.environment.handle
      (Routine.all (operations.map report), { outside := Context.flaky })
    (now.2.context 0).guard = { issued := 2, serving := 0 } ∧
    ∃ rounds results last,
      (Routine.round Simulation.environment.handle)^[rounds] now = (.done results, last) ∧
      results.map Sigma.fst = operations ∧
      ∀ context, (last.context context).guard.isFree = true := by
  intro operations now
  refine ⟨by decide +kernel, ?_⟩
  exact operations_end (fun _ => rfl) (Routine.steps_turn _ (Routine.all (operations.map report)) _)

end Operation

end FieldCrypt
