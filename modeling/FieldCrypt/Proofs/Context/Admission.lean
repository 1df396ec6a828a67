import FieldCrypt.Proofs.Context.Queue
import FieldCrypt.Proofs.Context.Stage

/-!
# Admission to the guards

A caller of `Context.bindOnce` has a place in the queue at the guard from its arrival until it leaves,
and no place before and after. It has to wait only when its ticket is not the one that is served, and
it never waits for anything while it is inside.
-/

namespace FieldCrypt

variable {σ : Type} {environment : Environment σ} {used : ContextId → Prop} {context : ContextId}

/-- The effects that have nothing to do with any guard. -/
def Effect.Quiet : (β : Type) → Effect β → Prop
  | _, .openContext | _, .arrive _ | _, .await .. | _, .release _ => False
  | _, _ => True

theorem Effect.OfClient.quiet {β : Type} {effect : Effect β} (ofClient : effect.OfClient) :
    effect.Quiet := by
  cases effect with
  | send call => trivial
  | lookup cache uri => trivial
  | remember cache requested key => trivial
  | _ => exact ofClient.elim

/-- Quiet effects are answered at once, and all guards stay as they are. -/
theorem Environment.handle_quiet {β : Type} {effect : Effect β} (quiet : effect.Quiet)
    (shared : Shared σ) :
    ∃ answer next, environment.handle _ effect shared = some (answer, next) ∧
      ∀ id, next.guard id = shared.guard id := by
  cases effect with
  | bind id uri =>
      refine ⟨_, _, rfl, fun other => ?_⟩
      rw [Shared.guard, Shared.context_setContext_other]
      split
      · rename_i same
        rw [← same]
        rfl
      · rfl
  | openContext | arrive | await | release => exact quiet.elim
  | _ => exact ⟨_, _, rfl, fun _ => rfl⟩

theorem Environment.guard_of_handled {β : Type} {effect : Effect β} {shared next : Shared σ}
    {answer : β} (handled : environment.handle _ effect shared = some (answer, next))
    (quiet : effect.Quiet) (id : ContextId) : next.guard id = shared.guard id := by
  obtain ⟨_, _, handled', same⟩ := Environment.handle_quiet quiet shared
  obtain ⟨-, rfl⟩ := Prod.mk.inj (Option.some.inj (handled.symm.trans handled'))
  exact same id

theorem queueLedger_ignores {ι β : Type} {effect : Effect β} (quiet : effect.Quiet) :
    (queueLedger used : Ledger (Multiset (Place ι)) (Shared σ)).Ignores environment.handle
      effect := by
  intro shared
  obtain ⟨answer, next, handled, same⟩ := Environment.handle_quiet quiet shared
  exact ⟨answer, next, handled, fun _ queued => queued.congr same⟩

namespace Context

/-- To account for one's places in the queues. -/
abbrev KeepsPlaces (environment : Environment σ) (used : ContextId → Prop) {α : Type}
    (routine : Routine Effect α) (places : Multiset (Place Unit)) : Prop :=
  routine.Accounts environment.handle (queueLedger used) places
    (Routine.EmptyHanded fun _ => True)

theorem KeepsPlaces.bind {α β : Type} {routine : Routine Effect α} {next : α → Routine Effect β}
    {places : Multiset (Place Unit)} (keeps : KeepsPlaces environment used routine places)
    (rest : ∀ result, KeepsPlaces environment used (next result) 0) :
    KeepsPlaces environment used (routine >>= next) places := by
  refine Routine.Accounts.bind keeps ?_
  rintro result _ ⟨rfl, -⟩
  exact rest result

theorem KeepsPlaces.quiet {α β : Type} {effect : Effect β} {rest : β → Routine Effect α}
    {places : Multiset (Place Unit)} (quiet : effect.Quiet)
    (after : ∀ answer, KeepsPlaces environment used (rest answer) places) :
    KeepsPlaces environment used (.call effect rest) places :=
  .ignored (queueLedger_ignores quiet) after

theorem leave_keepsPlaces (outcome : KeyOutcome) (number : Nat) :
    KeepsPlaces environment used (leave context outcome) {⟨context, number, some ()⟩} := by
  intro others shared queued
  refine ⟨nofun, fun answer next handled => ?_⟩
  obtain ⟨-, rfl⟩ := Prod.mk.inj (Option.some.inj handled)
  rw [Multiset.singleton_add] at queued
  refine ⟨0, ?_, rfl, trivial⟩
  rw [zero_add]
  exact queued.leave

theorem settle_keepsPlaces (outcome : KeyOutcome) (number : Nat) :
    KeepsPlaces environment used (settle context outcome) {⟨context, number, some ()⟩} := by
  cases outcome with
  | ok uri =>
      refine KeepsPlaces.quiet ?_ fun _ => leave_keepsPlaces (.ok uri) number
      trivial
  | error error => exact leave_keepsPlaces (.error error) number

variable {create : Routine Effect KeyOutcome}

theorem recheck_keepsPlaces (modest : create.Serially Effect.OfClient) (number : Nat) :
    KeepsPlaces environment used (recheck context create) {⟨context, number, some ()⟩} := by
  refine KeepsPlaces.quiet ?_ fun url => ?_
  · trivial
  cases url with
  | some uri => exact leave_keepsPlaces (.ok uri) number
  | none =>
      refine (modest.accounts (fun _ _ ofClient => queueLedger_ignores ofClient.quiet) _).bind ?_
      rintro outcome _ rfl
      exact settle_keepsPlaces outcome number

/-- Who waits is held up exactly until its ticket is served. -/
theorem await_keepsPlaces (modest : create.Serially Effect.OfClient) (number : Nat) :
    KeepsPlaces environment used (await context create number) {⟨context, number, none⟩} := by
  intro others shared queued
  rw [Multiset.singleton_add] at queued
  by_cases due : (shared.guard context).serving = number
  · have admits : environment.handle _ (.await context number) shared = some ((), shared) :=
      if_pos (decide_eq_true due)
    refine ⟨fun waits => ?_, fun answer next handled => ?_⟩
    · rw [admits] at waits
      cases waits
    · obtain ⟨-, rfl⟩ := Prod.mk.inj (Option.some.inj (admits.symm.trans handled))
      refine ⟨{⟨context, number, some ()⟩}, ?_, recheck_keepsPlaces modest number⟩
      rw [Multiset.singleton_add]
      exact queued.move rfl fun _ => due.symm
  · have waits : environment.handle _ (.await context number) shared = none :=
      if_neg (by rwa [Guard.admits, decide_eq_true_eq])
    refine ⟨fun _ => ?_, fun answer next handled => ?_⟩
    · refine ⟨⟨_, Multiset.mem_singleton_self _⟩, fun place there => ?_⟩
      obtain rfl := Multiset.mem_singleton.mp there
      exact fun served => due served.symm
    · rw [waits] at handled
      cases handled

theorem bindOnce_keepsPlaces (mine : used context) (modest : create.Serially Effect.OfClient) :
    KeepsPlaces environment used (bindOnce context create) 0 := by
  rw [bindOnce_eq]
  refine KeepsPlaces.quiet ?_ fun url => ?_
  · trivial
  cases url with
  | some uri => exact ⟨rfl, trivial⟩
  | none =>
      intro others shared queued
      refine ⟨nofun, fun number next handled => ?_⟩
      obtain ⟨rfl, rfl⟩ := Prod.mk.inj (Option.some.inj handled)
      rw [zero_add] at queued
      refine ⟨{⟨context, _, none⟩}, ?_, await_keepsPlaces modest _⟩
      rw [Multiset.singleton_add]
      exact queued.arrive mine

end Context

end FieldCrypt
