import FieldCrypt.Proofs.Client.Named
import FieldCrypt.Proofs.Context.Stage

/-!
# One caller that binds a context

What becomes of a context when a single caller asks for its key and nobody else does anything. The
caller ends well only with the URL that the context then has, which is the one it had before or one
that was just created and is not empty.
-/

namespace FieldCrypt

variable {σ : Type} {environment : Environment σ} {context : ContextId}

namespace Context

theorem ends_leave {outcome : KeyOutcome} {shared last : Shared σ} {ended : KeyOutcome}
    (ends : Routine.Ends environment.handle (leave context outcome) shared ended last) :
    ended = outcome ∧ (last.context context).keyUrl = (shared.context context).keyUrl := by
  obtain ⟨_, _, handled, rest⟩ := Routine.ends_call ends
  obtain ⟨rfl, rfl⟩ := Prod.mk.inj (Option.some.inj handled)
  obtain ⟨rfl, rfl⟩ := Routine.ends_done rest
  refine ⟨rfl, ?_⟩
  rw [Shared.context_setContext]

theorem ends_settle {outcome : KeyOutcome} {shared last : Shared σ} {uri : KeyUri}
    (ends : Routine.Ends environment.handle (settle context outcome) shared (.ok uri) last) :
    outcome = .ok uri ∧ (last.context context).keyUrl = some uri := by
  cases outcome with
  | error error => cases (ends_leave ends).1
  | ok made =>
      obtain ⟨_, _, handled, rest⟩ := Routine.ends_call ends
      obtain ⟨rfl, rfl⟩ := Prod.mk.inj (Option.some.inj handled)
      obtain ⟨same, kept⟩ := ends_leave rest
      rw [Shared.context_setContext] at kept
      obtain rfl := Except.ok.inj same
      exact ⟨rfl, kept⟩

theorem ends_recheck {create : Routine Effect KeyOutcome} {shared last : Shared σ} {uri : KeyUri}
    (ends : Routine.Ends environment.handle (recheck context create) shared (.ok uri) last)
    (unbound : (shared.context context).keyUrl = none) :
    (last.context context).keyUrl = some uri ∧
      ∃ before after, Routine.Ends environment.handle create before (.ok uri) after := by
  obtain ⟨_, _, handled, rest⟩ := Routine.ends_call ends
  obtain ⟨rfl, rfl⟩ := Prod.mk.inj (Option.some.inj handled)
  rw [unbound] at rest
  obtain ⟨outcome, middle, created, settled⟩ := Routine.ends_bind rest
  obtain ⟨rfl, bound⟩ := ends_settle settled
  exact ⟨bound, _, middle, created⟩

/-- Who ends well has the URL of the context: the one it had, or one that was just created. -/
theorem ends_bindOnce {create : Routine Effect KeyOutcome} {shared last : Shared σ} {uri : KeyUri}
    (ends : Routine.Ends environment.handle (bindOnce context create) shared (.ok uri) last) :
    (last.context context).keyUrl = some uri ∧ ((shared.context context).keyUrl = some uri ∨
      (shared.context context).keyUrl = none ∧
        ∃ before after, Routine.Ends environment.handle create before (.ok uri) after) := by
  rw [bindOnce_eq] at ends
  obtain ⟨_, _, handled, rest⟩ := Routine.ends_call ends
  obtain ⟨rfl, rfl⟩ := Prod.mk.inj (Option.some.inj handled)
  cases url : (shared.context context).keyUrl with
  | some bound =>
      rw [url] at rest
      obtain ⟨same, rfl⟩ := Routine.ends_done rest
      obtain rfl := Except.ok.inj same
      exact ⟨url, .inl rfl⟩
  | none =>
      rw [url] at rest
      obtain ⟨ticket, _, arrived, waiting⟩ := Routine.ends_call rest
      obtain ⟨rfl, rfl⟩ := Prod.mk.inj (Option.some.inj arrived)
      obtain ⟨_, _, admitted, rechecking⟩ := Routine.ends_call waiting
      simp only [Environment.handle] at admitted
      split at admitted
      · obtain ⟨-, rfl⟩ := Prod.mk.inj (Option.some.inj admitted)
        obtain ⟨bound, created⟩ := ends_recheck rechecking <| by
          rw [Shared.context_setContext]
          exact url
        exact ⟨bound, .inr ⟨rfl, created⟩⟩
      · cases admitted

end Context

/-- The key of a context that is unbound or has a URL that is not empty. -/
theorem Client.ends_boundKey {shared last : Shared σ} {uri : KeyUri}
    (ends : Routine.Ends environment.handle (Client.boundKey context) shared (.ok uri) last)
    (named : ∀ before, (shared.context context).keyUrl = some before → before.isEmpty = false) :
    (last.context context).keyUrl = some uri ∧ uri.isEmpty = false ∧
      ∀ before, (shared.context context).keyUrl = some before → before = uri := by
  obtain ⟨bound, held | ⟨unbound, _, _, created⟩⟩ := Context.ends_bindOnce ends
  · refine ⟨bound, named uri held, ?_⟩
    intro before same
    exact Option.some.inj (same.symm.trans held)
  · refine ⟨bound, Client.createKey_gives.of_ends created uri rfl, ?_⟩
    intro before same
    cases unbound.symm.trans same

end FieldCrypt
