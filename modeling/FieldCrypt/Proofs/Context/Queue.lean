import FieldCrypt.Proofs.Client.Effects
import FieldCrypt.Proofs.Routine.Holdings
import Mathlib.Algebra.Order.Group.Multiset

/-!
# The queues at the guards

Callers that have drawn tickets stand in the queues at the guards of contexts. `Queued` says that
exactly the tickets that were drawn and not served yet are held, each by one caller, and that nobody
but the holder of the served ticket is inside. One lemma for each move of a caller says that it stays
so; where anybody has a place, the ticket that is served next is held by somebody.
-/

namespace FieldCrypt

variable {σ ι : Type}

/-- The guard of a context. -/
def Shared.guard (shared : Shared σ) (id : ContextId) : Guard := (shared.context id).guard

/-- The same with another guard for one context. -/
def Shared.setGuard (shared : Shared σ) (id : ContextId) (guard : Guard) : Shared σ :=
  shared.setContext id { shared.context id with guard }

theorem Shared.guard_setGuard (shared : Shared σ) (id other : ContextId) (guard : Guard) :
    (shared.setGuard id guard).guard other = if id = other then guard else shared.guard other := by
  rw [Shared.guard, Shared.setGuard, Shared.context_setContext_other]
  split <;> rfl

/-- A place in the queue at a guard: the number of the ticket, and how far its holder has come if the
guard has let it in. -/
structure Place (ι : Type) where
  context : ContextId
  number : Nat
  inside : Option ι := none

def Place.ticket (place : Place ι) : ContextId × Nat := (place.context, place.number)

/-- The places are those of the queues at the guards of contexts that are in use. -/
structure Queued (used : ContextId → Prop) (places : Multiset (Place ι)) (shared : Shared σ) :
    Prop where
  served : ∀ id, used id → (shared.guard id).serving ≤ (shared.guard id).issued
  apart : (places.map Place.ticket).Nodup
  held : ∀ id number, used id → ((id, number) ∈ places.map Place.ticket ↔
    (shared.guard id).serving ≤ number ∧ number < (shared.guard id).issued)
  admitted : ∀ place ∈ places, place.inside ≠ none →
    place.number = (shared.guard place.context).serving
  known : ∀ place ∈ places, used place.context

namespace Queued

variable {used : ContextId → Prop} {places : Multiset (Place ι)} {place : Place ι}
  {shared shared' : Shared σ} {id : ContextId}

/-- Nobody has a place exactly when all guards are free. -/
theorem empty_iff : Queued used (0 : Multiset (Place ι)) shared ↔
    ∀ id, used id → (shared.guard id).isFree = true := by
  simp only [Guard.isFree, decide_eq_true_eq]
  constructor
  · intro queued id mine
    have served := queued.served id mine
    have nobody := queued.held id (shared.guard id).serving mine
    simp only [Multiset.map_zero, Multiset.notMem_zero, false_iff] at nobody
    omega
  · intro free
    refine ⟨?_, Multiset.nodup_zero, ?_, nofun, nofun⟩
    · intro id mine
      exact Nat.le_of_eq (free id mine).symm
    · intro id number mine
      have same := free id mine
      simp only [Multiset.map_zero, Multiset.notMem_zero, false_iff]
      omega

theorem congr (queued : Queued used places shared)
    (same : ∀ id, shared'.guard id = shared.guard id) : Queued used places shared' where
  served id mine := by
    rw [same]
    exact queued.served id mine
  apart := queued.apart
  held id number mine := by
    rw [same]
    exact queued.held id number mine
  admitted place there inside := by
    rw [same]
    exact queued.admitted place there inside
  known := queued.known

/-- Somebody draws a ticket. -/
theorem arrive (queued : Queued used places shared) (mine : used id) :
    Queued used (⟨id, (shared.guard id).issued, none⟩ ::ₘ places)
      (shared.setGuard id (shared.guard id).arrive.2) where
  served other known := by
    have served := queued.served other known
    rw [Shared.guard_setGuard]
    split
    · rename_i same
      subst same
      exact Nat.le_succ_of_le served
    · exact served
  apart := by
    rw [Multiset.map_cons, Multiset.nodup_cons]
    refine ⟨fun there => ?_, queued.apart⟩
    exact Nat.lt_irrefl _ ((queued.held id _ mine).mp there).2
  held other number known := by
    have served := queued.served other known
    have before := queued.held other number known
    rw [Multiset.map_cons, Multiset.mem_cons, before, Shared.guard_setGuard]
    by_cases same : id = other
    · subst same
      simp only [Place.ticket, Prod.mk.injEq, true_and, if_true, Guard.arrive]
      omega
    · simp only [Place.ticket, Prod.mk.injEq, Ne.symm same, false_and, false_or, same, if_false]
  admitted place there inside := by
    rcases Multiset.mem_cons.mp there with rfl | there
    · exact (inside rfl).elim
    · rw [queued.admitted place there inside, Shared.guard_setGuard]
      split
      · rename_i same
        rw [← same]
        rfl
      · rfl
  known place there := by
    rcases Multiset.mem_cons.mp there with rfl | there
    · exact mine
    · exact queued.known place there

/-- The holder of a ticket is let in, or goes on inside. -/
theorem move {place' : Place ι} (queued : Queued used (place ::ₘ places) shared)
    (same : place'.ticket = place.ticket)
    (due : place'.inside ≠ none → place.number = (shared.guard place.context).serving) :
    Queued used (place' ::ₘ places) shared where
  served := queued.served
  apart := by
    rw [Multiset.map_cons, same, ← Multiset.map_cons]
    exact queued.apart
  held id number mine := by
    rw [Multiset.map_cons, same, ← Multiset.map_cons]
    exact queued.held id number mine
  admitted other there inside := by
    rcases Multiset.mem_cons.mp there with rfl | there
    · obtain ⟨context, number⟩ := Prod.mk.inj same
      rw [context, number]
      exact due inside
    · exact queued.admitted other (Multiset.mem_cons_of_mem there) inside
  known other there := by
    rcases Multiset.mem_cons.mp there with rfl | there
    · rw [(Prod.mk.inj same).1]
      exact queued.known place (Multiset.mem_cons_self place places)
    · exact queued.known other (Multiset.mem_cons_of_mem there)

/-- While the holder of the served ticket has its place, nobody else is inside. -/
theorem alone (queued : Queued used (place ::ₘ places) shared)
    (due : place.number = (shared.guard place.context).serving) {other : Place ι}
    (there : other ∈ places) (same : other.context = place.context) : other.inside = none := by
  by_contra inside
  have number := queued.admitted other (Multiset.mem_cons_of_mem there) inside
  have apart := queued.apart
  rw [Multiset.map_cons, Multiset.nodup_cons] at apart
  apply apart.1
  have ticket : other.ticket = place.ticket := by
    rw [Place.ticket, Place.ticket, number, same, due]
  rw [← ticket]
  exact Multiset.mem_map_of_mem Place.ticket there

/-- Who is inside leaves, and the next ticket is served. -/
theorem leave {number : Nat} {point : ι}
    (queued : Queued used (⟨id, number, some point⟩ ::ₘ places) shared) :
    Queued used places (shared.setGuard id (shared.guard id).release) := by
  have here := Multiset.mem_cons_self (⟨id, number, some point⟩ : Place ι) places
  have due : number = (shared.guard id).serving :=
    queued.admitted _ here (Option.some_ne_none point)
  have mine := queued.known _ here
  have apart := queued.apart
  have held := queued.held
  simp only [Multiset.map_cons, Multiset.nodup_cons, Multiset.mem_cons, Place.ticket] at apart held
  have drawn := ((held id number mine).mp (.inl rfl)).2
  refine ⟨?_, apart.2, ?_, ?_, ?_⟩
  · intro other known
    rw [Shared.guard_setGuard]
    split
    · simp only [Guard.release]
      omega
    · exact queued.served other known
  · intro other ticket known
    have before := held other ticket known
    rw [Shared.guard_setGuard]
    by_cases same : id = other
    · subst same
      simp only [if_true, Guard.release]
      by_cases mine : ticket = number
      · subst mine
        exact iff_of_false apart.1 (by omega)
      · rw [Prod.mk.injEq] at before
        simp only [mine, and_false, false_or] at before
        rw [before]
        omega
    · rw [Prod.mk.injEq] at before
      simp only [Ne.symm same, false_and, false_or] at before
      rw [if_neg same]
      exact before
  · intro other there inside
    rw [queued.admitted other (Multiset.mem_cons_of_mem there) inside, Shared.guard_setGuard]
    split
    · rename_i same
      exact (inside (queued.alone due there same.symm)).elim
    · rfl
  · intro other there
    exact queued.known other (Multiset.mem_cons_of_mem there)

/-- Where anybody has a place, the ticket that is served next is held by somebody. -/
theorem exists_first (queued : Queued used places shared) (there : place ∈ places) :
    ∃ first ∈ places, first.context = place.context ∧
      first.number = (shared.guard place.context).serving := by
  have mine := queued.known place there
  have waits := (queued.held _ _ mine).mp (Multiset.mem_map_of_mem Place.ticket there)
  have next : (place.context, (shared.guard place.context).serving) ∈
      places.map Place.ticket := by
    rw [queued.held _ _ mine]
    exact ⟨Nat.le_refl _, Nat.lt_of_le_of_lt waits.1 waits.2⟩
  obtain ⟨first, held, ticket⟩ := Multiset.mem_map.mp next
  obtain ⟨context, number⟩ := Prod.mk.inj ticket
  exact ⟨first, held, context, number⟩

end Queued

/-- There are places, and none of them is served. -/
def HeldUp (places : Multiset (Place ι)) (shared : Shared σ) : Prop :=
  (∃ place, place ∈ places) ∧
    ∀ place ∈ places, place.number ≠ (shared.guard place.context).serving

/-- What the callers of guards hold is their places. -/
def queueLedger (used : ContextId → Prop) : Ledger (Multiset (Place ι)) (Shared σ) where
  agrees := Queued used
  stuck := HeldUp

/-- The queues at the guards never come to a standstill. -/
theorem queueLedger_live (used : ContextId → Prop) :
    (queueLedger used : Ledger (Multiset (Place ι)) (Shared σ)).Live where
  add held other state waits waits' := by
    obtain ⟨⟨place, there⟩, unserved⟩ := waits
    refine ⟨⟨place, Multiset.mem_add.mpr (.inl there)⟩, fun place there => ?_⟩
    rcases Multiset.mem_add.mp there with there | there
    · exact unserved place there
    · exact waits'.2 place there
  free held state queued := by
    rintro ⟨⟨place, there⟩, unserved⟩
    obtain ⟨first, held, context, number⟩ := Queued.exists_first queued there
    apply unserved first held
    rw [number, context]

end FieldCrypt
