import FieldCrypt.Proofs.Broker.Creation
import FieldCrypt.Proofs.Context.Admission
import FieldCrypt.Simulation
import Mathlib.Algebra.Group.Prod
import Mathlib.Algebra.GroupWithZero.Nat

/-!
# A race for the key of one context

Some callers, and nobody else, want the key of an unbound context from an unscripted broker. The first
who gets past the guard has a key created and binds the context; until then broker and random bytes
are as at the start, and afterwards they stay as that one request left them. So all callers come to
the same URI, which is known before the race begins.
-/

namespace FieldCrypt

open Broker (Call)

/-- What a race is about: the context, the outside at the start, the number of callers, and the
cipher that they ask later on, a stand-in that refuses some texts. -/
structure Race where
  context : ContextId
  start : Simulation
  callers : Nat
  cipher : CipherId
  refused : List String

/-- How far the race has got: nobody has had a key created, somebody has, or the context is bound. -/
inductive Progress where
  | unbound | created | bound
  deriving DecidableEq

namespace Race

/-- The URI that all callers come to. -/
def uri (race : Race) : KeyUri := race.start.broker.nextUri race.start.draws

/-- The broker and the random bytes that are left. -/
def store (race : Race) : Progress → Broker.State × Draws
  | .unbound => (race.start.broker, race.start.draws)
  | .created | .bound => (race.start.broker.creates race.start.draws).2

def url (race : Race) : Progress → Option KeyUri
  | .unbound | .created => none
  | .bound => some race.uri

/-- What is shared shows how far the race has got. -/
structure Shows (race : Race) (progress : Progress) (shared : Shared Simulation) : Prop where
  store : (shared.outside.broker, shared.outside.draws) = race.store progress
  url : (shared.context race.context).keyUrl = race.url progress
  standIn : ∃ state, shared.outside.standIn race.cipher = .reversible state ∧
    state.refused = race.refused

/-- What callers hold: their places in the queue, and a mark each until they have the key. -/
abbrev Holding := Multiset (Place Progress) × Nat

/-- Who is inside knows how far the race has got. While nobody is inside, no key is created that the
context is not bound to, and who has put away the mark has left the context bound. -/
structure Agrees (race : Race) (progress : Progress) (held : Holding) (shared : Shared Simulation) :
    Prop where
  queued : Queued (· = race.context) held.1 shared
  shows : race.Shows progress shared
  inside : ∀ place ∈ held.1, ∀ known, place.inside = some known → known = progress
  settled : (∀ place ∈ held.1, place.inside = none) → progress ≠ .created
  marks : held.2 < race.callers → progress = .bound

def ledger (race : Race) : Ledger Holding (Shared Simulation) where
  agrees held shared := ∃ progress, race.Agrees progress held shared
  stuck _ _ := True

/-- What a caller holds that has a place in the queue. -/
def place (race : Race) (number : Nat) (known : Option Progress) : Holding :=
  ({⟨race.context, number, known⟩}, 1)

/-- To go on with this in hand, and to come to the URI and end with nothing. -/
abbrev Comes (race : Race) (routine : Routine Effect Context.KeyOutcome) (held : Holding) : Prop :=
  routine.Accounts Simulation.environment.handle race.ledger held
    (Routine.EmptyHanded (· = .ok race.uri))

variable {race : Race} {progress progress' : Progress} {number : Nat} {known : Option Progress}
  {others : Holding} {shared shared' : Shared Simulation}

theorem place_add : (race.place number known + others).1 =
    ⟨race.context, number, known⟩ ::ₘ others.1 :=
  Multiset.singleton_add _ _

namespace Agrees

/-- While one caller has the place that is served, the others are not inside. -/
theorem outside (agrees : race.Agrees progress (race.place number known + others) shared)
    (due : number = (shared.guard race.context).serving) :
    ∀ place ∈ others.1, place.inside = none := by
  have queued := agrees.queued
  rw [place_add] at queued
  intro place there
  exact queued.alone due there (queued.known place (Multiset.mem_cons_of_mem there))

theorem due {inside : Progress}
    (agrees : race.Agrees progress (race.place number (some inside) + others) shared) :
    inside = progress ∧ number = (shared.guard race.context).serving := by
  have here : (⟨race.context, number, some inside⟩ : Place Progress) ∈
      (race.place number (some inside) + others).1 := by
    rw [place_add]
    exact Multiset.mem_cons_self _ _
  exact ⟨agrees.inside _ here inside rfl,
    agrees.queued.admitted _ here (Option.some_ne_none inside)⟩

/-- Who is served goes on, and knows how far the race has got then. -/
theorem advance (agrees : race.Agrees progress (race.place number known + others) shared)
    (due : number = (shared.guard race.context).serving)
    (guards : ∀ id, shared'.guard id = shared.guard id) (shows : race.Shows progress' shared')
    (onward : progress = .bound → progress' = .bound) :
    race.Agrees progress' (race.place number (some progress') + others) shared' where
  queued := by
    have queued := agrees.queued
    rw [place_add] at queued ⊢
    have moved : Queued (· = race.context)
        ((⟨race.context, number, some progress'⟩ : Place Progress) ::ₘ others.1) shared :=
      queued.move rfl fun _ => due
    exact moved.congr guards
  shows := shows
  inside := by
    rw [place_add]
    refine Multiset.forall_mem_cons.mpr ⟨fun known same => (Option.some.inj same).symm, ?_⟩
    intro place there known inside
    rw [agrees.outside due place there] at inside
    cases inside
  settled nobody := by
    rw [place_add] at nobody
    cases nobody _ (Multiset.mem_cons_self _ _)
  marks fewer := onward (agrees.marks fewer)

/-- Who has bound the context leaves. -/
theorem leave (agrees : race.Agrees progress (race.place number (some .bound) + others) shared) :
    race.Agrees .bound others
      (shared.setGuard race.context (shared.guard race.context).release) := by
  obtain ⟨rfl, due⟩ := agrees.due
  have queued := agrees.queued
  rw [place_add] at queued
  refine ⟨queued.leave, ⟨agrees.shows.store, ?_, agrees.shows.standIn⟩, ?_, fun _ => nofun,
    fun _ => rfl⟩
  · rw [Shared.setGuard, Shared.context_setContext]
    exact agrees.shows.url
  · intro place there known inside
    rw [agrees.outside due place there] at inside
    cases inside

/-- Somebody comes and queues. -/
theorem arrive (agrees : race.Agrees progress ((0, 1) + others) shared) :
    race.Agrees progress (race.place (shared.guard race.context).issued none + others)
      (shared.setGuard race.context (shared.guard race.context).arrive.2) where
  queued := by
    have queued := agrees.queued
    rw [Prod.fst_add, zero_add] at queued
    rw [place_add]
    exact queued.arrive rfl
  shows := by
    refine ⟨agrees.shows.store, ?_, agrees.shows.standIn⟩
    rw [Shared.setGuard, Shared.context_setContext]
    exact agrees.shows.url
  inside := by
    have inside := agrees.inside
    rw [Prod.fst_add, zero_add] at inside
    rw [place_add]
    refine Multiset.forall_mem_cons.mpr ⟨fun known same => ?_, inside⟩
    cases same
  settled nobody := by
    have settled := agrees.settled
    rw [Prod.fst_add, zero_add] at settled
    rw [place_add] at nobody
    exact settled (Multiset.forall_mem_cons.mp nobody).2
  marks := agrees.marks

/-- Who sees the context bound puts away its mark. -/
theorem put (agrees : race.Agrees .bound ((0, 1) + others) shared) :
    race.Agrees .bound others shared := by
  obtain ⟨queued, shows, inside, settled, -⟩ := agrees
  rw [Prod.fst_add, zero_add] at queued inside settled
  exact ⟨queued, shows, inside, settled, fun _ => rfl⟩

end Agrees

theorem leave_comes (race : Race) (number : Nat) :
    race.Comes (Context.leave race.context (.ok race.uri)) (race.place number (some .bound)) := by
  rintro others shared ⟨progress, agrees⟩
  refine ⟨nofun, fun answer next handled => ?_⟩
  obtain ⟨-, rfl⟩ := Prod.mk.inj (Option.some.inj handled)
  refine ⟨0, ⟨.bound, ?_⟩, rfl, rfl⟩
  rw [zero_add]
  exact agrees.leave

theorem settle_comes (race : Race) (number : Nat) :
    race.Comes (Context.settle race.context (.ok race.uri))
      (race.place number (some .created)) := by
  rintro others shared ⟨progress, agrees⟩
  obtain ⟨rfl, due⟩ := agrees.due
  refine ⟨nofun, fun answer next handled => ?_⟩
  have guards := Environment.guard_of_handled handled trivial
  obtain ⟨-, rfl⟩ := Prod.mk.inj (Option.some.inj handled)
  refine ⟨race.place number (some .bound), ⟨.bound, ?_⟩, race.leave_comes number⟩
  refine agrees.advance due guards ⟨agrees.shows.store, ?_, agrees.shows.standIn⟩ fun _ => rfl
  rw [Shared.context_setContext]
  rfl

/-- Who sees that there is no key, inside, has it created. -/
theorem createKey_accounts (unscripted : race.start.broker.script = []) (number : Nat) :
    Client.createKey.Accounts Simulation.environment.handle race.ledger
      (race.place number (some .unbound)) fun outcome left =>
        outcome = .ok race.uri ∧ left = race.place number (some .created) := by
  rw [Client.createKey_eq]
  rintro others ⟨⟨broker, draws, standIns⟩, caches, contexts⟩ ⟨progress, agrees⟩
  obtain ⟨rfl, due⟩ := agrees.due
  obtain ⟨rfl, rfl⟩ := Prod.mk.inj agrees.shows.store
  refine ⟨nofun, fun outcome next handled => ?_⟩
  have guards := Environment.guard_of_handled handled trivial
  obtain ⟨rfl, rfl⟩ := Prod.mk.inj (Option.some.inj handled)
  refine ⟨race.place number (some .created), ⟨.created, ?_⟩, ?_, rfl⟩
  · refine agrees.advance due guards ⟨?_, agrees.shows.url, agrees.shows.standIn⟩ nofun
    exact congrArg Prod.snd (Broker.State.receive_creation unscripted race.start.draws)
  · exact Broker.State.createdUri_receive unscripted race.start.draws

theorem recheck_comes (unscripted : race.start.broker.script = []) {known : Progress}
    (settled : known ≠ .created) (number : Nat) :
    race.Comes (Context.recheck race.context Client.createKey)
      (race.place number (some known)) := by
  rintro others shared ⟨progress, agrees⟩
  obtain ⟨rfl, due⟩ := agrees.due
  refine ⟨nofun, fun url next handled => ?_⟩
  obtain ⟨rfl, rfl⟩ := Prod.mk.inj (Option.some.inj handled)
  refine ⟨race.place number (some known), ⟨known, agrees⟩, ?_⟩
  rw [agrees.shows.url]
  cases known with
  | unbound =>
      refine (createKey_accounts unscripted number).bind ?_
      rintro _ _ ⟨rfl, rfl⟩
      exact race.settle_comes number
  | created => exact (settled rfl).elim
  | bound => exact race.leave_comes number

theorem await_comes (unscripted : race.start.broker.script = []) (number : Nat) :
    race.Comes (Context.await race.context Client.createKey number) (race.place number none) := by
  rintro others shared ⟨progress, agrees⟩
  refine ⟨fun _ => trivial, fun answer next handled => ?_⟩
  simp only [Environment.handle, Guard.admits, decide_eq_true_eq] at handled
  split at handled
  · rename_i due
    obtain ⟨-, rfl⟩ := Prod.mk.inj (Option.some.inj handled)
    have settled : progress ≠ .created := by
      apply agrees.settled
      rw [place_add]
      exact Multiset.forall_mem_cons.mpr ⟨rfl, agrees.outside due.symm⟩
    exact ⟨race.place number (some progress),
      ⟨progress, agrees.advance due.symm (fun _ => rfl) agrees.shows id⟩,
      recheck_comes unscripted settled number⟩
  · cases handled

/-- Every caller comes to the same URI, and has put away its mark then. -/
theorem boundKey_comes (unscripted : race.start.broker.script = []) :
    race.Comes (Client.boundKey race.context) (0, 1) := by
  rw [Client.boundKey, Context.bindOnce_eq]
  rintro others shared ⟨progress, agrees⟩
  refine ⟨nofun, fun url next handled => ?_⟩
  obtain ⟨rfl, rfl⟩ := Prod.mk.inj (Option.some.inj handled)
  rw [agrees.shows.url]
  -- Others may go on between the look at the context and the arrival at its guard, so that the race
  -- can have got further by then.
  have queues : race.Comes (Context.queue race.context Client.createKey) (0, 1) := by
    rintro others shared ⟨progress, agrees⟩
    refine ⟨nofun, fun number next handled => ?_⟩
    obtain ⟨rfl, rfl⟩ := Prod.mk.inj (Option.some.inj handled)
    exact ⟨race.place _ none, ⟨progress, agrees.arrive⟩, await_comes unscripted _⟩
  cases progress with
  | unbound | created => exact ⟨(0, 1), ⟨_, agrees⟩, queues⟩
  | bound =>
      refine ⟨0, ⟨.bound, ?_⟩, rfl, rfl⟩
      rw [zero_add]
      exact agrees.put

end Race

end FieldCrypt
