import FieldCrypt.Proofs.Client.Effects
import FieldCrypt.Proofs.Key.Move
import FieldCrypt.Proofs.Provider.Inverse
import FieldCrypt.Proofs.Service.Restore
import FieldCrypt.Simulation

/-!
# Services while a key moves

`Safe` says where the broker keeps a key that is on the move, which contexts are bound to it, and
that no cache has got hold of anything else in its place. Whatever a client or a sealing service
does with the key leaves that so. What it finds is the one web key, whether its requests reach the
broker before the key moves or after that.
-/

namespace FieldCrypt

open Broker

namespace Move

/-- How far a move has come: whether the key has moved, and the contexts known to be bound to it. -/
structure Phase where
  moved : Bool := false
  bound : ContextId → Prop := fun _ => False

instance : Preorder Phase where
  le before after := (before.moved = true → after.moved = true) ∧
    ∀ context, before.bound context → after.bound context
  le_refl _ := ⟨id, fun _ => id⟩
  le_trans _ _ _ first second :=
    ⟨second.1 ∘ first.1, fun context => second.2 context ∘ first.2 context⟩

variable {move : Move} {services : List Service} {phase : Phase} {shared : Shared Simulation}

/-- The broker keeps the key under one of the URIs, and knows the new one when the key has moved. -/
inductive Placed (move : Move) (broker : State) : Bool → Prop where
  | before (held : broker.Holds move.source move.jwk)
      (stays : broker.migrations.find? move.source.text = none) : Placed move broker false
  | after (held : broker.Holds move.target move.jwk) (left : broker.kept? move.source = none)
      (moved : broker.migrations.find? move.source.text = some move.target.text) :
      Placed move broker true

/-- What is kept and told under other URIs makes no difference. -/
theorem Placed.congr {broker other : State} {moved : Bool} (placed : move.Placed broker moved)
    (kept : ∀ uri, move.Concerns uri → other.kept? uri = broker.kept? uri)
    (told : other.migrations.find? move.source.text = broker.migrations.find? move.source.text) :
    move.Placed other moved := by
  have source := kept move.source (.inl rfl)
  have target := kept move.target (.inr rfl)
  cases placed with
  | before held stays => exact .before (source.trans held) (told.trans stays)
  | after held left moved => exact .after (target.trans held) (source.trans left) (told.trans moved)

/-- The broker answers for itself and has the key in its place, contexts are bound to the key, and the
caches of some services hold nothing else under its URIs. -/
structure Safe (move : Move) (services : List Service) (phase : Phase)
    (shared : Shared Simulation) : Prop where
  unscripted : shared.outside.broker.script = []
  placed : move.Placed shared.outside.broker phase.moved
  rests : shared.outside.broker.migrations.find? move.target.text = none
  bound : ∀ context, phase.bound context → (shared.context context).keyUrl = some move.source
  carried : ∀ service ∈ services, ∀ id, service.client.cache = some id →
    move.Carried (shared.cache id)

/-- The broker moves the key. -/
def migrate (move : Move) (shared : Shared Simulation) : Shared Simulation :=
  { shared with outside := { shared.outside with
      broker := shared.outside.broker.moveKey move.source.text move.target.text } }

theorem Safe.migrate (safe : move.Safe services phase shared) :
    move.Safe services { phase with moved := true } (move.migrate shared) where
  unscripted := safe.unscripted
  placed := by
    have moved : (move.migrate shared).outside.broker.migrations.find? move.source.text =
        some move.target.text := by
      simp [Move.migrate]
    cases phase with
    | mk gone bound =>
        cases safe.placed with
        | before held stays =>
            obtain ⟨there, left⟩ := State.kept_moveKey move.apart held
            exact .after there left moved
        | after held left _ =>
            have same := State.keys_moveKey_of_none left move.target.text
            refine .after ?_ ?_ moved
            · simp only [State.Holds, State.kept?, Move.migrate, same]
              exact held
            · simp only [State.kept?, Move.migrate, same]
              exact left
  rests := by
    have differ : move.source.text ≠ move.target.text :=
      fun same => move.apart (congrArg KeyUri.mk same)
    simp only [Move.migrate, State.migrations_moveKey, if_neg differ]
    exact safe.rests
  bound := safe.bound
  carried := safe.carried

/-- The cache of a service changes, and still holds nothing else. -/
theorem Safe.setCache (safe : move.Safe services phase shared) {id : CacheId} {cache : KeyCache}
    (carried : move.Carried cache) : move.Safe services phase (shared.setCache id cache) where
  unscripted := safe.unscripted
  placed := safe.placed
  rests := safe.rests
  bound := safe.bound
  carried service mem other own := by
    by_cases same : id = other
    · subst same
      rw [Shared.cache_setCache]
      exact carried
    · rw [Shared.cache, Shared.setCache, Numbered.get_modify_of_ne _ same]
      exact safe.carried service mem other own

/-- The broker answers a request to retrieve a key, and stays as it was. -/
theorem Safe.send (safe : move.Safe services phase shared) {uri : KeyUri} (kms : uri.IsKms)
    (options : Option Options) :
    ∃ next, Simulation.environment.handle _ (.send { request := .retrieve uri.text, options })
        shared = some (shared.outside.broker.retrieved uri, next) ∧
      move.Safe services phase next := by
  refine ⟨{ shared with outside := { shared.outside with
    broker := shared.outside.broker.noted { request := .retrieve uri.text, options } } }, ?_, ?_⟩
  · simp only [Environment.handle, Simulation.environment,
      State.receive_retrieve kms safe.unscripted]
  · exact ⟨safe.unscripted, safe.placed.congr (fun _ _ => rfl) rfl, safe.rests, safe.bound,
      safe.carried⟩

/-- What a client finds is the key. -/
def Found (move : Move) (outcome : Except ClientError KeyMaterial) : Prop :=
  ∃ key, outcome = .ok key ∧ move.Finds key

/-- The upholding of `Safe` for the services. -/
abbrev Upholds (move : Move) (services : List Service) (phase : Phase) {α : Type}
    (routine : Routine Effect α) (post : α → Prop) : Prop :=
  routine.Upholds Simulation.environment.handle (move.Safe services) phase post

/-- Under the new URI a key that has moved is found at once. -/
theorem fetched_upholds (moved : phase.moved = true) (options : Option Options) :
    move.Upholds services phase (Client.send (.retrieve move.target.text) options) fun outcome =>
      Client.keyOfOutcome move.target outcome = .ok ⟨move.target, move.jwk⟩ := by
  intro now reached shared safe
  obtain ⟨next, handled, safe'⟩ := safe.send move.target_kms options
  refine ⟨_, next, now, handled, le_refl now, safe', ?_⟩
  have placed := safe.placed
  rw [reached.1 moved] at placed
  cases placed with
  | after held _ _ => exact (State.key_of_holds move.target_kms held safe.rests).2

/-- A request for the old URI may reach the broker before the key moves or after that, and one for
the new URI that answers a redirect is sent after that. -/
theorem fetch_upholds (options : Option Options) :
    move.Upholds services phase (Client.fetch move.source options) move.Found := by
  -- Not by `bind`: a redirect says something of the phase that it came from, not only of the answer.
  intro now reached shared safe
  obtain ⟨next, handled, safe'⟩ := safe.send move.source_kms options
  refine ⟨_, next, now, handled, le_refl now, safe', ?_⟩
  generalize arrived : now.moved = moved
  have placed := safe.placed
  rw [arrived] at placed
  cases placed with
  | before held stays =>
      obtain ⟨stays, found⟩ := State.key_of_holds move.source_kms held stays
      simp only [Routine.bind, stays]
      exact ⟨_, found, finds_source⟩
  | after _ _ moved =>
      have redirects := State.redirect_of_moved move.target_kms moved
      simp only [Routine.bind, redirects]
      refine (fetched_upholds arrived options).bind ?_
      intro outcome found
      exact ⟨_, found, finds_target⟩

theorem lookup_upholds {service : Service} (mem : service ∈ services) {id : CacheId}
    (own : service.client.cache = some id) :
    move.Upholds services phase (Routine.ask (.lookup id move.source)) fun found =>
      ∀ key, found = some key → move.Finds key := by
  intro now _ shared safe
  have carried := safe.carried service mem id own
  exact ⟨_, _, now, rfl, le_refl now, safe.setCache (carried.get? move.source),
    fun key found => carried.finds_of_get? found⟩

theorem remember_upholds {service : Service} (mem : service ∈ services) {id : CacheId}
    (own : service.client.cache = some id) {key : KeyMaterial} (finds : move.Finds key) :
    move.Upholds services phase (Routine.ask (.remember id move.source key)) fun _ => True := by
  intro now _ shared safe
  have carried := safe.carried service mem id own
  exact ⟨_, _, now, rfl, le_refl now, safe.setCache (carried.insert finds), trivial⟩

theorem fetchInto_upholds {service : Service} (mem : service ∈ services) {id : CacheId}
    (own : service.client.cache = some id) :
    move.Upholds services phase (Client.fetchInto id move.source) move.Found := by
  refine (fetch_upholds none).bind ?_
  rintro outcome ⟨key, rfl, finds⟩
  refine (remember_upholds mem own finds).bind ?_
  intro _ _
  exact ⟨key, rfl, finds⟩

/-- A client of the services finds the key under its old URI, from its cache or from the broker. -/
theorem resolveKey_upholds {service : Service} (mem : service ∈ services) (options : Options) :
    move.Upholds services phase (service.client.resolveKey move.source options) move.Found := by
  unfold Client.resolveKey
  rw [if_neg (by simp [move.source_kms.isEmpty_eq_false])]
  split
  · rename_i id _ own
    refine (lookup_upholds mem own).bind ?_
    rintro (_ | key) found
    · exact fetchInto_upholds mem own
    · exact ⟨key, rfl, found key rfl⟩
  · exact fetch_upholds options.sent?

/-- The text that was sealed under the key. -/
def opens (move : Move) : String → Except CryptoError String :=
  SealedText.read ⟨move.source, move.jwk⟩

theorem Finds.read_eq {key : KeyMaterial} (finds : move.Finds key) :
    SealedText.read key = move.opens :=
  SealedText.read_congr finds.jwk_eq

/-- What the provider of a service finds is the key. -/
theorem resolve_upholds {service : Service} (mem : service ∈ services) :
    move.Upholds services phase (Provider.resolve service.client (.named move.source))
      fun outcome => ∃ key, outcome = .ok key ∧ move.Finds key := by
  refine (resolveKey_upholds mem {}).bind ?_
  rintro outcome ⟨key, rfl, finds⟩
  exact ⟨key, rfl, finds⟩

theorem draw_upholds (count : Nat) :
    move.Upholds services phase (Routine.ask (.draw count)) fun bytes => bytes.length = count := by
  intro now _ shared safe
  refine ⟨_, _, now, rfl, le_refl now, ?_, Draws.length_take _ _⟩
  exact ⟨safe.unscripted, safe.placed, safe.rests, safe.bound, safe.carried⟩

/-- The service seals texts itself, with keys that its own client finds. -/
abbrev Sealing (service : Service) : Prop := service.provider = .sealing service.client

/-- What a service seals can be opened with the key wherever that is by then. -/
theorem seal_upholds {service : Service} (mem : service ∈ services) (sealing : Sealing service)
    (text : String) :
    move.Upholds services phase (service.provider.transform .encrypt (.named move.source) text)
      fun outcome => ∃ ciphertext, outcome = .ok ciphertext ∧
        Layout.Seals move.opens text ciphertext := by
  rw [sealing]
  refine (resolve_upholds mem).bind ?_
  rintro outcome ⟨key, rfl, finds⟩
  refine (draw_upholds SealedText.nonceLength).bind ?_
  intro nonce fits
  refine ⟨_, rfl, SealedText.write_ne_empty key nonce text, ?_⟩
  rw [← finds.read_eq]
  exact SealedText.read_write rfl fits text

theorem open_upholds {service : Service} (mem : service ∈ services) (sealing : Sealing service)
    {ciphertext text : String} (opens : move.opens ciphertext = .ok text) :
    move.Upholds services phase
      (service.provider.transform .decrypt (.named move.source) ciphertext) (· = .ok text) := by
  rw [sealing]
  refine (resolve_upholds mem).bind ?_
  rintro outcome ⟨key, rfl, finds⟩
  change SealedText.read key ciphertext = .ok text
  rw [finds.read_eq, opens]

theorem boundKey_upholds {context : ContextId} (bound : phase.bound context) :
    move.Upholds services phase (Client.boundKey context) (· = .ok move.source) := by
  intro now reached shared safe
  refine ⟨_, _, now, rfl, le_refl now, safe, ?_⟩
  rw [safe.bound context (reached.2 context bound)]
  rfl

variable {R : Type} [Protected R] [LawfulProtected R]

/-- The record stamped with the old URI, with every text sealed under the key. -/
def SealedAs (move : Move) (record sealed : R) : Prop :=
  Protected.layout.Treats (Layout.Seals move.opens) (Protected.stamp record move.source) sealed

theorem encrypt_upholds {service : Service} (mem : service ∈ services) (sealing : Sealing service)
    {context : ContextId} (bound : phase.bound context) (record : R) :
    move.Upholds services phase (service.encrypt context record) fun ended =>
      ended.1 = .ok () ∧ move.SealedAs record ended.2 :=
  Service.encrypt_upholds (boundKey_upholds bound) (seal_upholds mem sealing) record

theorem decrypt_upholds {service : Service} (mem : service ∈ services) (sealing : Sealing service)
    {record sealed : R} (seals : move.SealedAs record sealed) :
    move.Upholds services phase (service.decrypt sealed)
      (· = (.ok (), Protected.stamp record move.source)) :=
  Service.decrypt_upholds move.source_kms.isEmpty_eq_false seals
    fun _ _ => open_upholds mem sealing

end Move

end FieldCrypt
