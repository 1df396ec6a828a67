import FieldCrypt.Proofs.Service.Moving

/-!
# Services over a key that migrates

Any number of sealing services share a broker that moves a key from one URI to another while
contexts are bound to it. Whoever resolves the key, encrypts under it or decrypts under it may be at
any point of that work when the key moves, and finds the same web key all the same. So what any of
the services has sealed, before that or after it, all of them restore.
-/

namespace FieldCrypt

open Broker

variable {σ : Type}

namespace Service

/-- Sealing services with these settings, one after another. -/
def createAll : List ServiceConfig → Shared σ → List Service × Shared σ
  | [], shared => ([], shared)
  | config :: rest, shared =>
    let (service, shared) := createSealing config shared
    let (services, shared) := createAll rest shared
    (service :: services, shared)

/-- Caches have come in fresh places, and nothing else has changed. -/
structure Grown (before after : Shared σ) : Prop where
  outside : after.outside = before.outside
  contexts : after.contexts = before.contexts
  fresh : before.caches.fresh ≤ after.caches.fresh
  cache : ∀ id, id < before.caches.fresh → after.cache id = before.cache id

/-- The cache of a service, if it has one, is in its place and empty. -/
structure New (service : Service) (shared : Shared σ) : Prop where
  sealing : service.provider = .sealing service.client
  cache : ∀ id, service.client.cache = some id → id < shared.caches.fresh ∧
    ∃ capacity, shared.cache id = .ofCapacity capacity

variable {before middle after shared : Shared σ}

theorem Grown.refl (shared : Shared σ) : Grown shared shared :=
  ⟨rfl, rfl, Nat.le_refl _, fun _ _ => rfl⟩

theorem Grown.trans (first : Grown before middle) (second : Grown middle after) :
    Grown before after where
  outside := second.outside.trans first.outside
  contexts := second.contexts.trans first.contexts
  fresh := first.fresh.trans second.fresh
  cache id there := (second.cache id (there.trans_le first.fresh)).trans (first.cache id there)

theorem New.grown {service : Service} (new : New service before) (grown : Grown before after) :
    New service after where
  sealing := new.sealing
  cache id own := by
    obtain ⟨there, capacity, empty⟩ := new.cache id own
    exact ⟨there.trans_le grown.fresh, capacity, (grown.cache id there).trans empty⟩

theorem fresh_addCache (shared : Shared σ) (cache : KeyCache) :
    (shared.addCache cache).2.caches.fresh = shared.caches.fresh + 1 := by
  have grows (list : List KeyCache) :
      (Numbered.change (fun _ => cache) list list.length).length = list.length + 1 := by
    induction list with
    | nil => rfl
    | cons first rest ih => exact congrArg (· + 1) ih
  exact grows shared.caches.written

theorem grown_addCache (shared : Shared σ) (cache : KeyCache) :
    Grown shared (shared.addCache cache).2 where
  outside := rfl
  contexts := rfl
  fresh := by
    rw [fresh_addCache]
    exact Nat.le_succ _
  cache _ there := Numbered.get_modify_of_ne _ (Nat.ne_of_gt there) _

theorem createSealing_new (config : ServiceConfig) (shared : Shared σ) :
    Grown shared (createSealing config shared).2 ∧
      New (createSealing config shared).1 (createSealing config shared).2 := by
  by_cases caching : config.client.cacheResolvedKeys = true
  · simp only [createSealing, Client.create, if_pos caching]
    refine ⟨grown_addCache shared _, rfl, ?_⟩
    rintro id ⟨⟩
    constructor
    · rw [fresh_addCache]
      exact Nat.lt_succ_self _
    · exact ⟨_, Shared.cache_setCache shared _ _⟩
  · simp only [createSealing, Client.create, if_neg caching]
    exact ⟨.refl shared, rfl, fun _ none => by cases none⟩

/-- Services that are made one after another do not get in each other's way. -/
theorem createAll_new (configs : List ServiceConfig) (shared : Shared σ) :
    Grown shared (createAll configs shared).2 ∧
      ∀ service ∈ (createAll configs shared).1, New service (createAll configs shared).2 := by
  induction configs generalizing shared with
  | nil => exact ⟨.refl shared, fun _ none => by cases none⟩
  | cons config rest ih =>
      obtain ⟨grown, new⟩ := createSealing_new config shared
      obtain ⟨more, others⟩ := ih (createSealing config shared).2
      exact ⟨grown.trans more, List.forall_mem_cons.mpr ⟨new.grown more, others⟩⟩

end Service

namespace Move

/-- What somebody wants of a service: to resolve the old URI, to encrypt a record, or to decrypt a
copy of what a record was sealed as. -/
inductive Errand where
  | resolve (service : Service) (options : Options)
  | encrypt (service : Service) (context : ContextId) (kind : RecordKind) (record : kind.Record)
  | decrypt (service : Service) (kind : RecordKind) (record sealed : kind.Record)

/-- What an errand ends with. -/
inductive Outcome where
  | key (outcome : Except ClientError KeyMaterial)
  | record (kind : RecordKind) (ended : Except ServiceError Unit × kind.Record)

/-- What a service does on an errand. -/
def Errand.program (move : Move) : Errand → Routine Effect Outcome
  | resolve service options => do
    return .key (← service.client.resolveKey move.source options)
  | encrypt service context kind record => do
    return .record kind (← service.encrypt context record)
  | decrypt service kind _ sealed => do
    return .record kind (← service.decrypt sealed)

/-- The errand comes to what it should: the one web key, a record sealed under it, or the record as it
was, stamped with the URL of its context. -/
inductive Succeeds (move : Move) : Errand → Outcome → Prop where
  | resolve {service : Service} {options : Options} {key : KeyMaterial}
      (same : key.jwk = move.jwk) : Succeeds move (.resolve service options) (.key (.ok key))
  | encrypt {service : Service} {context : ContextId} {kind : RecordKind}
      {record sealed : kind.Record} (seals : move.SealedAs record sealed) :
      Succeeds move (.encrypt service context kind record) (.record kind (.ok (), sealed))
  | decrypt {service : Service} {kind : RecordKind} {record sealed : kind.Record} :
      Succeeds move (.decrypt service kind record sealed)
        (.record kind (.ok (), Protected.stamp record move.source))

/-- Everybody on an errand, and all that they share. -/
abbrev Errands := Crowd Errand Effect Outcome (Shared Simulation)

/-- Errands that there may be at this time: with one of the services, in contexts that are bound to
the key, on records that somebody has encrypted. -/
inductive Admits (move : Move) (services : List Service) (crowd : Errands) : Errand → Prop where
  | resolve {service : Service} (mem : service ∈ services) (options : Options) :
      Admits move services crowd (.resolve service options)
  | encrypt {service : Service} (mem : service ∈ services) {context : ContextId}
      (bound : (crowd.state.context context).keyUrl = some move.source) {kind : RecordKind}
      (record : kind.Record) : Admits move services crowd (.encrypt service context kind record)
  | decrypt {service : Service} (mem : service ∈ services) {index : Nat} {sealer : Service}
      {context : ContextId} {kind : RecordKind} {record sealed : kind.Record}
      (ended : crowd.Ended index (.encrypt sealer context kind record)
        (.record kind (.ok (), sealed))) :
      Admits move services crowd (.decrypt service kind record sealed)

/-- Whatever else goes on has nothing to do with the key. The broker keeps and tells the same under
its URIs, contexts that are bound to it stay bound, and no cache learns of it. -/
structure Elsewhere (move : Move) (services : List Service) (before after : Shared Simulation) :
    Prop where
  script : after.outside.broker.script = before.outside.broker.script
  kept : ∀ uri, move.Concerns uri →
    after.outside.broker.kept? uri = before.outside.broker.kept? uri
  told : ∀ uri, move.Concerns uri →
    after.outside.broker.migrations.find? uri.text = before.outside.broker.migrations.find? uri.text
  bound : ∀ context, (before.context context).keyUrl = some move.source →
    (after.context context).keyUrl = some move.source
  unlearnt : ∀ service ∈ services, ∀ id, service.client.cache = some id →
    move.Unlearnt (before.cache id) (after.cache id)

/-- Somebody comes on an errand or makes a step, the broker moves the key, or something goes on
elsewhere. -/
inductive Step (move : Move) (services : List Service) (crowd : Errands) : Errands → Prop where
  | come {errand : Errand} (admits : move.Admits services crowd errand) :
      Step move services crowd
        { crowd with callers := crowd.callers ++ [(errand, errand.program move)] }
  | advance {index : Nat} {errand : Errand} {routine routine' : Routine Effect Outcome}
      {state : Shared Simulation} (found : crowd.callers[index]? = some (errand, routine))
      (step : Routine.Step Simulation.environment.handle (routine, crowd.state) (routine', state)) :
      Step move services crowd ⟨crowd.callers.set index (errand, routine'), state⟩
  | migrate : Step move services crowd { crowd with state := move.migrate crowd.state }
  | change {state : Shared Simulation} (elsewhere : move.Elsewhere services crowd.state state) :
      Step move services crowd { crowd with state }

/-- Any number of steps. -/
abbrev Reaches (move : Move) (services : List Service) : Errands → Errands → Prop :=
  Relation.ReflTransGen (move.Step services)

variable {move : Move} {services : List Service} {phase : Phase} {crowd later : Errands}

theorem Safe.elsewhere {before after : Shared Simulation}
    (safe : move.Safe services phase before) (elsewhere : move.Elsewhere services before after) :
    move.Safe services phase after where
  unscripted := elsewhere.script.trans safe.unscripted
  placed := safe.placed.congr elsewhere.kept (elsewhere.told move.source (.inl rfl))
  rests := (elsewhere.told move.target (.inr rfl)).trans safe.rests
  bound context bound := elsewhere.bound context (safe.bound context bound)
  carried service mem id own :=
    (safe.carried service mem id own).unlearnt (elsewhere.unlearnt service mem id own)

/-- Everybody on an errand comes to what they should, and the key is safe. -/
abbrev Upholding (move : Move) (services : List Service) (crowd : Errands) (phase : Phase) : Prop :=
  crowd.Upholding Simulation.environment.handle (move.Safe services) move.Succeeds phase

/-- A record that was encrypted is sealed under the key. -/
theorem Succeeds.sealed {service : Service} {context : ContextId} {kind : RecordKind}
    {record : kind.Record} {outcome : Outcome}
    (succeeds : move.Succeeds (.encrypt service context kind record) outcome) :
    ∃ sealed, outcome = .record kind (.ok (), sealed) ∧ move.SealedAs record sealed := by
  cases succeeds with
  | encrypt seals => exact ⟨_, rfl, seals⟩

theorem Succeeds.sealedAs {service : Service} {context : ContextId} {kind : RecordKind}
    {record sealed : kind.Record}
    (succeeds : move.Succeeds (.encrypt service context kind record)
      (.record kind (.ok (), sealed))) : move.SealedAs record sealed := by
  obtain ⟨_, same, seals⟩ := succeeds.sealed
  cases same
  exact seals

theorem resolve_succeeds {service : Service} (mem : service ∈ services) (options : Options) :
    move.Upholds services phase (Errand.program move (.resolve service options))
      (move.Succeeds (.resolve service options)) := by
  refine (resolveKey_upholds mem options).bind ?_
  rintro outcome ⟨key, rfl, finds⟩
  exact Succeeds.resolve finds.jwk_eq

theorem encrypt_succeeds {service : Service} (mem : service ∈ services) (sealing : Sealing service)
    {context : ContextId} (bound : phase.bound context) {kind : RecordKind} (record : kind.Record) :
    move.Upholds services phase (Errand.program move (.encrypt service context kind record))
      (move.Succeeds (.encrypt service context kind record)) := by
  refine (encrypt_upholds mem sealing bound record).bind ?_
  rintro ⟨outcome, sealed⟩ ⟨rfl, seals⟩
  exact Succeeds.encrypt seals

theorem decrypt_succeeds {service : Service} (mem : service ∈ services) (sealing : Sealing service)
    {kind : RecordKind} {record sealed : kind.Record} (seals : move.SealedAs record sealed) :
    move.Upholds services phase (Errand.program move (.decrypt service kind record sealed))
      (move.Succeeds (.decrypt service kind record sealed)) := by
  refine (decrypt_upholds mem sealing seals).bind ?_
  rintro ended rfl
  exact Succeeds.decrypt

/-- Who comes brings a context along that is known to be bound from then on, or a record that is
known to be sealed. -/
theorem upholding_come (sealing : ∀ service ∈ services, Sealing service)
    (upholding : move.Upholding services crowd phase) {errand : Errand}
    (admits : move.Admits services crowd errand) :
    ∃ after, phase ≤ after ∧ move.Upholding services
      { crowd with callers := crowd.callers ++ [(errand, errand.program move)] } after := by
  cases admits with
  | @resolve service mem options =>
      exact ⟨phase, le_refl phase, upholding.come (resolve_succeeds mem options)⟩
  | @encrypt service mem context bound kind record =>
      -- The context stays bound, so that later phases may all count on it.
      let after : Phase := { phase with bound := fun other => phase.bound other ∨ other = context }
      have onward : phase ≤ after := ⟨id, fun _ => .inl⟩
      have known : after.bound context := .inr rfl
      have safe : move.Safe services after crowd.state := by
        obtain ⟨unscripted, placed, rests, knew, carried⟩ := upholding.holds
        refine ⟨unscripted, placed, rests, ?_, carried⟩
        rintro other (before | rfl)
        · exact knew other before
        · exact bound
      exact ⟨after, onward, (upholding.change onward safe).come
        (encrypt_succeeds mem (sealing service mem) known record)⟩
  | @decrypt service mem index sealer context kind record sealed ended =>
      have succeeds : move.Succeeds (.encrypt sealer context kind record)
          (.record kind (.ok (), sealed)) := upholding.callers index _ _ ended
      exact ⟨phase, le_refl phase, upholding.come
        (decrypt_succeeds mem (sealing service mem) succeeds.sealedAs)⟩

theorem upholding_step (sealing : ∀ service ∈ services, Sealing service)
    (upholding : move.Upholding services crowd phase) (step : move.Step services crowd later) :
    ∃ after, phase ≤ after ∧ move.Upholding services later after := by
  cases step with
  | come admits => exact upholding_come sealing upholding admits
  | advance found step => exact upholding.move found step
  | migrate =>
      have onward : phase ≤ { phase with moved := true } := ⟨fun _ => rfl, fun _ => id⟩
      exact ⟨_, onward, upholding.change onward upholding.holds.migrate⟩
  | change elsewhere =>
      exact ⟨phase, le_refl phase,
        upholding.change (le_refl phase) (upholding.holds.elsewhere elsewhere)⟩

theorem upholding_reaches (sealing : ∀ service ∈ services, Sealing service)
    (upholding : move.Upholding services crowd phase) (reached : move.Reaches services crowd later) :
    ∃ after, phase ≤ after ∧ move.Upholding services later after := by
  induction reached with
  | refl => exact ⟨phase, le_refl phase, upholding⟩
  | tail _ step ih =>
      obtain ⟨between, onward, upholding⟩ := ih
      obtain ⟨after, further, upholding⟩ := upholding_step sealing upholding step
      exact ⟨after, onward.trans further, upholding⟩

/-- Let a broker without a script keep a key, and let it have moved none from the URI of that key
nor from the one to come. Then services made over the broker, with caches of any size or none, do
what they should, whenever the key moves: nobody on an errand is ever held up, everybody who comes
to an end succeeds, and a record that any service has encrypted is restored by every service. -/
theorem errands_succeed (move : Move) (configs : List ServiceConfig) (shared : Shared Simulation)
    (unscripted : shared.outside.broker.script = [])
    (held : shared.outside.broker.Holds move.source move.jwk)
    (stays : shared.outside.broker.migrations.find? move.source.text = none)
    (rests : shared.outside.broker.migrations.find? move.target.text = none) :
    let created := Service.createAll configs shared
    ∀ crowd, move.Reaches created.1 ⟨[], created.2⟩ crowd →
      (∀ (index : Nat) errand routine, crowd.callers[index]? = some (errand, routine) →
        ∃ outcome last, Routine.run Simulation.environment.handle routine crowd.state =
          some (outcome, last) ∧ move.Succeeds errand outcome) ∧
      (∀ index errand outcome, crowd.Ended index errand outcome → move.Succeeds errand outcome) ∧
      ∀ index sealer context (kind : RecordKind) (record sealed : kind.Record),
        crowd.Ended index (.encrypt sealer context kind record) (.record kind (.ok (), sealed)) →
        ∀ service ∈ created.1, service.Restores Simulation.environment crowd.state sealed
          (Protected.stamp record move.source) := by
  intro created crowd reached
  obtain ⟨grown, new⟩ := Service.createAll_new configs shared
  have safe : move.Safe created.1 {} created.2 := by
    constructor
    · rw [grown.outside]
      exact unscripted
    · rw [grown.outside]
      exact .before held stays
    · rw [grown.outside]
      exact rests
    · intro _ none
      cases none
    · intro service mem id own
      obtain ⟨-, capacity, empty⟩ := (new service mem).cache id own
      rw [empty]
      exact .ofCapacity capacity
  have sealing (service : Service) (mem : service ∈ created.1) : Sealing service :=
    (new service mem).sealing
  obtain ⟨after, -, upholding⟩ := upholding_reaches sealing (.start rfl safe) reached
  refine ⟨?_, ?_, ?_⟩
  · intro index errand routine found
    exact (upholding.callers index errand routine found).run upholding.holds
  · intro index errand outcome ended
    exact upholding.callers index errand _ ended
  · intro index sealer context kind record sealed ended service mem
    have succeeds : move.Succeeds (.encrypt sealer context kind record)
        (.record kind (.ok (), sealed)) := upholding.callers index _ _ ended
    exact Service.restores_of_upholds
      (decrypt_upholds mem (sealing service mem) succeeds.sealedAs) upholding.holds

/-- A key of a broker in memory, and where it is going. -/
def relocation : Move where
  source := ⟨"kms://kms/keys/a"⟩
  target := ⟨"kms://kms/keys/b"⟩
  jwk := .str "secret"
  source_kms := by rfl
  target_kms := by rfl
  apart := by decide

/-- That broker with its key, and a context that is bound to the key. -/
def relocating : Shared Simulation where
  outside := {
    broker := ({ host := "kms" } : State).addKey relocation.source.text relocation.jwk
    draws := { source := fun _ _ => 0 } }
  contexts := ⟨[{ keyUrl := some relocation.source }]⟩

/-- The key moves while the title of a task is on its way to being encrypted. The title is encrypted
all the same, and is restored by that service and by one without a cache. -/
theorem errands_succeed_underway :
    let created := Service.createAll [{}, { client := { cacheResolvedKeys := false } }] relocating
    let request : TaskRequest := { title := some "x" }
    ∃ service ∈ created.1, ∃ underway state sealed last,
      let errand : Errand := .encrypt service 0 .taskRequest request
      relocation.Reaches created.1 ⟨[], created.2⟩ ⟨[(errand, underway)], state⟩ ∧
      underway.result? = none ∧
      relocation.Reaches created.1 ⟨[(errand, underway)], relocation.migrate state⟩
        ⟨[(errand, .done (.record .taskRequest (.ok (), sealed)))], last⟩ ∧
      ∀ other ∈ created.1, other.Restores Simulation.environment last sealed
        (Protected.stamp request relocation.source) := by
  intro created request
  let service : Service := ⟨⟨{}, some 0⟩, .sealing ⟨{}, some 0⟩, {}⟩
  have mem : service ∈ created.1 := List.mem_cons_self
  let errand : Errand := .encrypt service 0 .taskRequest request
  -- One turn takes the caller to where its request for the key is about to be sent.
  obtain ⟨underway, state, steps, waits⟩ : ∃ underway state,
      Routine.Steps Simulation.environment.handle (errand.program relocation, created.2)
        (underway, state) ∧ underway.result? = none := by
    refine ⟨_, _, Routine.steps_turn _ (errand.program relocation) created.2, ?_⟩
    decide +kernel
  have succeed := errands_succeed relocation [{}, { client := { cacheResolvedKeys := false } }]
    relocating rfl (State.holds_addKey _ _ _) rfl rfl
  have admits : relocation.Admits created.1 ⟨[], created.2⟩ errand := .encrypt mem rfl _
  have came : relocation.Reaches created.1 ⟨[], created.2⟩
      ⟨[(errand, errand.program relocation)], created.2⟩ := .single (.come admits)
  have started : relocation.Reaches created.1 ⟨[], created.2⟩ ⟨[(errand, underway)], state⟩ :=
    came.trans (Crowd.reflTransGen_of_steps (fun _ _ _ _ _ _ => .advance) _ 0 steps rfl)
  have migrated := started.tail .migrate
  obtain ⟨outcome, last, ran, succeeds⟩ := (succeed _ migrated).1 0 errand underway rfl
  obtain ⟨sealed, rfl, -⟩ := succeeds.sealed
  have finished : relocation.Reaches created.1
      ⟨[(errand, underway)], relocation.migrate state⟩
      ⟨[(errand, .done (.record .taskRequest (.ok (), sealed)))], last⟩ :=
    Crowd.reflTransGen_of_steps (fun _ _ _ _ _ _ => .advance) _ 0 (Routine.ends_of_run ran) rfl
  refine ⟨service, mem, underway, state, sealed, last, started, waits, finished, ?_⟩
  exact (succeed _ (migrated.trans finished)).2.2 0 service 0 .taskRequest request sealed rfl

end Move

end FieldCrypt
