import FieldCrypt.Proofs.Context.Race
import FieldCrypt.Proofs.Service.Operations

/-!
# Encrypting side by side

Records that are encrypted side by side under one unbound context, with a stand-in for the cipher,
come to the same as when they are encrypted one after another. The key is created once, each record
is stamped with its URL, and what becomes of a text depends on nothing but the key and the text.
-/

namespace FieldCrypt

/-- What applying a cipher to the texts of a record comes to, when it is known what each comes to. -/
def Layout.applied {R : Type} (outcome : String → Except CryptoError String) (layout : Layout R)
    (record : R) : Except RecordError Unit × R :=
  let excerpts := layout.takeOut record
  let results := excerpts.zip (excerpts.map fun excerpt => outcome excerpt.text)
  (firstFailure results, layout.putBack record (succeeded results))

namespace Race

variable {race : Race}

/-- The stand-in answers by what it refuses, however often it was asked. -/
theorem transform_accounts (race : Race) (direction : Direction) (key : KeyHandle)
    (text : String) :
    (Routine.ask (.transform race.cipher direction key text)).Accounts
      Simulation.environment.handle race.ledger 0
      (Routine.EmptyHanded (· = Reversible.outcome race.refused direction key text)) := by
  rintro others shared ⟨progress, agrees⟩
  obtain ⟨queued, ⟨store, url, state, standsIn, refused⟩, inside, settled, marks⟩ := agrees
  have answered : (shared.outside.standIn race.cipher).transform direction key text =
      (Reversible.outcome race.refused direction key text,
        .reversible (state.count direction)) := by
    rw [standsIn, ← refused]
    rfl
  refine ⟨nofun, fun outcome next handled => ?_⟩
  obtain ⟨rfl, rfl⟩ := Prod.mk.inj (Option.some.inj handled)
  have counted : (shared.outside.setStandIn race.cipher
      ((shared.outside.standIn race.cipher).transform direction key text).2).standIn race.cipher =
        .reversible (state.count direction) := by
    rw [answered]
    exact Numbered.get_modify_self _ _ _
  have still : (state.count direction).refused = race.refused := by
    rw [← refused]
    cases direction <;> rfl
  exact ⟨0, ⟨progress, queued.congr fun _ => rfl, ⟨store, url, _, counted, still⟩, inside, settled,
    marks⟩, rfl, congrArg Prod.fst answered⟩

theorem apply_accounts {R : Type} (race : Race) (direction : Direction) (key : KeyHandle)
    (layout : Layout R) (record : R) :
    (layout.apply (Provider.transform (.outside race.cipher)) direction key record).Accounts
      Simulation.environment.handle race.ledger 0
      (Routine.EmptyHanded
        (· = layout.applied (Reversible.outcome race.refused direction key) record)) := by
  have together : (Routine.all ((layout.takeOut record).map fun excerpt =>
      Provider.transform (.outside race.cipher) direction key excerpt.text)).Accounts
      Simulation.environment.handle race.ledger ((layout.takeOut record).length • 0)
      (Routine.EmptyHanded (· = (layout.takeOut record).map fun excerpt =>
        Reversible.outcome race.refused direction key excerpt.text)) :=
    .all_map_same fun excerpt _ => race.transform_accounts direction key excerpt.text
  rw [nsmul_zero] at together
  refine together.bind ?_
  rintro _ _ ⟨rfl, rfl⟩
  exact ⟨rfl, rfl⟩

variable {κ : Type} {Record : κ → Type} [∀ kind, Protected (Record kind)]

/-- What encrypting a record comes to. -/
def encrypted (race : Race) {R : Type} [Protected R] (record : R) : Except ServiceError Unit × R :=
  Service.reported (Protected.layout.applied
    (Reversible.outcome race.refused .encrypt (.named race.uri))
    (Protected.stamp record race.uri))

theorem encrypt_accounts (unscripted : race.start.broker.script = []) {service : Service}
    (provider : service.provider = .outside race.cipher) {R : Type} [Protected R] (record : R) :
    (service.encrypt race.context record).Accounts Simulation.environment.handle race.ledger (0, 1)
      (Routine.EmptyHanded (· = race.encrypted record)) := by
  have sealing : (Protected.encrypt service.provider.transform race.context record).Accounts
      Simulation.environment.handle race.ledger (0, 1) (Routine.EmptyHanded
        (· = Protected.layout.applied (Reversible.outcome race.refused .encrypt (.named race.uri))
          (Protected.stamp record race.uri))) := by
    rw [provider]
    refine (boundKey_comes unscripted).bind ?_
    rintro _ _ ⟨rfl, rfl⟩
    exact race.apply_accounts .encrypt (.named race.uri) _ _
  refine sealing.bind ?_
  rintro _ _ ⟨rfl, rfl⟩
  exact ⟨rfl, rfl⟩

end Race

namespace Operation

variable {κ : Type} {Record : κ → Type}

/-- Encrypt records of several kinds under the key of one context. -/
def encrypts (service : Service) (context : ContextId) (items : List (Σ kind, Record kind)) :
    List (Operation Record) :=
  items.map fun item => encrypt service context item.1 item.2

variable [∀ kind, Protected (Record kind)]

theorem report_accounts {race : Race} (unscripted : race.start.broker.script = [])
    {service : Service} (provider : service.provider = .outside race.cipher)
    (item : Σ kind, Record kind) :
    (encrypt service race.context item.1 item.2).report.Accounts Simulation.environment.handle
      race.ledger (0, 1) (Routine.EmptyHanded
        (· = ⟨encrypt service race.context item.1 item.2, race.encrypted item.2⟩)) := by
  refine (Race.encrypt_accounts unscripted provider item.2).bind ?_
  rintro _ _ ⟨rfl, rfl⟩
  exact ⟨rfl, rfl⟩

/-- Whatever order they take their steps in, records that are encrypted side by side come to what is
known from the start, and the context is bound in the end. -/
theorem ends_encrypts {race : Race} (unscripted : race.start.broker.script = [])
    {service : Service} (provider : service.provider = .outside race.cipher)
    {items : List (Σ kind, Record kind)} (count : items.length = race.callers)
    (nonempty : items ≠ []) {shared last : Shared Simulation}
    {results : List (Σ operation : Operation Record, operation.Result)}
    (start : race.Agrees .unbound (0, race.callers) shared)
    (ends : Routine.Ends Simulation.environment.handle
      (Routine.all ((encrypts service race.context items).map report)) shared results last) :
    results = items.map (fun item =>
        ⟨encrypt service race.context item.1 item.2, race.encrypted item.2⟩) ∧
      race.Agrees .bound 0 last := by
  have together : (Routine.all (items.map fun item =>
      (encrypt service race.context item.1 item.2).report)).Accounts
      Simulation.environment.handle race.ledger (items.length • (0, 1)) (Routine.EmptyHanded
        (· = items.map fun item =>
          ⟨encrypt service race.context item.1 item.2, race.encrypted item.2⟩)) :=
    .all_map_same fun item _ => report_accounts unscripted provider item
  have shares : items.length • ((0, 1) : Race.Holding) = (0, race.callers) := by
    rw [Prod.smul_mk, nsmul_zero, Nat.nsmul_eq_mul, Nat.mul_one, count]
  rw [shares] at together
  rw [encrypts, List.map_map] at ends
  obtain ⟨_, ⟨progress, agrees⟩, rfl, known⟩ := together.of_ends ⟨.unbound, start⟩ ends
  have positive : 0 < race.callers := by
    rw [← count]
    exact List.length_pos_iff.mpr nonempty
  obtain rfl := agrees.marks positive
  exact ⟨known, agrees⟩

/-- The context is bound to this key, nobody is at its guard, and this is the broker. -/
structure Settled (context : ContextId) (uri : KeyUri) (broker : Broker.State)
    (shared : Shared Simulation) : Prop where
  url : (shared.context context).keyUrl = some uri
  free : (shared.context context).guard.isFree = true
  broker : shared.outside.broker = broker

theorem settled_of_agrees {race : Race} {shared : Shared Simulation}
    (agrees : race.Agrees .bound 0 shared) :
    Settled race.context race.uri (race.store .bound).1 shared where
  url := agrees.shows.url
  free := Queued.empty_iff.mp agrees.queued race.context rfl
  broker := congrArg Prod.fst agrees.shows.store

/-- Any number of records, but at least one, are encrypted side by side under one unbound context
whose guard is free. The broker is unscripted, and a stand-in for the cipher refuses whatever texts it
refuses. One after another they come to some results, and to a key that the broker was asked once to
create and for nothing else. Whatever order their steps are taken in when they are encrypted side by
side, they never get stuck, and they come to the same results, key and broker. -/
theorem encrypts_confluent {service : Service} {cipher : CipherId} {state : Reversible}
    {context : ContextId} {items : List (Σ kind, Record kind)} {shared : Shared Simulation}
    (provider : service.provider = .outside cipher)
    (standsIn : shared.outside.standIn cipher = .reversible state)
    (unscripted : shared.outside.broker.script = [])
    (unbound : (shared.context context).keyUrl = none)
    (free : (shared.context context).guard.isFree = true) (nonempty : items ≠ []) :
    let operations := encrypts service context items
    ∃ results last uri broker,
      Routine.run Simulation.environment.handle (operations.mapM report) shared =
        some (results, last) ∧
      Settled context uri broker last ∧
      broker.calls =
        shared.outside.broker.calls ++ [{ request := .createKeys 1, options := none }] ∧
      (∀ now, Routine.Steps Simulation.environment.handle
        (Routine.all (operations.map report), shared) now →
          ∃ results' last', Routine.run Simulation.environment.handle now.1 now.2 =
            some (results', last')) ∧
      ∀ results' last', Routine.Ends Simulation.environment.handle
        (Routine.all (operations.map report)) shared results' last' →
          results' = results ∧ Settled context uri broker last' := by
  intro operations
  let race : Race := ⟨context, shared.outside, items.length, cipher, state.refused⟩
  have guards : ∀ used, used = context → (shared.guard used).isFree = true := by
    rintro _ rfl
    exact free
  have mine : ∀ operation ∈ operations, ∀ used, operation.Uses used → used = context := by
    intro operation there used uses
    obtain ⟨item, -, rfl⟩ := List.mem_map.mp there
    exact uses.symm
  have start : race.Agrees .unbound (0, race.callers) shared := by
    refine ⟨Queued.empty_iff.mpr guards, ⟨rfl, unbound, state, standsIn, rfl⟩, nofun,
      fun _ => nofun, ?_⟩
    intro fewer
    exact (Nat.lt_irrefl _ fewer).elim
  obtain ⟨results, last, ran⟩ : ∃ results last, Routine.run Simulation.environment.handle
      (operations.mapM report) shared = some (results, last) := run_mapM operations mine guards
  -- One after another is one of the orders that their steps can be taken in side by side.
  obtain ⟨known, agrees⟩ := ends_encrypts unscripted provider rfl nonempty start
    (Routine.ends_all_of_run_mapM ran)
  refine ⟨results, last, race.uri, (race.store .bound).1, ran, settled_of_agrees agrees,
    Broker.State.calls_creates _ _, ?_, ?_⟩
  · intro now reached
    obtain ⟨results', last', ran, -⟩ := run_all mine guards reached
    exact ⟨results', last', ran⟩
  · intro results' last' ends
    obtain ⟨known', agrees'⟩ := ends_encrypts unscripted provider rfl nonempty start ends
    exact ⟨known'.trans known.symm, settled_of_agrees agrees'⟩

/-- Two records, one of them with a title that is refused. -/
theorem encrypts_confluent_refused :
    let shared : Shared Simulation := { outside := {
      broker := { host := Sample.host }
      draws := { source := fun _ _ => 0 }
      standIns := ⟨[.reversible { refused := ["secret"] }]⟩ } }
    let items : List ((_ : Unit) × TaskRequest) :=
      [⟨(), Sample.taskRequest⟩, ⟨(), { Sample.taskRequest with title := some "secret" }⟩]
    let operations := encrypts {} 0 items
    ∃ results last uri broker,
      Routine.run Simulation.environment.handle (operations.mapM report) shared =
        some (results, last) ∧
      Settled 0 uri broker last ∧ broker.calls.length = 1 ∧
      ∀ results' last', Routine.Ends Simulation.environment.handle
        (Routine.all (operations.map report)) shared results' last' →
          results' = results ∧ Settled 0 uri broker last' := by
  intro shared items operations
  have provider : ({} : Service).provider = .outside 0 := rfl
  have standsIn : shared.outside.standIn 0 = .reversible { refused := ["secret"] } := rfl
  have unscripted : shared.outside.broker.script = [] := rfl
  have unbound : (shared.context 0).keyUrl = none := rfl
  have free : (shared.context 0).guard.isFree = true := rfl
  have nonempty : items ≠ [] := List.cons_ne_nil _ _
  obtain ⟨results, last, uri, broker, ran, settled, calls, -, same⟩ :=
    encrypts_confluent provider standsIn unscripted unbound free nonempty
  exact ⟨results, last, uri, broker, ran, settled, congrArg List.length calls, same⟩

end Operation

end FieldCrypt
