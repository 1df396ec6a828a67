import FieldCrypt.Proofs.Client.Naming
import FieldCrypt.Proofs.Record.Kind
import FieldCrypt.Proofs.Record.Slots
import FieldCrypt.Proofs.Routine.NotedCrowd
import FieldCrypt.Proofs.Service.Operations

/-!
# No text is taken for a plain one

Decrypting leaves a record without a key URL as it is. A record whose encryption got past the
binding of its key is never one of these: it has the URL that its context is bound to, which is not
empty. This holds for any number of callers who use clients and services side by side while the
broker behaves in any way, as long as nobody puts a key without a name into a cache by hand.
-/

namespace FieldCrypt

open Broker Client

variable {σ κ R : Type} {environment : Environment σ} {known : Known}

/-- Every text is transformed without anything losing its name. -/
theorem Provider.transform_names (provider : Provider) (direction : Direction) (key : KeyHandle)
    (text : String) :
    (provider.transform direction key text).Names environment known fun _ => True := by
  cases provider with
  | outside cipher =>
      refine Routine.names_call ?_ fun _ _ _ _ => trivial
      trivial
  | sealing client =>
      have resolving : (Provider.resolve client key).Names environment known fun _ => True := by
        cases key with
        | held material => trivial
        | named uri =>
            apply (client.resolveKey_names uri {}).bind
            rintro (error | material) - <;> trivial
      apply resolving.bind
      rintro (error | material) -
      · trivial
      · cases direction with
        | encrypt =>
            refine Routine.names_call ?_ fun _ _ _ _ => trivial
            trivial
        | decrypt => trivial

/-- Encrypting got past the binding of a key: what failed, if anything did, is a text. -/
def PastBinding (outcome : Except RecordError Unit) : Prop :=
  ∀ error, outcome = .error error → ¬ error.OfBinding

namespace Protected

variable [Protected R]

/-- The record has the URL of a key, and decrypting it has its texts decrypted under that key. -/
def Keyed (record : R) : Prop :=
  ∃ uri : KeyUri, uri.isEmpty = false ∧ keyUrl record = some uri ∧
    ∀ transform : Transform,
      decrypt transform record = layout.apply transform .decrypt (.named uri) record

theorem keyed_of_keyUrl {record : R} {uri : KeyUri} (named : uri.isEmpty = false)
    (url : keyUrl record = some uri) : Keyed record := by
  refine ⟨uri, named, url, fun transform => ?_⟩
  have found : (keyUrl record).filter (fun uri => !uri.isEmpty) = some uri := by
    rw [url, Option.filter_some, named]
    rfl
  rw [decrypt, decryptWith, found]

variable {transform : Transform}
  (each : ∀ known direction key text,
    (transform direction key text).Names environment known fun _ => True)

include each

theorem apply_names [LawfulProtected R] (direction : Direction) (key : KeyHandle) (record : R) :
    ((layout : Layout R).apply transform direction key record).Names environment known fun ended =>
      keyUrl ended.2 = keyUrl record := by
  have together : (Routine.all ((layout.takeOut record).map fun excerpt =>
      transform direction key excerpt.text)).Names environment known fun _ => True :=
    (Routine.Upholds.all fun excerpt _ => each known direction key excerpt.text).mono
      fun _ _ => trivial
  apply together.bind
  intro outcomes _
  exact keyUrl_eq_of_blank (separate.blank_putBack record _)

/-- A record is stamped with the URL of the key, which is there as soon as the context is bound. -/
theorem encrypt_names [LawfulProtected R] (context : ContextId) (record : R) :
    (encrypt transform context record).Names environment known fun ended =>
      known.bound context ∨ PastBinding ended.1 → Keyed ended.2 := by
  refine Context.bindOnce_names (fun _ => createKey_names) ?_ ?_
  · rintro unbound error binding (bound | past)
    · exact (unbound bound).elim
    · exact (past error rfl binding).elim
  · intro uri after onward named bound
    apply (apply_names each .encrypt (.named uri) (stamp record uri)).mono
    intro ended same _
    exact keyed_of_keyUrl named (same.trans (keyUrl_stamp record uri))

/-- Whoever encrypts one of many records relies on what was bound for all of them. -/
theorem encryptAll_names [LawfulProtected R] (context : ContextId) (records : List R) :
    (encryptAll transform context records).Names environment known fun ended =>
      PastBinding ended.1 → ∀ record ∈ ended.2, Keyed record := by
  unfold encryptAll
  split
  · rename_i nothing
    obtain rfl := List.isEmpty_iff.mp nothing
    intro _ record there
    cases there
  · refine Context.bindOnce_names (fun _ => createKey_names) ?_ ?_
    · intro _ error binding past
      exact (past error rfl binding).elim
    · intro uri after onward named bound
      apply (Routine.Upholds.all fun record _ => encrypt_names each context record).bind
      intro results keyed _ record there
      obtain ⟨ended, ends, rfl⟩ := List.mem_map.mp there
      have each : List.Forall₂ (fun (ended : Except RecordError Unit × R) (_ : R) =>
          Keyed ended.2 ∧ True) results records :=
        keyed.flip.imp fun _ _ keyed => ⟨keyed (.inl bound), trivial⟩
      exact ((List.forall₂_and_left _ _).mp each).1 ended ends

theorem decrypt_names [LawfulProtected R] (record : R) :
    (decrypt transform record).Names environment known fun _ => True := by
  unfold decrypt decryptWith
  split
  · exact (apply_names each .decrypt _ record).mono fun _ _ => trivial
  · trivial

end Protected

/-- A service has got past the binding of a key: what failed, if anything did, is a text. -/
def Service.PastBinding (outcome : Except ServiceError Unit) : Prop :=
  ∀ error, outcome = .error (.record error) → ¬ error.OfBinding

namespace Operation

variable {Record : κ → Type} [∀ kind, Protected (Record kind)]

/-- The URLs that are handed out are not empty, and records that were encrypted past the binding of
their key have one. -/
def Keyed : (operation : Operation Record) → operation.Result → Prop
  | ensureKey _, outcome | prime _ _, outcome =>
    ∀ uri : KeyUri, outcome = .ok uri → uri.isEmpty = false
  | encrypt .., (outcome, record) => Service.PastBinding outcome → Protected.Keyed record
  | encryptAll .., (outcome, records) =>
    PastBinding outcome → ∀ record ∈ records, Protected.Keyed record
  | decrypt .., _ | decryptAll .., _ => True

variable [∀ kind, LawfulProtected (Record kind)]

theorem perform_names (operation : Operation Record) :
    operation.perform.Names environment known operation.Keyed := by
  have each (provider : Provider) (known : Known) (direction : Direction) (key : KeyHandle)
      (text : String) :
      (provider.transform direction key text).Names environment known fun _ => True :=
    provider.transform_names direction key text
  cases operation with
  | ensureKey context =>
      apply (Context.bindOnce_names_made fun _ => createKey_names).mono
      rintro _ named uri rfl
      exact named
  | prime client context =>
      apply (Context.bindOnce_names_made fun _ => client.createResolvedKey_names).mono
      rintro _ named uri rfl
      exact named
  | encrypt service context kind record =>
      apply (Protected.encrypt_names (each service.provider) context record).bind
      rintro ⟨outcome, record⟩ keyed past
      apply keyed
      right
      rintro error rfl
      exact past error rfl
  | encryptAll service context kind records =>
      exact Protected.encryptAll_names (each service.provider) context records
  | decrypt service kind record =>
      exact (Protected.decrypt_names (each service.provider) record).bind fun _ _ => trivial
  | decryptAll service kind records =>
      have together : (Protected.decryptAll service.provider.transform records).Names environment
          known fun _ => True :=
        (Routine.Upholds.all fun record _ =>
          Protected.decrypt_names (each service.provider) record).bind fun _ _ => trivial
      exact together.bind fun _ _ => trivial

end Operation

/-- What callers are after. -/
inductive Purpose (Record : κ → Type) where
  | act (client : Client) (action : Action)
  | operate (operation : Operation Record)
  | openContext (service : Service)

namespace Purpose

variable {Record : κ → Type}

/-- The type of what a caller ends with. -/
def Result : Purpose Record → Type
  | act _ action => Except ClientError action.Answer
  | operate operation => operation.Result
  | openContext _ => Except ServiceError ContextId

variable [∀ kind, Protected (Record kind)]

def perform : (purpose : Purpose Record) → Routine Effect purpose.Result
  | act client action => action.perform client
  | operate operation => operation.perform
  | openContext service => service.openContext

/-- Do what one is after, and end with that and its result. -/
def report (purpose : Purpose Record) :
    Routine Effect (Σ purpose : Purpose Record, purpose.Result) := do
  return ⟨purpose, ← purpose.perform⟩

/-- No key without a name was handed out, and no record left without a key that has one. -/
def Keyed : (purpose : Purpose Record) → purpose.Result → Prop
  | act _ action, outcome => action.Finds outcome
  | operate operation, result => operation.Keyed result
  | openContext _, _ => True

/-- A key was to be resolved or bound, and that failed because it had no URI. -/
def Nameless : (purpose : Purpose Record) → purpose.Result → Prop
  | act _ action, outcome => action.Nameless outcome
  | operate _, _ | openContext _, _ => False

theorem told_of_nameless {purpose : Purpose Record} {notes : Notes Exchange}
    {ended : Σ purpose : Purpose Record, purpose.Result}
    (recounts : purpose.report.Recounts environment.handle environment.exchanged notes ended)
    (nameless : ended.1.Nameless ended.2) :
    ∃ call, notes.getLast? = some ([], call, .error (.key .missingUri)) := by
  obtain ⟨result, first, _, rfl, performed, rfl, rfl⟩ := Routine.recounts_bind recounts
  rw [List.append_nil]
  cases purpose with
  | act client action => exact Action.told_of_nameless performed nameless
  | operate | openContext => exact nameless.elim

variable [∀ kind, LawfulProtected (Record kind)]

theorem perform_names (purpose : Purpose Record) :
    purpose.perform.Names environment known purpose.Keyed := by
  cases purpose with
  | act client action => exact action.perform_names client
  | operate operation => exact operation.perform_names
  | openContext service =>
      refine Routine.names_call ?_ fun context after _ _ => ?_
      · trivial
      split
      · apply (Context.bindOnce_names_made fun _ => service.client.createResolvedKey_names).bind
        rintro (error | uri) - <;> trivial
      · trivial

theorem report_names (purpose : Purpose Record) :
    purpose.report.Names environment known fun ended =>
      ended.1 = purpose ∧ ended.1.Keyed ended.2 := by
  apply purpose.perform_names.bind
  intro result keyed
  exact ⟨rfl, keyed⟩

end Purpose

/-- What else may happen: the outside does something of its own, contexts and clients are made, and
caches are looked into, emptied, or given a key that has a name. -/
inductive Elsewhere (before : Shared σ) : Shared σ → Prop where
  | outside (outside : σ) : Elsewhere before { before with outside }
  | newContext : Elsewhere before (before.addContext {}).2
  | resumed (uri : KeyUri) : Elsewhere before (before.addContext (.resumed uri)).2
  | newClient (config : ClientConfig) : Elsewhere before (Client.create config before).2
  | look (id : CacheId) (uri : KeyUri) :
      Elsewhere before (before.setCache id ((before.cache id).get? uri).2)
  | put (id : CacheId) (requested : KeyUri) {key : KeyMaterial} (named : key.uri.isEmpty = false) :
      Elsewhere before (before.setCache id ((before.cache id).insert requested key))
  | evict (id : CacheId) (uri : KeyUri) :
      Elsewhere before (before.setCache id ((before.cache id).evict uri))
  | clear (id : CacheId) : Elsewhere before (before.setCache id (before.cache id).clear)

theorem Elsewhere.named {before after : Shared σ} (elsewhere : Elsewhere before after)
    (named : before.Named known) : after.Named known := by
  cases elsewhere with
  | outside outside => exact ⟨named.caches, named.contexts, named.bound⟩
  | newContext =>
      apply named.addContext
      intro uri url
      cases url
  | resumed uri => exact named.addContext fun _ => Context.resumed_named uri
  | newClient config =>
      unfold Client.create
      split
      · exact named.setCache (.ofCapacity _)
      · exact named
  | look id uri => exact named.setCache ((named.caches id).get? uri)
  | put id requested full => exact named.setCache ((named.caches id).insert requested full)
  | evict id uri => exact named.setCache ((named.caches id).evict uri)
  | clear id => exact named.setCache (.clear _)

/-- The callers of clients and services, each with what they are after. -/
abbrev Callers (Record : κ → Type) (σ : Type) :=
  Crowd (Purpose Record) Effect (Σ purpose : Purpose Record, purpose.Result) (Shared σ)

/-- Any number of callers use clients and services in any order of their steps, while the broker and
everything else outside behaves in any way. At all times every context is unbound or bound to a URL
that is not empty. Whoever has ended was handed out no key with an empty URI, and has no record past
the binding of its key that decrypting would leave alone; and if a key was refused for want of a URI,
then that is what the broker answered to the last request of this very caller. -/
theorem keys_named {Record : κ → Type} [∀ kind, Protected (Record kind)]
    [∀ kind, LawfulProtected (Record kind)] (environment : Environment σ) (outside : σ)
    {callers : Callers Record σ} {exchanges : Nat → Notes Exchange}
    (noted : Crowd.Noted environment.handle environment.exchanged Purpose.report Elsewhere
      ⟨[], { outside }⟩ callers exchanges) :
    (∀ context uri, (callers.state.context context).keyUrl = some uri → uri.isEmpty = false) ∧
      ∀ index purpose ended, callers.Ended index purpose ended →
        ended.1 = purpose ∧ ended.1.Keyed ended.2 ∧
          (ended.1.Nameless ended.2 →
            ∃ call, (exchanges index).getLast? = some ([], call, .error (.key .missingUri))) := by
  have start : (⟨[], { outside }⟩ : Callers Record σ).Upholding environment.admitting Shared.Named
      (fun purpose ended => ended.1 = purpose ∧ ended.1.Keyed ended.2) {} :=
    .start rfl (.start outside)
  have reached := Crowd.reaches_iff_noted.mpr ⟨exchanges, noted⟩
  obtain ⟨known, -, upholding⟩ := start.reaches
    (fun purpose _ => purpose.report_names)
    (fun _ _ known elsewhere named => ⟨known, le_refl known, elsewhere.named named⟩)
    (reached.covered environment.admitting_covers)
  refine ⟨upholding.holds.contexts, fun index purpose ended found => ?_⟩
  obtain ⟨same, keyed⟩ := upholding.callers index purpose _ found
  exact ⟨same, keyed, Purpose.told_of_nameless (noted.recounts rfl found)⟩

/-- A record with a text is encrypted in a context that has no key yet. -/
theorem keys_named_encrypted :
    let environment : Environment Unit :=
      ⟨fun _ _ => (.ok { keys := [{ uri := some "kms://new" }] }, ()), fun _ _ => ([], ()),
        fun _ _ _ text _ => (.ok text, ())⟩
    let purpose : Purpose fun _ : Unit => TaskRequest :=
      .operate (.encrypt {} 0 () Sample.taskRequest)
    ∃ (callers : Callers (fun _ : Unit => TaskRequest) Unit) (exchanges : Nat → Notes Exchange)
      (ended : Σ purpose : Purpose fun _ : Unit => TaskRequest, purpose.Result),
      Crowd.Noted environment.handle environment.exchanged Purpose.report Elsewhere
        ⟨[], { outside := () }⟩ callers exchanges ∧
      callers.Ended 0 purpose ended ∧
      (callers.state.context 0).keyUrl = some ⟨"kms://new"⟩ ∧ ended.1.Keyed ended.2 := by
  intro environment purpose
  let callers : Callers (fun _ : Unit => TaskRequest) Unit :=
    [0, 0].foldl (Crowd.turn environment.handle) ⟨[(purpose, purpose.report)], { outside := () }⟩
  have reached : Crowd.Reaches environment.handle Purpose.report Elsewhere ⟨[], { outside := () }⟩
      callers :=
    .trans (.single (.come purpose)) (Crowd.reaches_turns [0, 0] _)
  obtain ⟨exchanges, noted⟩ := Crowd.reaches_iff_noted.mp reached
  obtain ⟨routine, found⟩ : ∃ routine, callers.callers[0]? = some (purpose, routine) := ⟨_, rfl⟩
  have finished : (callers.callers[0]?.bind fun caller => caller.2.result?).isSome = true := by
    decide +kernel
  obtain ⟨ended, result⟩ := Option.isSome_iff_exists.mp finished
  rw [found, Option.bind_some] at result
  obtain rfl : routine = .done ended := Routine.eq_done_of_result? result
  have bound : (callers.state.context 0).keyUrl = some ⟨"kms://new"⟩ := by
    decide +kernel
  exact ⟨callers, exchanges, ended, noted, found, bound,
    ((keys_named environment () noted).2 0 purpose ended found).2.1⟩

/-- A transport may answer by itself that a URI is missing, and a cache holds what it is given. A key
without a URI that somebody put there is handed out, a context is bound to it, and what is encrypted
in this context passes for plain when it is decrypted. -/
theorem keys_not_named :
    let refusing : Environment Unit :=
      ⟨fun _ _ => (.error (.key .missingUri), ()), fun _ _ => ([], ()),
        fun _ _ _ text _ => (.ok text, ())⟩
    let creating : Environment Unit :=
      ⟨fun _ _ => (.ok { keys := [{ uri := some "kms://new" }] }, ()), fun _ _ => ([], ()),
        fun _ _ _ _ _ => (.ok "sealed", ())⟩
    let unnamed : KeyMaterial := ⟨⟨""⟩, .int 1⟩
    let filled : Shared Unit :=
      ⟨(), ⟨[(KeyCache.ofCapacity 1).insert ⟨"kms://new"⟩ unnamed]⟩, {}⟩
    let client : Client := { cache := some 0 }
    let service : Service := { client }
    let task : TaskRequest := { title := some "sealed", encryptionKeyUrl := some ⟨""⟩ }
    ∃ resolved bound found primed encrypted,
      Routine.Ends refusing.handle (client.resolveKey ⟨"kms://new"⟩ {}) { outside := () }
        (.error (.key .missingUri)) resolved ∧
      Routine.Ends refusing.handle (bindKey "kms://resource" ⟨"kms://new"⟩) { outside := () }
        (.error (.key .missingUri)) bound ∧
      Routine.Ends creating.handle (client.resolveKey ⟨"kms://new"⟩ {}) filled (.ok unnamed) found ∧
      Routine.Ends creating.handle (client.prime 0) filled (.ok ⟨""⟩) primed ∧
      (primed.context 0).keyUrl = some ⟨""⟩ ∧
      Routine.Ends creating.handle (service.encrypt 0 ({ title := some "plain" } : TaskRequest))
        primed (.ok (), task) encrypted ∧
      Routine.Ends creating.handle (service.decrypt task) encrypted (.ok (), task) encrypted := by
  intro refusing creating unnamed filled client service task
  let resolved := (Routine.round refusing.handle)^[2]
    (client.resolveKey ⟨"kms://new"⟩ {}, { outside := () })
  let bound := (Routine.round refusing.handle)^[2]
    (bindKey "kms://resource" ⟨"kms://new"⟩, { outside := () })
  let found := (Routine.round creating.handle)^[1] (client.resolveKey ⟨"kms://new"⟩ {}, filled)
  let primed := (Routine.round creating.handle)^[2] (client.prime 0, filled)
  let encrypted := (Routine.round creating.handle)^[1]
    (service.encrypt 0 ({ title := some "plain" } : TaskRequest), primed.2)
  have resolvingFails : resolved.1.result? = some (.error (.key .missingUri)) := rfl
  have bindingFails : bound.1.result? = some (.error (.key .missingUri)) := rfl
  have unnamedFound : found.1.result? = some (.ok unnamed) := rfl
  have primes : primed.1.result? = some (.ok ⟨""⟩) := by decide +kernel
  have empty : (primed.2.context 0).keyUrl = some ⟨""⟩ := by decide +kernel
  have encrypts : encrypted.1.result? = some (.ok (), task) := by decide +kernel
  exact ⟨resolved.2, bound.2, found.2, primed.2, encrypted.2, Routine.ends_of_rounds resolvingFails,
    Routine.ends_of_rounds bindingFails, Routine.ends_of_rounds unnamedFound,
    Routine.ends_of_rounds primes, empty, Routine.ends_of_rounds encrypts, .refl _⟩

end FieldCrypt
