import FieldCrypt.Proofs.Client.Actions
import FieldCrypt.Proofs.Client.OneHop

/-!
# Failures that are replies and failures that are errors

The broker may report one and the same failure in a reply, or reject the request with it. Which of
the two it does makes no difference to a client: it sends the same requests, comes to the same
result and holds the same keys. Two outsides are compared that differ in nothing else, each with a
state of its own.
-/

namespace FieldCrypt

open Broker

/-- Two outcomes that are the same, or one of which rejects with the failure that the other one's
reply reports, when replies of that kind report failures. -/
inductive Tantamount (failed : Reply → Prop) :
    Except ClientError Reply → Except ClientError Reply → Prop where
  | same (outcome : Except ClientError Reply) : Tantamount failed outcome outcome
  | rejected {reply : Reply} (fails : failed reply) :
      Tantamount failed (.ok reply) (.error (.broker (.ofReply reply)))
  | resolved {reply : Reply} (fails : failed reply) :
      Tantamount failed (.error (.broker (.ofReply reply))) (.ok reply)

namespace Tantamount

variable {failed : Reply → Prop} {first second : Except ClientError Reply}

/-- What is read alike off a failed reply and off its failure is read alike off both outcomes. -/
theorem congr {ρ : Sort*} {read : Except ClientError Reply → ρ}
    (reads : ∀ reply, failed reply → read (.ok reply) = read (.error (.broker (.ofReply reply))))
    (tantamount : Tantamount failed first second) : read first = read second := by
  cases tantamount with
  | same => rfl
  | rejected fails => exact reads _ fails
  | resolved fails => exact (reads _ fails).symm

end Tantamount

namespace Client

/-- A redirect is found in a reply and in its failure alike: in both, a missing code is zero and an
empty redirect is none. -/
theorem redirect?_ofReply (reply : Reply) :
    redirect? (.ok reply) = redirect? (.error (.broker (.ofReply reply))) := by
  simp only [redirect?, Failure.ofReply, Option.map_map]
  cases reply.redirectUri with
  | none => rfl
  | some uri =>
      by_cases named : uri.isEmpty = true <;> simp [Option.filter, named]

theorem keyOfOutcome_ofReply (asked : KeyUri) {reply : Reply} (keyless : reply.key = none) :
    keyOfOutcome asked (.ok reply) = keyOfOutcome asked (.error (.broker (.ofReply reply))) := by
  simp only [keyOfOutcome, keyOf, keyless]

theorem checked_ofReply {reply : Reply} (fails : reply.isFailure = true) :
    checked (.ok reply) = checked (.error (.broker (.ofReply reply))) :=
  if_pos fails

namespace Action

/-- The replies that an action takes for failures. Where a key is resolved, no status counts but
whether there is a key. -/
def Fails : Action → Reply → Prop
  | resolveKey .., reply => reply.key = none
  | _, reply => reply.isFailure = true

theorem fails_iff {action : Action} (single : ¬ action.Resolves) (reply : Reply) :
    action.Fails reply ↔ reply.isFailure = true := by
  cases action with
  | resolveKey uri options => exact (single trivial).elim
  | _ => exact Iff.rfl

end Action

end Client

variable {σ τ α β : Type}

/-- In related states two outsides answer every call tantamount, and stay related. -/
def Environment.Matches (failed : Reply → Prop) (related : σ → τ → Prop) (first : Environment σ)
    (second : Environment τ) : Prop :=
  ∀ call state state', related state state' →
    Tantamount failed (first.send call state).1 (second.send call state').1 ∧
      related (first.send call state).2 (second.send call state').2

/-- The outsides are related, the caches are the same, and the same calls were sent. -/
structure Abreast (related : σ → τ → Prop) (here : Shared σ × List Exchange)
    (there : Shared τ × List Exchange) : Prop where
  outside : related here.1.outside there.1.outside
  caches : there.1.caches = here.1.caches
  calls : there.2.map Prod.fst = here.2.map Prod.fst

/-- What becomes of a cache keeps them abreast if it becomes of it on both sides. -/
theorem Abreast.setCache {related : σ → τ → Prop} {here : Shared σ × List Exchange}
    {there : Shared τ × List Exchange} (abreast : Abreast related here there) (id : CacheId)
    (cache : KeyCache) :
    Abreast related (here.1.setCache id cache, here.2 ++ [])
      (there.1.setCache id cache, there.2 ++ []) where
  outside := abreast.outside
  caches := congrArg (fun caches => caches.modify id fun _ => cache) abreast.caches
  calls := by rw [List.append_nil, List.append_nil, abreast.calls]

/-- A routine comes to the same in both outsides, sending the same calls. -/
def InStep (first : Environment σ) (second : Environment τ) (related : σ → τ → Prop)
    (routine : Routine Effect α) : Prop :=
  ∀ here there, Abreast related here there → ∃ result here' there',
    Routine.run first.recorder routine here = some (result, here') ∧
      Routine.run second.recorder routine there = some (result, there') ∧
      Abreast related here' there'

namespace InStep

variable {first : Environment σ} {second : Environment τ} {related : σ → τ → Prop}
  {failed : Reply → Prop}

theorem done (result : α) : InStep first second related (.done result) :=
  fun here there abreast =>
    ⟨result, here, there, Routine.run_done _ _, Routine.run_done _ _, abreast⟩

theorem bind {routine : Routine Effect α} {next : α → Routine Effect β}
    (inStep : InStep first second related routine)
    (onward : ∀ result, InStep first second related (next result)) :
    InStep first second related (routine >>= next) := by
  intro here there abreast
  obtain ⟨result, here, there, ran, ran', abreast⟩ := inStep here there abreast
  rw [Routine.run_bind, Routine.run_bind, ran, ran']
  exact onward result here there abreast

/-- A request is answered tantamount. What reads it alike is the same routine from there on. -/
theorem send (matched : Environment.Matches failed related first second) {request : Request}
    {options : Option Options} {next : Except ClientError Reply → Routine Effect α}
    (reads : ∀ reply, failed reply → next (.ok reply) = next (.error (.broker (.ofReply reply))))
    (onward : ∀ outcome, InStep first second related (next outcome)) :
    InStep first second related (Client.send request options >>= next) := by
  intro here there abreast
  obtain ⟨tantamount, related'⟩ := matched ⟨request, options⟩ _ _ abreast.outside
  have same := tantamount.congr reads
  rw [Client.send, Routine.pause_bind, Routine.run_pause, Routine.run_pause, Routine.ask,
    Routine.call_bind, Routine.run_call rfl, Routine.run_call rfl]
  change ∃ result here' there', _ ∧
    Routine.run second.recorder (next (second.send ⟨request, options⟩ there.1.outside).1) _ = _ ∧ _
  rw [← same]
  refine onward _ _ _ ⟨related', abreast.caches, ?_⟩
  simp only [Effect.exchanges, List.map_append, List.map_cons, List.map_nil, abreast.calls]

/-- An effect that does nothing but use a cache finds the same in it on both sides. -/
theorem use {effect : Effect α} (id : CacheId) (access : KeyCache → α × KeyCache)
    (here : ∀ shared record, first.recorder _ effect (shared, record) =
      some ((access (shared.cache id)).1, shared.setCache id (access (shared.cache id)).2,
        record ++ []))
    (there : ∀ shared record, second.recorder _ effect (shared, record) =
      some ((access (shared.cache id)).1, shared.setCache id (access (shared.cache id)).2,
        record ++ [])) :
    InStep first second related (Routine.ask effect) := by
  rintro ⟨shared, record⟩ ⟨shared', record'⟩ abreast
  have same : shared'.cache id = shared.cache id := congrArg (Numbered.get · id) abreast.caches
  rw [Routine.ask, Routine.run_call (here shared record), Routine.run_call (there shared' record'),
    Routine.run_done, Routine.run_done, same]
  exact ⟨_, _, _, rfl, rfl, abreast.setCache _ _⟩

theorem lookup (cache : CacheId) (uri : KeyUri) :
    InStep first second related (Routine.ask (.lookup cache uri)) :=
  use cache (·.get? uri) (fun _ _ => rfl) fun _ _ => rfl

theorem remember (cache : CacheId) (requested : KeyUri) (key : KeyMaterial) :
    InStep first second related (Routine.ask (.remember cache requested key)) :=
  use cache (fun held => ((), held.insert requested key)) (fun _ _ => rfl) fun _ _ => rfl

end InStep

namespace Client

variable {first : Environment σ} {second : Environment τ} {related : σ → τ → Prop}

/-- At neither hop does it matter how a reply without a key is delivered. -/
theorem fetch_inStep
    (matched : Environment.Matches (fun reply => reply.key = none) related first second)
    (uri : KeyUri) (options : Option Options) :
    InStep first second related (fetch uri options) := by
  apply InStep.send matched
  · intro reply keyless
    simp only [← redirect?_ofReply reply, keyOfOutcome_ofReply uri keyless]
  · intro outcome
    cases redirect? outcome with
    | none => exact .done _
    | some target =>
        apply InStep.send matched
        · intro reply keyless
          rw [keyOfOutcome_ofReply ⟨target⟩ keyless]
        · intro outcome
          exact .done _

theorem resolveKey_inStep
    (matched : Environment.Matches (fun reply => reply.key = none) related first second)
    (client : Client) (uri : KeyUri) (options : Options) :
    InStep first second related (client.resolveKey uri options) := by
  unfold resolveKey
  split
  · exact .done _
  · split
    · apply (InStep.lookup _ uri).bind
      rintro (_ | key)
      · apply (fetch_inStep matched uri none).bind
        rintro (error | key)
        · exact .done _
        · exact (InStep.remember _ uri key).bind fun _ => .done _
      · exact .done _
    · exact fetch_inStep matched uri _

namespace Action

/-- What an action comes to is read alike off a reply that reports a failure and off the failure. -/
theorem once_inStep {action : Action}
    (matched : Environment.Matches (fun reply => reply.isFailure = true) related first second) :
    InStep first second related action.once := by
  unfold once
  split
  · exact .done _
  · rename_i request _
    change InStep first second related
      (send request none >>= fun outcome => .done (action.conclude outcome))
    apply InStep.send matched
    · intro reply fails
      rw [conclude, conclude, checked_ofReply fails]
    · intro outcome
      exact .done _

theorem perform_inStep (client : Client) {action : Action}
    (matched : Environment.Matches action.Fails related first second) :
    InStep first second related (action.perform client) := by
  by_cases resolves : action.Resolves
  · cases action with
    | resolveKey uri options => exact client.resolveKey_inStep matched uri options
    | _ => exact resolves.elim
  · rw [perform_eq_once client resolves]
    apply once_inStep
    rwa [← funext fun reply => propext (fails_iff resolves reply)]

end Action

/-- What an action of a client comes to: its result, the state it leaves, and the calls it sent. -/
structure Comes (environment : Environment σ) (client : Client) (action : Action)
    (start : Shared σ) (result : Except ClientError action.Answer) (last : Shared σ)
    (calls : List Call) : Prop where
  ran : Routine.run environment.handle (action.perform client) start = some (result, last)
  sent : ∃ record, Routine.run environment.recorder (action.perform client) (start, []) =
    some (result, last, record) ∧ record.map Prod.fst = calls

/-- A record that was kept of a run tells what the run came to. -/
theorem Comes.of_recorded {environment : Environment σ} {client : Client} {action : Action}
    {start last : Shared σ} {result : Except ClientError action.Answer} {record : List Exchange}
    (ran : Routine.run environment.recorder (action.perform client) (start, []) =
      some (result, last, record)) :
    Comes environment client action start result last (record.map Prod.fst) where
  ran := by
    have plain : (Routine.run environment.recorder (action.perform client) (start, [])).map
        (fun ended => (ended.1, ended.2.1)) =
          Routine.run environment.handle (action.perform client) start :=
      Routine.run_recording _ start []
    rw [ran] at plain
    exact plain.symm
  sent := ⟨record, ran, rfl⟩

/-- Whatever is asked of a client: where one outside answers with a failed reply and the other one
rejects with the failure that this reply reports, and all other answers are the same, the client
sends the same calls to both, comes to the same result and holds the same keys afterwards. -/
theorem delivery_indifferent {first : Environment σ} {second : Environment τ}
    {related : σ → τ → Prop} (client : Client) (action : Action)
    (matched : Environment.Matches action.Fails related first second)
    {here : Shared σ} {there : Shared τ} (outside : related here.outside there.outside)
    (caches : there.caches = here.caches) :
    ∃ result calls last last',
      Comes first client action here result last calls ∧
      Comes second client action there result last' calls ∧
      last'.caches = last.caches ∧ related last.outside last'.outside := by
  obtain ⟨result, ⟨last, record⟩, ⟨last', record'⟩, ran, ran', abreast⟩ :=
    Action.perform_inStep client matched (here, []) (there, []) ⟨outside, caches, rfl⟩
  have comes' := Comes.of_recorded ran'
  rw [abreast.calls] at comes'
  exact ⟨result, _, last, last', .of_recorded ran, comes', abreast.caches, abreast.outside⟩

/-- A broker that has moved one key and is down for every other one, and delivers these replies in
some way. -/
def delivering (deliver : Reply → Except ClientError Reply) : Environment Unit where
  send call _ :=
    (deliver (if call.request.uri = "kms://old" then
      { status := 301, errorCode := some 301002, redirectUri := some "kms://new" }
      else { status := 500, reason := some "down" }), ())
  draw _ _ := ([], ())
  transform _ _ _ text _ := (.ok text, ())

/-- Neither the move of a key nor the failure of the second hop has to come as a reply. -/
theorem delivery_indifferent_both_hops :
    let action := Action.resolveKey ⟨"kms://old"⟩ {}
    let client : Client := { cache := some 0 }
    let resolving := delivering .ok
    let rejecting := delivering fun reply => .error (.broker (.ofReply reply))
    (∀ call, (resolving.send call ()).1 ≠ (rejecting.send call ()).1) ∧
      ∃ result calls last last',
        Comes resolving client action ⟨(), {}, {}⟩ result last calls ∧
        Comes rejecting client action ⟨(), {}, {}⟩ result last' calls ∧
        last'.caches = last.caches ∧ last.outside = last'.outside := by
  intro action client resolving rejecting
  constructor
  · intro call same
    cases same
  · apply delivery_indifferent client action
    · intro call state state' related
      constructor
      · refine .rejected ?_
        split <;> rfl
      · exact related
    · rfl
    · rfl

end Client

end FieldCrypt
