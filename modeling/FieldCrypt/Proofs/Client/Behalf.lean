import FieldCrypt.Proofs.Client.OneHop
import FieldCrypt.Proofs.Client.Transparency

/-!
# Acting for others

What a client resolves on behalf of a user goes past its cache in both directions. Two runs of a
client, one with such calls among the others and one without them, can therefore be told apart by
nothing but these calls themselves: all others come to the same, and the caches are left alike.
-/

namespace FieldCrypt

open Broker

variable {σ : Type} {environment : Environment σ} {answer : Call → Except ClientError Reply}

/-- All caches hold the same, in the same order. -/
def Shared.SameCaches (first second : Shared σ) : Prop := second.caches = first.caches

theorem Shared.SameCaches.setCache {first second : Shared σ} (same : first.SameCaches second)
    (id : CacheId) (cache : KeyCache) :
    (first.setCache id cache).SameCaches (second.setCache id cache) :=
  congrArg (fun caches : Numbered KeyCache => caches.modify id fun _ => cache) same

/-- When the broker's answers depend on the calls alone, all that makes a difference to a client is
in the caches. -/
theorem Environment.Answers.alike (stateless : environment.Answers answer) :
    Alike environment.handle environment.handle Effect.OfClient Shared.SameCaches := by
  intro β effect ofClient first second same
  have cache (id : CacheId) : second.cache id = first.cache id :=
    congrArg (fun caches => caches.get id) same
  cases effect with
  | send call =>
      refine .some ⟨?_, same⟩
      exact (stateless call first.outside).trans (stateless call second.outside).symm
  | lookup id uri =>
      simp only [Environment.handle, cache]
      exact .some ⟨rfl, same.setCache id _⟩
  | remember id requested key =>
      simp only [Environment.handle, cache]
      exact .some ⟨rfl, same.setCache id _⟩
  | _ => exact ofClient.elim

namespace Client

/-- Resolve URIs one after another, each with options of its own, and note what each comes to. -/
def resolveEach (client : Client) (calls : List (KeyUri × Options)) :
    Routine Effect (List ((KeyUri × Options) × Except ClientError KeyMaterial)) :=
  calls.mapM fun call => do
    return (call, ← client.resolveKey call.1 call.2)

/-- What the broker says about a URI to whoever asks with these options. -/
def told (answer : Call → Except ClientError Reply) (uri : KeyUri) (options : Options) :
    Except ClientError KeyMaterial :=
  if uri.isEmpty then .error (.missing .uri) else fetched answer uri options.sent?

/-- A call comes to an end, and to the same wherever the caches hold the same. -/
theorem run_resolveKey_same (stateless : environment.Answers answer) (client : Client)
    (uri : KeyUri) (options : Options) {shared shared' : Shared σ}
    (same : shared.SameCaches shared') :
    ∃ result last last',
      Routine.run environment.handle (client.resolveKey uri options) shared = some (result, last) ∧
      Routine.run environment.handle (client.resolveKey uri options) shared' =
        some (result, last') ∧
      last.SameCaches last' := by
  have only := client.resolveKey_only uri options
  have keeps : (client.resolveKey uri options).Keeps environment.handle (fun _ => True)
      fun _ => True := by
    refine only.keeps fun β effect ofClient state _ => ?_
    obtain ⟨answer, next, handled, -⟩ := environment.handle_ofClient ofClient state
    exact ⟨answer, next, handled, trivial⟩
  have start : (fun _ : Shared σ => True) shared := trivial
  obtain ⟨result, last, ran, -, -⟩ := keeps.run start
  have alike := Routine.run_alike stateless.alike only same
  rw [ran] at alike
  generalize Routine.run environment.handle (client.resolveKey uri options) shared' = other
    at alike ⊢
  cases alike with
  | @some _ ended same =>
      obtain ⟨result', last'⟩ := ended
      obtain ⟨rfl, same⟩ := same
      exact ⟨result, last, last', ran, rfl, same⟩

/-- A call on behalf of a user comes to what the broker says to this user, and leaves the caches
alone. -/
theorem run_resolveKey_behalf (stateless : environment.Answers answer) (client : Client)
    (uri : KeyUri) {options : Options} (behalf : options.onBehalfOf ≠ none) (shared : Shared σ) :
    ∃ last,
      Routine.run environment.handle (client.resolveKey uri options) shared =
        some (told answer uri options, last) ∧
      shared.SameCaches last := by
  have keeps : (client.resolveKey uri options).Keeps environment.handle shared.SameCaches
      (· = told answer uri options) := by
    unfold resolveKey told
    split
    · rfl
    · split
      · rename_i without _
        rw [sent?_eq, Option.map_eq_none_iff] at without
        exact (behalf without).elim
      · exact fetch_keeps (fun _ _ holds => holds) stateless uri options.sent?
  obtain ⟨_, last, ran, same, rfl⟩ := keeps.run rfl
  exact ⟨last, ran, same⟩

/-- Whatever is in the caches, a call on behalf of a user begins with a request in the name of this
user. -/
theorem resolveKey_behalf_sends (client : Client) {uri : KeyUri} (named : uri.isEmpty = false)
    {options : Options} {user : String} (behalf : options.onBehalfOf = some user)
    (shared : Shared σ) :
    ∃ result last first later,
      Routine.run environment.recorder (client.resolveKey uri options) (shared, []) =
        some (result, last,
          ((⟨.retrieve uri.text, some { onBehalfOf := some user }⟩, first) : Exchange) :: later) := by
  obtain ⟨result, last, sent, ran, hop⟩ := run_resolveKey environment client uri options shared
  cases hop with
  | missing empty =>
      rw [KeyUri.isEmpty, empty] at named
      cases named
  | hit _ alone =>
      rw [behalf] at alone
      cases alone
  | asked _ _ asked =>
      rw [behalf, Option.map_some] at asked
      cases asked with
      | once => exact ⟨_, _, _, _, ran⟩
      | twice => exact ⟨_, _, _, _, ran⟩

/-- The calls that a client makes for itself. -/
def ownCalls (calls : List (KeyUri × Options)) : List (KeyUri × Options) :=
  calls.filter fun call => call.2.onBehalfOf.isNone

theorem run_resolveEach_cons {client : Client} {call : KeyUri × Options}
    {calls : List (KeyUri × Options)} {shared middle last : Shared σ}
    {result : Except ClientError KeyMaterial}
    {rest : List ((KeyUri × Options) × Except ClientError KeyMaterial)}
    (first : Routine.run environment.handle (client.resolveKey call.1 call.2) shared =
      some (result, middle))
    (others : Routine.run environment.handle (client.resolveEach calls) middle =
      some (rest, last)) :
    Routine.run environment.handle (client.resolveEach (call :: calls)) shared =
      some ((call, result) :: rest, last) := by
  have noted : Routine.run environment.handle (do
      return (call, ← client.resolveKey call.1 call.2)) shared = some ((call, result), middle) := by
    rw [Routine.run_bind, first, Option.bind_some, Routine.pure_eq, Routine.run_done]
  rw [resolveEach, Routine.run_mapM_cons, noted, Option.bind_some, ← resolveEach, others,
    Option.map_some]

/-- From the same caches, the calls that a client makes for itself come to the same with the others in
between as without them, and to the same caches in the end. -/
theorem run_resolveEach_ownCalls (stateless : environment.Answers answer) (client : Client)
    (calls : List (KeyUri × Options)) {shared shared' : Shared σ}
    (same : shared.SameCaches shared') :
    ∃ outcomes last last',
      Routine.run environment.handle (client.resolveEach calls) shared = some (outcomes, last) ∧
      Routine.run environment.handle (client.resolveEach (ownCalls calls)) shared' =
        some (outcomes.filter fun outcome => outcome.1.2.onBehalfOf.isNone, last') ∧
      last.SameCaches last' ∧
      outcomes.map Prod.fst = calls ∧
      ∀ outcome ∈ outcomes, outcome.1.2.onBehalfOf ≠ none →
        outcome.2 = told answer outcome.1.1 outcome.1.2 := by
  induction calls generalizing shared shared' with
  | nil =>
      have nothing (state : Shared σ) :
          Routine.run environment.handle (client.resolveEach []) state = some ([], state) :=
        Routine.run_done [] state
      exact ⟨[], shared, shared', nothing shared, nothing shared', same, rfl, nofun⟩
  | cons call calls ih =>
      obtain ⟨uri, options⟩ := call
      -- An own call is made in both runs, any other in the first one only.
      by_cases own : options.onBehalfOf = none
      · obtain ⟨result, middle, middle', first, first', same⟩ :=
          run_resolveKey_same stateless client uri options same
        obtain ⟨outcomes, last, last', others, others', same, listed, behalf⟩ := ih same
        refine ⟨_, last, last', run_resolveEach_cons first others, ?_, same, congrArg _ listed,
          List.forall_mem_cons.mpr ⟨fun other => (other own).elim, behalf⟩⟩
        have kept : ownCalls ((uri, options) :: calls) = (uri, options) :: ownCalls calls := by
          simp only [ownCalls, List.filter_cons, own, Option.isNone_none, if_true]
        rw [kept, run_resolveEach_cons first' others', List.filter_cons]
        simp only [own, Option.isNone_none, if_true]
      · have hidden : options.onBehalfOf.isNone = false := by
          rw [Option.isNone_eq_false_iff, Option.isSome_iff_ne_none]
          exact own
        obtain ⟨middle, first, still⟩ := run_resolveKey_behalf stateless client uri own shared
        obtain ⟨outcomes, last, last', others, others', same, listed, behalf⟩ :=
          ih (same.trans still.symm)
        refine ⟨_, last, last', run_resolveEach_cons first others, ?_, same, congrArg _ listed,
          List.forall_mem_cons.mpr ⟨fun _ => rfl, behalf⟩⟩
        have dropped : ownCalls ((uri, options) :: calls) = ownCalls calls := by
          simp only [ownCalls, List.filter_cons, hidden, Bool.false_eq_true, if_false]
        rw [dropped, others', List.filter_cons]
        simp only [hidden, Bool.false_eq_true, if_false]

/-- Let the broker's answers depend on the calls alone, and so perhaps on the user whom a call is made
for. Leaving out all calls on behalf of users from a run of calls changes neither what the others
come to nor what the caches hold in the end, in which order. What a call on behalf of a user comes
to is the broker's answer for this user, and it takes a request in the name of this user, even of
one without a name, unless no URI is given. -/
theorem resolveEach_ownCalls (stateless : environment.Answers answer) (client : Client)
    (calls : List (KeyUri × Options)) (shared : Shared σ) :
    (∃ outcomes last alone,
      Routine.run environment.handle (client.resolveEach calls) shared = some (outcomes, last) ∧
      Routine.run environment.handle (client.resolveEach (ownCalls calls)) shared =
        some (outcomes.filter fun outcome => outcome.1.2.onBehalfOf.isNone, alone) ∧
      alone.caches = last.caches ∧
      outcomes.map Prod.fst = calls ∧
      ∀ outcome ∈ outcomes, outcome.1.2.onBehalfOf ≠ none →
        outcome.2 = told answer outcome.1.1 outcome.1.2) ∧
    ∀ uri options user state, uri.isEmpty = false → options.onBehalfOf = some user →
      ∃ result last first later,
        Routine.run environment.recorder (client.resolveKey uri options) (state, []) =
          some (result, last,
            (⟨.retrieve uri.text, some { onBehalfOf := some user }⟩, first) :: later) := by
  constructor
  · exact run_resolveEach_ownCalls stateless client calls rfl
  · intro uri options user state named behalf
    exact resolveKey_behalf_sends client named behalf state

/-- A broker that has a key of its own for each user. -/
def personal (call : Call) : Except ClientError Reply :=
  let user := call.options.bind Options.onBehalfOf
  .ok (.ofKey { uri := some call.request.uri, jwk := (user.map Json.str).getD .null })

/-- Of four calls for one key the first is made for a user without a name and the third for Ann. Both
get keys of their own, and the other two calls the key that belongs to nobody. -/
theorem resolveEach_ownCalls_personal :
    let environment : Environment Unit :=
      ⟨fun call _ => (personal call, ()), fun _ _ => ([], ()), fun _ _ _ text _ => (.ok text, ())⟩
    let uri : KeyUri := ⟨"kms://kms/keys/1"⟩
    let own : KeyUri × Options := (uri, {})
    let behalf (user : String) : KeyUri × Options := (uri, { onBehalfOf := some user })
    let created := create {} (⟨(), {}, {}⟩ : Shared Unit)
    ∃ outcomes last alone,
      Routine.run environment.handle
        (created.1.resolveEach [behalf "", own, behalf "ann", own]) created.2 =
          some (outcomes, last) ∧
      Routine.run environment.handle (created.1.resolveEach [own, own]) created.2 =
        some (outcomes.filter fun outcome => outcome.1.2.onBehalfOf.isNone, alone) ∧
      alone.caches = last.caches ∧
      ∀ user result, (behalf user, result) ∈ outcomes → result = .ok ⟨uri, .str user⟩ := by
  intro environment uri own behalf created
  have stateless : environment.Answers personal := fun _ _ => rfl
  obtain ⟨outcomes, last, alone, all, others, same, -, personally⟩ :=
    (resolveEach_ownCalls stateless created.1 [behalf "", own, behalf "ann", own] created.2).1
  refine ⟨outcomes, last, alone, all, others, same, ?_⟩
  intro user result there
  have answered : told personal uri { onBehalfOf := some user } = .ok ⟨uri, .str user⟩ := rfl
  rw [← answered]
  exact personally _ there (Option.some_ne_none user)

end Client

end FieldCrypt
