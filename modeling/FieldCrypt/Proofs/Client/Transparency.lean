import FieldCrypt.Proofs.Client.Effects
import FieldCrypt.Proofs.Key.Faithful
import FieldCrypt.Proofs.Routine.Invariant

/-!
# A cache makes no difference

When the broker's answers depend on nothing but the calls, a client resolves every URI to the same
key with a cache as without one. The cache stays faithful to the broker's answers whatever is asked
for, held, dropped or looked up, and in whatever order.
-/

namespace FieldCrypt

open Broker

variable {σ : Type} {environment : Environment σ} {answer : Call → Except ClientError Reply}

/-- The broker's answers depend on the calls alone. -/
def Environment.Answers (environment : Environment σ)
    (answer : Call → Except ClientError Reply) : Prop :=
  ∀ call outside, (environment.send call outside).1 = answer call

namespace Client

/-- What asking for a key comes to, and once more if it has moved. -/
def fetched (answer : Call → Except ClientError Reply) (uri : KeyUri) (options : Option Options) :
    Except ClientError KeyMaterial :=
  let first := answer { request := .retrieve uri.text, options }
  match redirect? first with
  | none => keyOfOutcome uri first
  | some target => keyOfOutcome ⟨target⟩ (answer { request := .retrieve target, options })

/-- What a URI resolves to without options and without a cache. -/
def resolved (answer : Call → Except ClientError Reply) (uri : KeyUri) :
    Except ClientError KeyMaterial :=
  if uri.isEmpty then .error (.missing .uri) else fetched answer uri none

/-- Whatever else goes on leaves the client's cache alone, evicts a key from it or clears it. -/
def Tended (client : Client) (before after : Shared σ) : Prop :=
  ∀ id, client.cache = some id →
    after.cache id = before.cache id ∨
    (∃ uri, after.cache id = (before.cache id).evict uri) ∨
    after.cache id = (before.cache id).clear

/-- The client's cache, if it has one, holds what URIs resolve to. -/
def Truthful (client : Client) (answer : Call → Except ClientError Reply) (shared : Shared σ) :
    Prop :=
  ∀ id, client.cache = some id → (shared.cache id).Faithful (resolved answer)

/-- Callers that resolve URIs through one client. -/
abbrev Resolvers (σ : Type) :=
  Crowd (KeyUri × Options) Effect (Except ClientError KeyMaterial) (Shared σ)

/-- Any number of steps of such callers. -/
abbrev ResolveReaches (environment : Environment σ) (client : Client) :
    Resolvers σ → Resolvers σ → Prop :=
  Crowd.Reaches environment.handle (fun purpose => client.resolveKey purpose.1 purpose.2)
    client.Tended

theorem Tended.truthful {client : Client} {before after : Shared σ}
    (tended : client.Tended before after) (truthful : client.Truthful answer before) :
    client.Truthful answer after := by
  intro id own
  have faithful := truthful id own
  rcases tended id own with same | ⟨uri, evicted⟩ | cleared
  · rw [same]
    exact faithful
  · rw [evicted]
    exact faithful.evict uri
  · rw [cleared]
    exact .clear _

theorem tended_evict {client : Client} {id : CacheId} (own : client.cache = some id)
    (shared : Shared σ) (uri : KeyUri) :
    client.Tended shared (shared.setCache id ((shared.cache id).evict uri)) := by
  intro other own'
  obtain rfl := Option.some.inj (own.symm.trans own')
  right
  left
  exact ⟨uri, Shared.cache_setCache shared id _⟩

theorem create_truthful (config : ClientConfig) (shared : Shared σ) :
    (create config shared).1.Truthful answer (create config shared).2 := by
  intro id own
  unfold create at own ⊢
  split at own
  · rename_i caching
    obtain rfl := Option.some.inj own
    rw [if_pos caching, Shared.addCache, Shared.cache_setCache]
    exact .ofCapacity _
  · cases own

section Keeping

variable {invariant : Shared σ → Prop} (outsideOnly : ∀ shared outside, invariant shared →
  invariant { shared with outside })

include outsideOnly

theorem send_keeps (stateless : environment.Answers answer) (request : Request)
    (options : Option Options) :
    (send request options).Keeps environment.handle invariant (· = answer { request, options }) := by
  intro shared holds
  exact ⟨_, _, rfl, outsideOnly shared _ holds, stateless _ _⟩

/-- Asking for a key comes to what the broker says, and keeps whatever does not depend on it. -/
theorem fetch_keeps (stateless : environment.Answers answer) (uri : KeyUri)
    (options : Option Options) :
    (fetch uri options).Keeps environment.handle invariant (· = fetched answer uri options) := by
  refine (send_keeps outsideOnly stateless _ options).bind ?_
  rintro first rfl
  simp only [fetched]
  cases redirect? (answer { request := .retrieve uri.text, options }) with
  | none => rfl
  | some target =>
      refine (send_keeps outsideOnly stateless _ options).bind ?_
      rintro second rfl
      rfl

end Keeping

theorem lookup_keeps (consistent : Consistent (resolved answer)) {client : Client} {id : CacheId}
    (own : client.cache = some id) (uri : KeyUri) :
    (Routine.ask (.lookup id uri)).Keeps environment.handle (client.Truthful answer)
      fun found => ∀ key, found = some key → resolved answer uri = .ok key := by
  intro shared truthful
  have faithful := truthful id own
  refine ⟨_, _, rfl, ?_, fun key found => faithful.resolution_eq consistent found⟩
  intro other own'
  obtain rfl := Option.some.inj (own.symm.trans own')
  rw [Shared.cache_setCache]
  exact faithful.get? uri

theorem remember_keeps (consistent : Consistent (resolved answer)) {client : Client} {id : CacheId}
    (own : client.cache = some id) {uri : KeyUri} {key : KeyMaterial}
    (same : resolved answer uri = .ok key) :
    (Routine.ask (.remember id uri key)).Keeps environment.handle (client.Truthful answer)
      fun _ => True := by
  intro shared truthful
  refine ⟨_, _, rfl, ?_, trivial⟩
  intro other own'
  obtain rfl := Option.some.inj (own.symm.trans own')
  rw [Shared.cache_setCache]
  exact (truthful id own).insert consistent same

theorem fetchInto_keeps (stateless : environment.Answers answer)
    (consistent : Consistent (resolved answer)) {client : Client} {id : CacheId}
    (own : client.cache = some id) {uri : KeyUri} (named : uri.isEmpty = false) :
    (fetchInto id uri).Keeps environment.handle (client.Truthful answer)
      (· = resolved answer uri) := by
  have same : resolved answer uri = fetched answer uri none := by
    rw [resolved, named]
    rfl
  refine (fetch_keeps (fun _ _ holds => holds) stateless uri none).bind ?_
  rintro outcome rfl
  rw [← same]
  cases found : resolved answer uri with
  | error error => rfl
  | ok key => exact (remember_keeps consistent own found).bind fun _ _ => rfl

/-- With a cache or without one, a client that resolves a URI for itself gets what the URI resolves
to. What it resolves for others leaves the cache alone. -/
theorem resolveKey_keeps (stateless : environment.Answers answer)
    (consistent : Consistent (resolved answer)) (client : Client) (uri : KeyUri)
    (options : Options) :
    (client.resolveKey uri options).Keeps environment.handle (client.Truthful answer)
      fun result => options.onBehalfOf = none → result = resolved answer uri := by
  unfold resolveKey
  split
  · rename_i empty
    intro _
    rw [resolved, if_pos empty]
  · rename_i named
    have same : resolved answer uri = fetched answer uri none := if_neg named
    split
    · rename_i id _ own
      refine (lookup_keeps consistent own uri).bind ?_
      rintro (_ | key) found
      · refine (fetchInto_keeps stateless consistent own (Bool.eq_false_iff.mpr named)).mono ?_
        rintro result rfl _
        rfl
      · intro _
        exact (found key rfl).symm
    · refine (fetch_keeps (fun _ _ holds => holds) stateless uri options.sent?).mono ?_
      rintro result rfl alone
      rw [same, Options.sent?, alone]
      rfl

theorem run_uncached (stateless : environment.Answers answer) {client : Client}
    (uncached : client.cache = none) (uri : KeyUri) (shared : Shared σ) :
    ∃ last, Routine.run environment.handle (client.resolveKey uri {}) shared =
      some (resolved answer uri, last) := by
  have keeps : (client.resolveKey uri {}).Keeps environment.handle (client.Truthful answer)
      (· = resolved answer uri) := by
    unfold resolveKey resolved
    split
    · rfl
    · rw [uncached]
      exact fetch_keeps (fun _ _ holds => holds) stateless uri none
  have truthful : client.Truthful answer shared := by
    intro id own
    rw [uncached] at own
    cases own
  obtain ⟨_, last, ran, -, rfl⟩ := keeps.run truthful
  exact ⟨last, ran⟩

/-- Let the broker's answers depend on the calls alone, and a key be what its own URI resolves to.
Then any number of callers of a client, in any order and with keys evicted from its cache in
between, get what a client without a cache gets, each that resolves a URI for itself, and none of
them is ever held up. -/
theorem cache_transparent (stateless : environment.Answers answer)
    (consistent : Consistent (resolved answer)) (config : ClientConfig) (shared : Shared σ) :
    (∀ plain : Client, plain.cache = none → ∀ uri state, ∃ last,
      Routine.run environment.handle (plain.resolveKey uri {}) state =
        some (resolved answer uri, last)) ∧
    ∀ crowd : Resolvers σ,
      ResolveReaches environment (create config shared).1 ⟨[], (create config shared).2⟩ crowd →
      ∀ index uri options, options.onBehalfOf = none →
        (∀ result, crowd.Ended index (uri, options) result → result = resolved answer uri) ∧
        ∀ routine, crowd.callers[index]? = some ((uri, options), routine) →
          ∃ last, Routine.run environment.handle routine crowd.state =
            some (resolved answer uri, last) := by
  refine ⟨fun plain uncached => run_uncached stateless uncached, ?_⟩
  intro crowd reached index uri options alone
  have keeping : crowd.Keeping environment.handle ((create config shared).1.Truthful answer)
      fun purpose result => purpose.2.onBehalfOf = none → result = resolved answer purpose.1 := by
    refine Crowd.Keeping.reaches rfl (create_truthful config shared) ?_ ?_ reached
    · intro purpose
      exact resolveKey_keeps stateless consistent _ purpose.1 purpose.2
    · intro before after tended
      exact tended.truthful
  constructor
  · intro result ended
    exact keeping.callers index (uri, options) _ ended alone
  · intro routine found
    obtain ⟨result, last, ran, -, same⟩ := (keeping.callers _ _ _ found).run keeping.holds
    rw [same alone] at ran
    exact ⟨last, ran⟩

/-- A broker that has moved one key and answers for every other URI with a key of that URI. -/
def moving (call : Call) : Except ClientError Reply :=
  if call.request.uri = "kms://old" then
    .ok { status := 409, errorCode := some 301002, redirectUri := some "kms://new" }
  else .ok (.ofKey { uri := some call.request.uri })

theorem resolved_moving {uri : KeyUri} (other : uri.text ≠ "kms://old")
    (named : uri.isEmpty = false) : resolved moving uri = .ok ⟨uri, .null⟩ := by
  have first : moving { request := .retrieve uri.text, options := none } =
      .ok (.ofKey { uri := some uri.text }) := if_neg other
  have held : KeyEntry.firstNonempty (some uri.text) = fun _ => some uri.text := by
    funext second
    rw [KeyEntry.firstNonempty, Option.filter_some_pos (by rw [← KeyUri.isEmpty, named]; rfl)]
    rfl
  rw [resolved, named, fetched, first]
  simp only [redirect?, Reply.ofKey, keyOfOutcome, keyOf, KeyEntry.material?, held]
  rfl

theorem consistent_moving : Consistent (resolved moving) := by
  intro uri key found
  by_cases named : uri.isEmpty = true
  · rw [resolved, if_pos named] at found
    cases found
  · by_cases old : uri.text = "kms://old"
    · obtain rfl : uri = ⟨"kms://old"⟩ := congrArg KeyUri.mk old
      obtain rfl : KeyMaterial.mk ⟨"kms://new"⟩ .null = key := Except.ok.inj found
      rfl
    · have same := resolved_moving old (Bool.eq_false_iff.mpr named)
      obtain rfl := Except.ok.inj (same.symm.trans found)
      exact same

/-- Somebody asks for a key that has moved, the key is evicted under its new URI, and the next one
who asks is answered with it all the same. -/
theorem cache_transparent_moving :
    let environment : Environment Unit :=
      ⟨fun call _ => (moving call, ()), fun _ _ => ([], ()), fun _ _ _ text _ => (.ok text, ())⟩
    let created := create {} (⟨(), {}, {}⟩ : Shared Unit)
    ∃ crowd : Resolvers Unit, ResolveReaches environment created.1 ⟨[], created.2⟩ crowd ∧
      crowd.Ended 1 (⟨"kms://old"⟩, {}) (resolved moving ⟨"kms://old"⟩) ∧
      resolved moving ⟨"kms://old"⟩ = .ok ⟨⟨"kms://new"⟩, .null⟩ := by
  intro environment created
  let asker : KeyUri × Options := (⟨"kms://old"⟩, {})
  let key : KeyMaterial := ⟨⟨"kms://new"⟩, .null⟩
  let state (keys : List (KeyUri × KeyMaterial)) : Shared Unit :=
    ⟨(), ⟨[⟨⟨256, keys⟩, ⟨256, [(asker.1, key.uri)]⟩⟩]⟩, {}⟩
  have own : created.1.cache = some 0 := rfl
  have learned : ResolveReaches environment created.1 ⟨[], created.2⟩
      ⟨[(asker, .done (.ok key))], state [(key.uri, key)]⟩ :=
    .trans (.single (.come asker)) (Crowd.reaches_turns [0, 0, 0] _)
  have evicted : ResolveReaches environment created.1 ⟨[], created.2⟩
      ⟨[(asker, .done (.ok key))], state []⟩ :=
    learned.tail (.change (tended_evict own (state [(key.uri, key)]) key.uri))
  have reached := (evicted.tail (.come asker)).trans (Crowd.reaches_turns [1, 1, 1] _)
  have same := ((cache_transparent (fun _ _ => rfl) consistent_moving {} _).2 _ reached 1 asker.1
    {} rfl).1 (.ok key) rfl
  exact ⟨_, reached, rfl, same.symm⟩

end Client

end FieldCrypt
