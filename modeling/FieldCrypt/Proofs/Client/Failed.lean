import FieldCrypt.Proofs.Client.Effects
import FieldCrypt.Proofs.Key.Latest
import FieldCrypt.Proofs.Routine.Invariant
import FieldCrypt.Proofs.Routine.Notes
import FieldCrypt.Proofs.Routine.Run
import FieldCrypt.Proofs.Store.Order

/-!
# Nothing is learned from a failure

A client puts a key into its cache as the last step of a call that succeeds. Up to then it has looked
into the cache, where no key was found, and sent requests. So a call that fails leaves every cache
with the same keys and the same aliases, wherever it failed: before a request, at the first one, or
at the second one after a key had moved. All that can be different is which alias was used last.
-/

namespace FieldCrypt

open Broker (Options)
open Routine

variable {σ : Type}

namespace KeyCache

variable {cache before after : KeyCache}

/-- The cache holds the same keys as before, in the same order, and the same aliases. -/
structure SameEntries (before after : KeyCache) : Prop where
  keys_eq : after.keys = before.keys
  aliases_perm : after.aliases.entries.Perm before.aliases.entries
  aliasLimit_eq : after.aliases.limit = before.aliases.limit
  canonical?_eq : ∀ uri, after.canonical? uri = before.canonical? uri

theorem SameEntries.refl (cache : KeyCache) : cache.SameEntries cache :=
  ⟨rfl, .refl _, rfl, fun _ => rfl⟩

/-- Every URI leads to the same key. -/
theorem SameEntries.get?_eq (same : before.SameEntries after) (uri : KeyUri) :
    (after.get? uri).1 = (before.get? uri).1 := by
  simp only [get?, resolve, same.canonical?_eq, same.keys_eq]

/-- A lookup that finds no key leaves what is there. -/
theorem sameEntries_get? (tidy : cache.aliases.Tidy) {uri : KeyUri}
    (missed : (cache.get? uri).1 = none) : cache.SameEntries (cache.get? uri).2 where
  keys_eq := by
    apply Recency.touch_of_not_mem
    rw [Recency.mem_order_iff, Option.not_isSome_iff_eq_none]
    exact missed
  aliases_perm := tidy.perm_touch uri
  aliasLimit_eq := Recency.limit_touch cache.aliases uri
  canonical?_eq := Recency.peek?_touch cache.aliases uri

end KeyCache

/-- What is put into a cache: where, the URI that was asked for, and the key. -/
def Effect.learns : (β : Type) → Effect β → Shared σ → List (CacheId × KeyUri × KeyMaterial)
  | _, .remember cache requested key, _ => [(cache, requested, key)]
  | _, _, _ => []

namespace Client

variable {environment : Environment σ} {client : Client} {uri : KeyUri} {options : Options}
  {shared last : Shared σ} {error : ClientError}

theorem caches_of_fetch {sent : Option Options} {outcome : Except ClientError KeyMaterial}
    (ends : Ends environment.handle (fetch uri sent) shared outcome last) :
    last.caches = shared.caches := by
  have keeps : (fetch uri sent).Keeps environment.handle (fun now => now.caches = shared.caches)
      fun _ => True := by
    refine (fetch_serially uri sent).only.keeps fun β effect isSend state same => ?_
    cases effect with
    | send call => exact ⟨_, _, rfl, same⟩
    | _ => exact isSend.elim
  exact (keeps.of_ends rfl ends).2

/-- A call that fails changes at most the order of the client's own cache, by a lookup that finds no
key. -/
theorem caches_of_resolveKey_error
    (ends : Ends environment.handle (client.resolveKey uri options) shared (.error error) last) :
    last.caches = shared.caches ∨ ∃ id, client.cache = some id ∧
      ((shared.cache id).get? uri).1 = none ∧
      last.caches = (shared.setCache id ((shared.cache id).get? uri).2).caches := by
  unfold resolveKey at ends
  split at ends
  · obtain ⟨-, rfl⟩ := ends_done ends
    exact .inl rfl
  · split at ends
    · rename_i id _ own
      obtain ⟨answer, _, looked, ends⟩ := ends_call ends
      obtain ⟨missed, rfl⟩ : ((shared.cache id).get? uri).1 = answer ∧
          shared.setCache id ((shared.cache id).get? uri).2 = _ :=
        Prod.mk.inj (Option.some.inj looked)
      cases answer with
      | some key => cases (ends_done ends).1
      | none =>
          change Ends environment.handle (fetchInto id uri) _ _ last at ends
          rw [fetchInto] at ends
          obtain ⟨outcome, middle, fetched, ends⟩ := ends_bind ends
          refine .inr ⟨id, own, missed, ?_⟩
          cases outcome with
          | ok key =>
              obtain ⟨_, _, -, ends⟩ := ends_call ends
              cases (ends_done ends).1
          | error reason =>
              obtain ⟨-, rfl⟩ := ends_done ends
              exact caches_of_fetch fetched
    · exact .inl (caches_of_fetch ends)

/-- Whatever goes on beside it, a call that fails puts nothing into a cache. -/
theorem recounts_resolveKey_error {notes : Notes (CacheId × KeyUri × KeyMaterial)}
    (recounts : Recounts environment.handle Effect.learns (client.resolveKey uri options) notes
      (.error error)) : notes = [] := by
  have silent : ∀ (β : Type) (effect : Effect β) (state : Shared σ),
      effect.IsSend → effect.learns _ state = [] := by
    intro β effect state isSend
    cases effect with
    | send call => rfl
    | _ => exact isSend.elim
  unfold resolveKey at recounts
  split at recounts
  · exact recounts.1
  · split at recounts
    · rename_i id _ _
      obtain ⟨state, answer, _, _, -, rfl, recounts⟩ := recounts
      cases answer with
      | some key => cases recounts.2
      | none =>
          change Recounts environment.handle Effect.learns (fetchInto id uri) notes _ at recounts
          rw [fetchInto] at recounts
          obtain ⟨outcome, first, rest, rfl, fetched, recounts⟩ := recounts_bind recounts
          rw [(fetch_serially uri none).recounts_nil silent fetched]
          cases outcome with
          | ok key =>
              obtain ⟨_, _, _, _, -, -, recounts⟩ := recounts
              cases recounts.2
          | error reason =>
              rw [recounts.1]
              rfl
    · exact (fetch_serially uri _).recounts_nil silent recounts

/-- Whatever the broker does, a call that fails leaves all caches with the entries that they had, so
that every URI leads to the same key as before. If there are others that use the caches meanwhile,
the call at least puts nothing in. -/
theorem resolveKey_error_sameEntries
    (reachable : ∀ id, client.cache = some id → (shared.cache id).Reachable) :
    (Ends environment.handle (client.resolveKey uri options) shared (.error error) last →
      ∀ id, (shared.cache id).SameEntries (last.cache id) ∧
        ∀ other, ((last.cache id).get? other).1 = ((shared.cache id).get? other).1) ∧
    ∀ notes, Recounts environment.handle Effect.learns (client.resolveKey uri options) notes
      (.error error) → notes = [] := by
  refine ⟨fun ends id => ?_, fun notes => recounts_resolveKey_error⟩
  have same : (shared.cache id).SameEntries (last.cache id) := by
    rcases caches_of_resolveKey_error ends with same | ⟨own, held, missed, same⟩
    · have kept : last.cache id = shared.cache id := congrArg (Numbered.get · id) same
      rw [kept]
      exact .refl _
    · have kept : last.cache id = (shared.setCache own ((shared.cache own).get? uri).2).cache id :=
        congrArg (Numbered.get · id) same
      rw [kept, Shared.cache_setCache_other]
      split
      · rename_i here
        subst here
        obtain ⟨capacity, operations, reached⟩ := reachable own held
        have tidy : (shared.cache own).aliases.Tidy := by
          rw [reached]
          exact (KeyCache.bounded_after capacity operations).aliases
        exact KeyCache.sameEntries_get? tidy missed
      · exact .refl _
  exact ⟨same, same.get?_eq⟩

/-- A key that was evicted has moved on, and where it has moved to there is none. The cache remembers
the first move and not the second one. -/
theorem resolveKey_error_sameEntries_redirected :
    let environment : Environment Unit :=
      ⟨fun call _ => (.ok (if call.request.uri = "kms://a" then
          { status := 409, errorCode := some 301002, redirectUri := some "kms://c" }
        else { status := 404 }), ()), fun _ _ => ([], ()), fun _ _ _ text _ => (.ok text, ())⟩
    let cache := KeyCache.after 4 [.insert ⟨"kms://a"⟩ ⟨⟨"kms://b"⟩, .int 1⟩,
      .insert ⟨"kms://x"⟩ ⟨⟨"kms://y"⟩, .int 2⟩, .evict ⟨"kms://b"⟩]
    let shared : Shared Unit := ⟨(), ⟨[cache]⟩, {}⟩
    let client : Client := { cache := some 0 }
    ∃ error last,
      NotedEnds environment.handle Effect.learns (client.resolveKey ⟨"kms://a"⟩ {}) shared []
        (.error error) last ∧
      cache.SameEntries (last.cache 0) ∧
      (last.cache 0).canonical? ⟨"kms://a"⟩ = some ⟨"kms://b"⟩ ∧
      ((last.cache 0).get? ⟨"kms://x"⟩).1 = some ⟨⟨"kms://y"⟩, .int 2⟩ := by
  intro environment cache shared client
  have reachable : ∀ id, client.cache = some id → (shared.cache id).Reachable := by
    rintro _ ⟨⟩
    exact ⟨4, _, rfl⟩
  have ends : Ends environment.handle (client.resolveKey ⟨"kms://a"⟩ {}) shared (.error _)
      ((round environment.handle)^[3] (client.resolveKey ⟨"kms://a"⟩ {}, shared)).2 :=
    ends_of_rounds rfl
  obtain ⟨left, silent⟩ := resolveKey_error_sameEntries reachable
  obtain ⟨notes, noted⟩ := steps_iff_noted.mp ends
  obtain rfl := silent notes (NotedEnds.recounts noted)
  obtain ⟨same, finds⟩ := left ends 0
  exact ⟨_, _, noted, same, (same.canonical?_eq _).trans rfl, (finds _).trans rfl⟩

end Client

end FieldCrypt
