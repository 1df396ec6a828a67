import FieldCrypt.Key.Cache
import FieldCrypt.Proofs.Broker.Retrieve

/-!
# A key on the move

The broker moves a key from one of its URIs to another. A cache may have learnt of the key before
that or after it: what it holds under either URI is the same web key, and it takes the old URI for
no third one. Since a cache drops entries at any time, nothing is said of what it still holds.
-/

namespace FieldCrypt

/-- A key that is moved from one URI of the broker's to another one. -/
structure Move where
  source : KeyUri
  target : KeyUri
  jwk : Json
  source_kms : source.IsKms
  target_kms : target.IsKms
  apart : source ≠ target

namespace Move

variable {move : Move}

/-- The key has this URI, has had it or will have it. -/
def Concerns (move : Move) (uri : KeyUri) : Prop := uri = move.source ∨ uri = move.target

/-- The material of the key, before it moves or after it. -/
structure Finds (move : Move) (key : KeyMaterial) : Prop where
  concerned : move.Concerns key.uri
  jwk_eq : key.jwk = move.jwk

theorem finds_source : move.Finds ⟨move.source, move.jwk⟩ := ⟨.inl rfl, rfl⟩

theorem finds_target : move.Finds ⟨move.target, move.jwk⟩ := ⟨.inr rfl, rfl⟩

/-- What a cache holds under the URIs of the key is the key. -/
structure Carried (move : Move) (cache : KeyCache) : Prop where
  finds : ∀ uri key, move.Concerns uri → cache.keys.peek? uri = some key → move.Finds key
  concerned : ∀ held, cache.aliases.peek? move.source = some held → move.Concerns held

/-- A cache has learnt nothing more about the key, and may have dropped it. -/
structure Unlearnt (move : Move) (before after : KeyCache) : Prop where
  keys : ∀ uri key, move.Concerns uri →
    after.keys.peek? uri = some key → before.keys.peek? uri = some key
  aliases : ∀ held,
    after.aliases.peek? move.source = some held → before.aliases.peek? move.source = some held

theorem Carried.ofCapacity (capacity : Nat) : move.Carried (.ofCapacity capacity) where
  finds uri key _ found := by cases found
  concerned held found := by cases found

theorem Carried.unlearnt {before after : KeyCache} (carried : move.Carried before)
    (unlearnt : move.Unlearnt before after) : move.Carried after where
  finds uri key concerned found :=
    carried.finds uri key concerned (unlearnt.keys uri key concerned found)
  concerned held found := carried.concerned held (unlearnt.aliases held found)

/-- What a lookup of the old URI finds is the key, through an alias or not. -/
theorem Carried.finds_of_get? {cache : KeyCache} (carried : move.Carried cache) {key : KeyMaterial}
    (found : (cache.get? move.source).1 = some key) : move.Finds key := by
  refine carried.finds (cache.resolve move.source) key ?_ found
  unfold KeyCache.resolve KeyCache.canonical?
  cases aliased : cache.aliases.peek? move.source with
  | none => exact .inl rfl
  | some held => exact carried.concerned held aliased

theorem Carried.get? {cache : KeyCache} (carried : move.Carried cache) (uri : KeyUri) :
    move.Carried (cache.get? uri).2 where
  finds other key concerned found := by
    rw [KeyCache.get?, Recency.peek?_touch] at found
    exact carried.finds other key concerned found
  concerned held found := by
    rw [KeyCache.get?, Recency.peek?_touch] at found
    exact carried.concerned held found

/-- A cache may learn the key before it moves or after it, however late it gets the answer. -/
theorem Carried.insert {cache : KeyCache} (carried : move.Carried cache) {key : KeyMaterial}
    (finds : move.Finds key) : move.Carried (cache.insert move.source key) where
  finds uri other concerned found := by
    rcases Recency.peek?_of_put found with ⟨-, rfl⟩ | before
    · exact finds
    · exact carried.finds uri other concerned before
  concerned held found := by
    unfold KeyCache.insert at found
    split at found
    · exact carried.concerned held found
    · rcases Recency.peek?_of_put found with ⟨-, rfl⟩ | before
      · exact finds.concerned
      · exact carried.concerned held before

end Move

end FieldCrypt
