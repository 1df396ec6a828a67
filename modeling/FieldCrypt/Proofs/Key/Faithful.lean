import FieldCrypt.Key.Cache

/-!
# Faithful caches

A cache is faithful to what keys resolve to when everything it holds could have been resolved just
now. An alias may outlive its key and a key its aliases, so each list is held against the resolution
by itself. A lookup that goes through an alias then finds the right key because a key resolves from
its own URI too.
-/

namespace FieldCrypt

variable {ε : Type} {resolution : KeyUri → Except ε KeyMaterial}

/-- A key that a URI resolves to is also what its own URI resolves to. -/
def Consistent (resolution : KeyUri → Except ε KeyMaterial) : Prop :=
  ∀ uri key, resolution uri = .ok key → resolution key.uri = .ok key

namespace KeyCache

/-- What a cache holds is what URIs resolve to. -/
structure Faithful (resolution : KeyUri → Except ε KeyMaterial) (cache : KeyCache) : Prop where
  key_eq : ∀ uri key, cache.keys.peek? uri = some key → resolution uri = .ok key
  alias_eq : ∀ uri held, cache.aliases.peek? uri = some held →
    ∃ key, resolution uri = .ok key ∧ key.uri = held

theorem Faithful.ofCapacity (capacity : Nat) : Faithful resolution (ofCapacity capacity) where
  key_eq uri key found := by cases found
  alias_eq uri held found := by cases found

/-- What a lookup finds is what the URI resolves to, also when it goes through an alias. -/
theorem Faithful.resolution_eq {cache : KeyCache} (faithful : cache.Faithful resolution)
    (consistent : Consistent resolution) {uri : KeyUri} {key : KeyMaterial}
    (found : (cache.get? uri).1 = some key) : resolution uri = .ok key := by
  have held : resolution (cache.resolve uri) = .ok key := faithful.key_eq _ _ found
  unfold resolve canonical? at held
  cases aliased : cache.aliases.peek? uri with
  | none =>
      rw [aliased] at held
      exact held
  | some other =>
      obtain ⟨resolved, here, named⟩ := faithful.alias_eq uri other aliased
      have there : resolution other = .ok resolved := by
        rw [← named]
        exact consistent uri resolved here
      rw [aliased, Option.getD_some, there] at held
      rw [here, held]

theorem Faithful.get? {cache : KeyCache} (faithful : cache.Faithful resolution) (uri : KeyUri) :
    (cache.get? uri).2.Faithful resolution where
  key_eq other key found := by
    rw [KeyCache.get?, Recency.peek?_touch] at found
    exact faithful.key_eq other key found
  alias_eq other held found := by
    rw [KeyCache.get?, Recency.peek?_touch] at found
    exact faithful.alias_eq other held found

/-- Learning a key that was just resolved keeps a cache faithful, whatever is dropped for it. -/
theorem Faithful.insert {cache : KeyCache} (faithful : cache.Faithful resolution)
    (consistent : Consistent resolution) {uri : KeyUri} {key : KeyMaterial}
    (resolved : resolution uri = .ok key) : (cache.insert uri key).Faithful resolution where
  key_eq other found there := by
    rcases Recency.peek?_of_put there with ⟨rfl, rfl⟩ | before
    · exact consistent uri found resolved
    · exact faithful.key_eq other found before
  alias_eq other held there := by
    unfold KeyCache.insert at there
    split at there
    · exact faithful.alias_eq other held there
    · rcases Recency.peek?_of_put there with ⟨rfl, rfl⟩ | before
      · exact ⟨key, resolved, rfl⟩
      · exact faithful.alias_eq other held before

theorem Faithful.evict {cache : KeyCache} (faithful : cache.Faithful resolution) (uri : KeyUri) :
    (cache.evict uri).Faithful resolution where
  key_eq other key found := by
    rw [KeyCache.evict, Recency.peek?_erase] at found
    split at found
    · cases found
    · exact faithful.key_eq other key found
  alias_eq other held found := by
    rw [KeyCache.evict, Recency.peek?_erase] at found
    split at found
    · cases found
    · exact faithful.alias_eq other held found

theorem Faithful.clear (cache : KeyCache) : cache.clear.Faithful resolution where
  key_eq uri key found := by cases found
  alias_eq uri held found := by cases found

end KeyCache

end FieldCrypt
