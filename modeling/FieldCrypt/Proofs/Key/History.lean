import FieldCrypt.Key.Cache

/-!
# What a cache has been through

A cache comes about from an empty one by any number of operations. Whatever these are, there is room
for one entry at least in either list, every key is held under its own URI, and no URI is an alias
of itself. Nothing more than that is certain: a URI may have an alias and be that of a held key at
the same time.
-/

namespace FieldCrypt

/-- Using an entry leaves room for as many. -/
theorem Recency.limit_touch {κ α : Type} [DecidableEq κ] (list : Recency κ α) (key : κ) :
    (list.touch key).limit = list.limit := by
  unfold touch
  split <;> rfl

namespace KeyCache

/-- What is done to a cache. -/
inductive Operation where
  | get (uri : KeyUri)
  | insert (requested : KeyUri) (key : KeyMaterial)
  | evict (uri : KeyUri)
  | clear

/-- The cache after an operation. -/
def perform (cache : KeyCache) : Operation → KeyCache
  | .get uri => (cache.get? uri).2
  | .insert requested key => cache.insert requested key
  | .evict uri => cache.evict uri
  | .clear => cache.clear

/-- The cache is what some operations have made of an empty one. -/
def Reachable (cache : KeyCache) : Prop :=
  ∃ (capacity : Nat) (operations : List Operation),
    cache = operations.foldl perform (ofCapacity capacity)

/-- What is certain of every cache. -/
structure Proper (cache : KeyCache) : Prop where
  keyRoom : 0 < cache.keys.limit
  aliasRoom : 0 < cache.aliases.limit
  uri_eq : ∀ uri key, cache.keys.peek? uri = some key → key.uri = uri
  canonical?_ne : ∀ uri held, cache.canonical? uri = some held → held ≠ uri

theorem Proper.ofCapacity (capacity : Nat) : (ofCapacity capacity).Proper where
  keyRoom := Nat.lt_of_lt_of_le Nat.one_pos (Nat.le_max_right capacity 1)
  aliasRoom := Nat.lt_of_lt_of_le Nat.one_pos (Nat.le_max_right capacity 1)
  uri_eq uri key found := by cases found
  canonical?_ne uri held found := by cases found

/-- An alias that is there after an insertion was put in by it, or was there before. -/
theorem canonical?_of_insert {cache : KeyCache} {requested uri held : KeyUri} {key : KeyMaterial}
    (found : (cache.insert requested key).canonical? uri = some held) :
    (requested ≠ key.uri ∧ uri = requested ∧ held = key.uri) ∨
      cache.canonical? uri = some held := by
  simp only [canonical?, insert] at found
  split at found
  · exact .inr found
  · rename_i differ
    rcases Recency.peek?_of_put found with ⟨rfl, rfl⟩ | before
    · exact .inl ⟨differ, rfl, rfl⟩
    · exact .inr before

variable {cache : KeyCache}

theorem Proper.get? (proper : cache.Proper) (uri : KeyUri) : (cache.get? uri).2.Proper where
  keyRoom := by
    rw [KeyCache.get?, Recency.limit_touch]
    exact proper.keyRoom
  aliasRoom := by
    rw [KeyCache.get?, Recency.limit_touch]
    exact proper.aliasRoom
  uri_eq other key found := by
    rw [KeyCache.get?, Recency.peek?_touch] at found
    exact proper.uri_eq other key found
  canonical?_ne other held found := by
    rw [canonical?, KeyCache.get?, Recency.peek?_touch] at found
    exact proper.canonical?_ne other held found

theorem Proper.insert (proper : cache.Proper) (requested : KeyUri) (key : KeyMaterial) :
    (cache.insert requested key).Proper where
  keyRoom := proper.keyRoom
  aliasRoom := by
    simp only [KeyCache.insert]
    split <;> exact proper.aliasRoom
  uri_eq uri found there := by
    rcases Recency.peek?_of_put there with ⟨rfl, rfl⟩ | before
    · rfl
    · exact proper.uri_eq uri found before
  canonical?_ne uri held found := by
    rcases canonical?_of_insert found with ⟨differ, rfl, rfl⟩ | before
    · exact differ.symm
    · exact proper.canonical?_ne uri held before

theorem Proper.evict (proper : cache.Proper) (uri : KeyUri) : (cache.evict uri).Proper where
  keyRoom := proper.keyRoom
  aliasRoom := proper.aliasRoom
  uri_eq other key found := by
    rw [KeyCache.evict, Recency.peek?_erase] at found
    split at found
    · cases found
    · exact proper.uri_eq other key found
  canonical?_ne other held found := by
    rw [canonical?, KeyCache.evict, Recency.peek?_erase] at found
    split at found
    · cases found
    · exact proper.canonical?_ne other held found

theorem Proper.clear (proper : cache.Proper) : cache.clear.Proper where
  keyRoom := proper.keyRoom
  aliasRoom := proper.aliasRoom
  uri_eq uri key found := by cases found
  canonical?_ne uri held found := by cases found

theorem Proper.perform (proper : cache.Proper) (operation : Operation) :
    (cache.perform operation).Proper := by
  cases operation with
  | get uri => exact proper.get? uri
  | insert requested key => exact proper.insert requested key
  | evict uri => exact proper.evict uri
  | clear => exact proper.clear

theorem Reachable.proper (reachable : cache.Reachable) : cache.Proper := by
  obtain ⟨capacity, operations, rfl⟩ := reachable
  have run (cache : KeyCache) (proper : cache.Proper) :
      (operations.foldl KeyCache.perform cache).Proper := by
    induction operations generalizing cache with
    | nil => exact proper
    | cons operation rest ih => exact ih _ (proper.perform operation)
  exact run _ (.ofCapacity capacity)

end KeyCache

end FieldCrypt
