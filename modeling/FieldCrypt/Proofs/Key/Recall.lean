import FieldCrypt.Proofs.Key.History

/-!
# What a lookup finds after an insertion and after an eviction

A key that was just put in is found under the URI that it was asked for by another name. Under its
own URI it is found unless that URI still has an alias from before. An eviction drops the key that
the URI stood for and the URI's alias; what can be left are a key that the URI itself is the own URI
of, and an alias of the dropped key's URI.
-/

namespace FieldCrypt.KeyCache

variable {cache : KeyCache} {uri : KeyUri}

theorem get?_of_canonical? {held : KeyUri} (aliased : cache.canonical? uri = some held) :
    (cache.get? uri).1 = cache.keys.peek? held := by
  rw [get?, resolve, aliased]
  rfl

theorem get?_of_no_alias (plain : cache.canonical? uri = none) :
    (cache.get? uri).1 = cache.keys.peek? uri := by
  rw [get?, resolve, plain]
  rfl

theorem peek?_insert_self (proper : cache.Proper) (requested : KeyUri) (key : KeyMaterial) :
    (cache.insert requested key).keys.peek? key.uri = some key :=
  Recency.peek?_put_self _ _ _ proper.keyRoom

theorem canonical?_insert_self (proper : cache.Proper) {requested : KeyUri} {key : KeyMaterial}
    (differ : requested ≠ key.uri) :
    (cache.insert requested key).canonical? requested = some key.uri := by
  rw [canonical?, insert, if_neg differ]
  exact Recency.peek?_put_self _ _ _ proper.aliasRoom

/-- After an insertion the key is found under the URI it was asked for by, if that is another one
than its own. Under its own URI it is found exactly when no alias of that URI is left. If one is,
what is found is what was found before. -/
theorem get?_insert_iff (reachable : cache.Reachable) (requested : KeyUri) (key : KeyMaterial) :
    (requested ≠ key.uri → ((cache.insert requested key).get? requested).1 = some key) ∧
    (((cache.insert requested key).get? key.uri).1 = some key ↔
      (cache.insert requested key).canonical? key.uri = none) ∧
    ∀ found, ((cache.insert requested key).get? key.uri).1 = some found →
      found = key ∨ (cache.get? key.uri).1 = some found := by
  have proper := reachable.proper
  have there := peek?_insert_self proper requested key
  refine ⟨?_, ⟨?_, ?_⟩, ?_⟩
  · intro differ
    rw [get?_of_canonical? (canonical?_insert_self proper differ)]
    exact there
  · intro found
    cases aliased : (cache.insert requested key).canonical? key.uri with
    | none => rfl
    | some held =>
        rw [get?_of_canonical? aliased] at found
        have own := (proper.insert requested key).uri_eq held key found
        exact ((proper.insert requested key).canonical?_ne _ _ aliased own.symm).elim
  · intro plain
    rw [get?_of_no_alias plain]
    exact there
  · intro found lookup
    cases aliased : (cache.insert requested key).canonical? key.uri with
    | none =>
        rw [get?_of_no_alias aliased, there] at lookup
        exact .inl (Option.some.inj lookup).symm
    | some held =>
        rw [get?_of_canonical? aliased] at lookup
        rcases canonical?_of_insert aliased with ⟨differ, same, -⟩ | before
        · exact (differ same.symm).elim
        · rcases Recency.peek?_of_put lookup with ⟨-, rfl⟩ | held
          · exact .inl rfl
          · right
            rw [get?_of_canonical? before]
            exact held

/-- After a key was asked for by another name, a second one that is asked for by the first one's name
is found under both its names. -/
theorem get?_insert_iff_redirected :
    let cache := (ofCapacity 4).insert ⟨"a"⟩ ⟨⟨"b"⟩, .int 1⟩
    let key : KeyMaterial := ⟨⟨"c"⟩, .int 2⟩
    cache.Reachable ∧ ((cache.insert ⟨"b"⟩ key).get? ⟨"b"⟩).1 = some key ∧
      ((cache.insert ⟨"b"⟩ key).get? ⟨"c"⟩).1 = some key := by
  intro cache key
  have reachable : cache.Reachable := ⟨4, [.insert ⟨"a"⟩ ⟨⟨"b"⟩, .int 1⟩], rfl⟩
  have redirected : (⟨"b"⟩ : KeyUri) ≠ key.uri := by decide
  have found := get?_insert_iff reachable ⟨"b"⟩ key
  exact ⟨reachable, found.1 redirected, found.2.1.mpr rfl⟩

/-- A key that was asked for by another name earlier, and then by its own, is not found: the alias of
its URI still leads to the key that was there before. -/
theorem not_found_after_insert :
    ¬ ∀ cache : KeyCache, cache.Reachable → ∀ requested key,
      ((cache.insert requested key).get? requested).1 = some key ∧
        ((cache.insert requested key).get? key.uri).1 = some key := by
  intro found
  let older : KeyMaterial := ⟨⟨"b"⟩, .int 1⟩
  let newer : KeyMaterial := ⟨⟨"a"⟩, .int 2⟩
  let cache := (ofCapacity 4).insert ⟨"a"⟩ older
  have reachable : cache.Reachable := ⟨4, [.insert ⟨"a"⟩ older], rfl⟩
  have lookup : ((cache.insert ⟨"a"⟩ newer).get? ⟨"a"⟩).1 = some older := rfl
  have same := lookup.symm.trans (found cache reachable ⟨"a"⟩ newer).1
  have uris : (⟨"b"⟩ : KeyUri) = ⟨"a"⟩ := congrArg KeyMaterial.uri (Option.some.inj same)
  exact absurd uris (by decide)

theorem get?_evict_self (cache : KeyCache) (uri : KeyUri) :
    ((cache.evict uri).get? uri).1 =
      if cache.resolve uri = uri then none else cache.keys.peek? uri := by
  have plain : (cache.evict uri).canonical? uri = none := by
    rw [canonical?, evict, Recency.peek?_erase, if_pos rfl]
  rw [get?_of_no_alias plain, evict, Recency.peek?_erase]

/-- Under every other URI nothing is found if it stood for the same key, and otherwise what was found
before. -/
theorem get?_evict_of_ne (cache : KeyCache) {uri other : KeyUri} (differ : uri ≠ other) :
    ((cache.evict uri).get? other).1 =
      if cache.resolve uri = cache.resolve other then none else (cache.get? other).1 := by
  have kept : (cache.evict uri).resolve other = cache.resolve other := by
    rw [resolve, resolve, canonical?, canonical?, evict, Recency.peek?_erase, if_neg differ]
  simp only [get?, kept]
  rw [evict, Recency.peek?_erase]

/-- After an eviction the list of keys is without the key that the URI stood for. Under the URI itself
nothing is found exactly when it had no alias or was not the own URI of a held key. Under the URI of
the dropped key nothing is found exactly when the two are the same, or it has no alias, or its alias
leads to no key. -/
theorem get?_evict_eq_none_iff (cache : KeyCache) (uri : KeyUri) :
    (cache.evict uri).keys.peek? (cache.resolve uri) = none ∧
    (((cache.evict uri).get? uri).1 = none ↔
      cache.resolve uri = uri ∨ cache.keys.peek? uri = none) ∧
    (((cache.evict uri).get? (cache.resolve uri)).1 = none ↔
      cache.resolve uri = uri ∨ cache.resolve (cache.resolve uri) = cache.resolve uri ∨
        (cache.get? (cache.resolve uri)).1 = none) := by
  refine ⟨?_, ?_, ?_⟩
  · rw [evict, Recency.peek?_erase, if_pos rfl]
  · rw [get?_evict_self]
    split
    · rename_i own
      exact ⟨fun _ => .inl own, fun _ => rfl⟩
    · rename_i differ
      exact ⟨.inr, fun either => either.resolve_left differ⟩
  · by_cases own : cache.resolve uri = uri
    · rw [own, get?_evict_self, if_pos own]
      exact ⟨fun _ => .inl rfl, fun _ => rfl⟩
    · rw [get?_evict_of_ne cache (Ne.symm own)]
      split
      · rename_i last
        exact ⟨fun _ => .inr (.inl last.symm), fun _ => rfl⟩
      · rename_i chained
        constructor
        · exact fun nothing => .inr (.inr nothing)
        · rintro (same | last | nothing)
          · exact (own same).elim
          · exact (chained last.symm).elim
          · exact nothing

/-- A URI that had a key of its own and was then given an alias still leads to its own key after it
was evicted. -/
theorem found_after_evict :
    ¬ ∀ cache : KeyCache, cache.Reachable → ∀ uri,
      ((cache.evict uri).get? uri).1 = none ∧
        ((cache.evict uri).get? (cache.resolve uri)).1 = none := by
  intro dropped
  let older : KeyMaterial := ⟨⟨"a"⟩, .int 1⟩
  let newer : KeyMaterial := ⟨⟨"b"⟩, .int 2⟩
  let cache := ((ofCapacity 4).insert ⟨"a"⟩ older).insert ⟨"a"⟩ newer
  have reachable : cache.Reachable := ⟨4, [.insert ⟨"a"⟩ older, .insert ⟨"a"⟩ newer], rfl⟩
  have lookup : ((cache.evict ⟨"a"⟩).get? ⟨"a"⟩).1 = some older := rfl
  have nothing := lookup.symm.trans (dropped cache reachable ⟨"a"⟩).1
  cases nothing

end FieldCrypt.KeyCache
