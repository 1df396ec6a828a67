import FieldCrypt.Proofs.Key.Recall
import FieldCrypt.Proofs.Store.Ranking
import Mathlib.Data.List.Induction

/-!
# What is found is the latest

Whatever was done to a cache, neither of its lists has outgrown its limit, and a key that a lookup
finds is the one that was put in last under its own URI. No alias leads to an older one, because an
insertion replaces what was held under the URI of its key, and what was evicted or cleared is held
no more.
-/

namespace FieldCrypt.KeyCache

variable {cache : KeyCache} {capacity : Nat}

/-- What some operations make of an empty cache. -/
def after (capacity : Nat) (operations : List Operation) : KeyCache :=
  operations.foldl perform (ofCapacity capacity)

theorem after_append (capacity : Nat) (operations : List Operation) (operation : Operation) :
    after capacity (operations ++ [operation]) =
      (after capacity operations).perform operation := by
  rw [after, List.foldl_append]
  rfl

theorem proper_after (capacity : Nat) (operations : List Operation) :
    (after capacity operations).Proper :=
  Reachable.proper ⟨capacity, operations, rfl⟩

/-- Both lists have this capacity as their limit, and keep to it. -/
structure Bounded (capacity : Nat) (cache : KeyCache) : Prop where
  keys : cache.keys.Tidy
  aliases : cache.aliases.Tidy
  keyLimit : cache.keys.limit = max capacity 1
  aliasLimit : cache.aliases.limit = max capacity 1

theorem Bounded.ofCapacity (capacity : Nat) : (ofCapacity capacity).Bounded capacity where
  keys := Recency.tidy_of_entries_eq_nil rfl
  aliases := Recency.tidy_of_entries_eq_nil rfl
  keyLimit := rfl
  aliasLimit := rfl

theorem Bounded.get? (bounded : cache.Bounded capacity) (uri : KeyUri) :
    (cache.get? uri).2.Bounded capacity where
  keys := bounded.keys.touch _
  aliases := bounded.aliases.touch uri
  keyLimit := (Recency.limit_touch _ _).trans bounded.keyLimit
  aliasLimit := (Recency.limit_touch _ _).trans bounded.aliasLimit

theorem Bounded.insert (bounded : cache.Bounded capacity) (requested : KeyUri) (key : KeyMaterial) :
    (cache.insert requested key).Bounded capacity where
  keys := bounded.keys.put key.uri key
  aliases := by
    unfold KeyCache.insert
    split
    · exact bounded.aliases
    · exact bounded.aliases.put requested key.uri
  keyLimit := bounded.keyLimit
  aliasLimit := by
    unfold KeyCache.insert
    split <;> exact bounded.aliasLimit

theorem Bounded.perform (bounded : cache.Bounded capacity) (operation : Operation) :
    (cache.perform operation).Bounded capacity := by
  cases operation with
  | get uri => exact bounded.get? uri
  | insert requested key => exact bounded.insert requested key
  | evict uri =>
      exact ⟨bounded.keys.erase _, bounded.aliases.erase uri, bounded.keyLimit,
        bounded.aliasLimit⟩
  | clear =>
      exact ⟨Recency.tidy_of_entries_eq_nil rfl, Recency.tidy_of_entries_eq_nil rfl,
        bounded.keyLimit, bounded.aliasLimit⟩

theorem bounded_after (capacity : Nat) (operations : List Operation) :
    (after capacity operations).Bounded capacity := by
  induction operations using List.reverseRecOn with
  | nil => exact .ofCapacity capacity
  | append_singleton operations operation ih =>
      rw [after_append]
      exact ih.perform operation

/-- The operation puts in a key with this URI, or drops whatever the cache holds under it. -/
def Operation.Renews (cache : KeyCache) (own : KeyUri) : Operation → Prop
  | .get _ => False
  | .insert _ key => key.uri = own
  | .evict uri => cache.resolve uri = own
  | .clear => True

/-- One of the operations put this key in, and no later one has put in another under the same URI or
dropped what was held under it. -/
def Latest (capacity : Nat) (operations : List Operation) (key : KeyMaterial) : Prop :=
  ∃ earlier requested later, operations = earlier ++ .insert requested key :: later ∧
    ∀ between operation rest, later = between ++ operation :: rest →
      ¬ operation.Renews (after capacity (earlier ++ .insert requested key :: between)) key.uri

theorem latest_insert (capacity : Nat) (operations : List Operation) (requested : KeyUri)
    (key : KeyMaterial) : Latest capacity (operations ++ [.insert requested key]) key := by
  refine ⟨operations, requested, [], rfl, fun between operation rest none => ?_⟩
  simp at none

/-- A key stays the latest through an operation that has nothing to do with its URI. -/
theorem Latest.append {operations : List Operation} {key : KeyMaterial}
    (latest : Latest capacity operations key) {operation : Operation}
    (other : ¬ operation.Renews (after capacity operations) key.uri) :
    Latest capacity (operations ++ [operation]) key := by
  obtain ⟨earlier, requested, later, rfl, since⟩ := latest
  refine ⟨earlier, requested, later ++ [operation], by simp, ?_⟩
  intro between next rest split
  rcases List.eq_nil_or_concat rest with rfl | ⟨rest, last, rfl⟩
  · obtain ⟨rfl, same⟩ := List.append_inj' split rfl
    obtain rfl := List.cons.inj same |>.1
    exact other
  · rw [List.concat_eq_append, ← List.cons_append, ← List.append_assoc] at split
    obtain ⟨rfl, -⟩ := List.append_inj' split rfl
    exact since between next rest rfl

/-- Every key that is held is the latest of its URI. -/
theorem latest_of_peek? {operations : List Operation} {uri : KeyUri} {key : KeyMaterial}
    (held : (after capacity operations).keys.peek? uri = some key) :
    Latest capacity operations key := by
  induction operations using List.reverseRecOn generalizing uri with
  | nil => cases held
  | append_singleton operations operation ih =>
      have own := (proper_after capacity _).uri_eq uri key held
      rw [after_append] at held
      cases operation with
      | get other =>
          rw [perform, KeyCache.get?, Recency.peek?_touch] at held
          exact (ih held).append id
      | insert requested new =>
          by_cases same : new.uri = uri
          · subst same
            have found := peek?_insert_self (proper_after capacity operations) requested new
            obtain rfl := Option.some.inj (found.symm.trans held)
            exact latest_insert capacity operations requested new
          · rcases Recency.peek?_of_put held with ⟨rfl, -⟩ | before
            · exact (same rfl).elim
            · exact (ih before).append fun renews => same (renews.trans own)
      | evict other =>
          rw [perform, evict, Recency.peek?_erase] at held
          split at held
          · cases held
          · rename_i differ
            exact (ih held).append fun renews => differ (renews.trans own)
      | clear => cases held

/-- Whatever operations a cache has been through, it holds at most as many keys as its capacity,
which is at least one, and at most as many aliases. Every key is held under its own URI, and no URI
is an alias of itself. What a lookup finds is a key with the URI that is recorded for the one asked
for, or else with that one itself. It is what was put in last under its URI, and since then it was
neither cleared nor evicted by any URI that led to it at that time. -/
theorem get?_latest (capacity : Nat) (operations : List Operation) :
    (after capacity operations).keys.size ≤ max capacity 1 ∧
    (after capacity operations).aliases.size ≤ max capacity 1 ∧
    (∀ uri key, (uri, key) ∈ (after capacity operations).keys.entries → key.uri = uri) ∧
    (∀ uri held, (uri, held) ∈ (after capacity operations).aliases.entries → held ≠ uri) ∧
    ∀ uri key, ((after capacity operations).get? uri).1 = some key →
      key.uri = ((after capacity operations).canonical? uri).getD uri ∧
      Latest capacity operations key := by
  have bounded := bounded_after capacity operations
  have proper := proper_after capacity operations
  refine ⟨?_, ?_, ?_, ?_, ?_⟩
  · rw [← bounded.keyLimit]
    exact bounded.keys.size_le
  · rw [← bounded.aliasLimit]
    exact bounded.aliases.size_le
  · intro uri key there
    exact proper.uri_eq uri key (bounded.keys.peek?_eq_some_iff.mpr there)
  · intro uri held there
    exact proper.canonical?_ne uri held (bounded.aliases.peek?_eq_some_iff.mpr there)
  · intro uri key found
    exact ⟨proper.uri_eq _ key found, latest_of_peek? found⟩

/-- A key that was asked for by another name is put in anew, and the alias leads to the new one. -/
theorem get?_latest_renewed :
    let newer : KeyMaterial := ⟨⟨"b"⟩, .int 2⟩
    let operations : List Operation :=
      [.insert ⟨"a"⟩ ⟨⟨"b"⟩, .int 1⟩, .insert ⟨"b"⟩ newer, .evict ⟨"c"⟩]
    (after 1 operations).keys.size ≤ 1 ∧
      ((after 1 operations).get? ⟨"a"⟩).1 = some newer ∧ Latest 1 operations newer := by
  intro newer operations
  have found : ((after 1 operations).get? ⟨"a"⟩).1 = some newer := rfl
  obtain ⟨few, -, -, -, latest⟩ := get?_latest 1 operations
  exact ⟨few, found, (latest ⟨"a"⟩ newer found).2⟩

end FieldCrypt.KeyCache
