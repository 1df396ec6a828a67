import FieldCrypt.Proofs.Key.Latest
import FieldCrypt.Proofs.Store.Order

/-!
# An eviction spares all other entries

What an eviction takes out is the entry of one key and that of one alias. Under every other URI the
same is found as before, unless the URI stands for the evicted key, and in both lists the entries that
are left are in the same order. So they are dropped in that order too: of two entries the one that was
used less recently, and under the same operations the list without the evicted entry has at any time
the entries of the list with it, and at most the next one to be dropped besides.
-/

namespace FieldCrypt.KeyCache

open Recency (Change Behind)

variable {α : Type} {cache rest : KeyCache} {capacity : Nat} {first second : KeyUri}

/-- The operation meets the same alias in both caches, and what it finds in the second one it finds in
the first as well. -/
def Alike (cache rest : KeyCache) : Operation → Prop
  | .get uri => rest.canonical? uri = cache.canonical? uri ∧
      ((rest.get? uri).1.isSome → (cache.get? uri).1.isSome)
  | .evict uri => rest.canonical? uri = cache.canonical? uri
  | .insert .. | .clear => True

/-- All of some operations are alike when they are done to both caches. -/
def AlikeThroughout (cache rest : KeyCache) : List Operation → Prop
  | [] => True
  | operation :: later =>
    Alike cache rest operation ∧
      AlikeThroughout (cache.perform operation) (rest.perform operation) later

/-- The condition holds of each operation and the cache that it is done to. -/
def Throughout (condition : KeyCache → Operation → Prop) (cache : KeyCache) :
    List Operation → Prop
  | [] => True
  | operation :: later =>
    condition cache operation ∧ Throughout condition (cache.perform operation) later

theorem resolve_congr {uri : KeyUri} (same : rest.canonical? uri = cache.canonical? uri) :
    rest.resolve uri = cache.resolve uri := by
  rw [resolve, same, resolve]

/-- One of the lists of a cache, what each operation does to it, and which entry an eviction takes
out of it. -/
structure Listing (α : Type) where
  list : KeyCache → Recency KeyUri α
  change : KeyCache → Operation → Change KeyUri α
  evicted : KeyCache → KeyUri → KeyUri
  list_perform : ∀ cache operation,
    list (cache.perform operation) = (change cache operation).apply (list cache)
  change_evict : ∀ cache uri, change cache (.evict uri) = .erase (evicted cache uri)
  tidy : ∀ {capacity cache}, Bounded capacity cache → (list cache).Tidy
  limit_eq : ∀ {capacity cache}, Bounded capacity cache → (list cache).limit = max capacity 1
  change_eq : ∀ {cache rest operation}, Alike cache rest operation →
    change rest operation = change cache operation
  touched : ∀ {cache rest operation key}, Alike cache rest operation →
    change cache operation = .touch key → key ∈ (list rest).order → key ∈ (list cache).order

/-- The keys, each under its own URI. -/
def keyListing : Listing KeyMaterial where
  list := keys
  change cache
    | .get uri => .touch (cache.resolve uri)
    | .insert _ key => .put key.uri key
    | .evict uri => .erase (cache.resolve uri)
    | .clear => .clear
  evicted := resolve
  list_perform _ operation := by cases operation <;> rfl
  change_evict _ _ := rfl
  tidy := Bounded.keys
  limit_eq := Bounded.keyLimit
  change_eq {_ _ operation} alike := by
    cases operation with
    | get uri => exact congrArg Change.touch (resolve_congr alike.1)
    | evict uri => exact congrArg Change.erase (resolve_congr alike)
    | insert | clear => rfl
  touched {_ _ operation _} alike touches there := by
    cases operation with
    | get uri =>
        cases touches
        rw [Recency.mem_order_iff] at there ⊢
        apply alike.2
        rwa [← resolve_congr alike.1] at there
    | insert | evict | clear => cases touches

/-- The aliases. -/
def aliasListing : Listing KeyUri where
  list := aliases
  change _
    | .get uri => .touch uri
    | .insert requested key => if requested = key.uri then .keep else .put requested key.uri
    | .evict uri => .erase uri
    | .clear => .clear
  evicted _ uri := uri
  list_perform _ operation := by
    cases operation with
    | insert requested key =>
        simp only [perform, insert]
        split <;> rfl
    | get | evict | clear => rfl
  change_evict _ _ := rfl
  tidy := Bounded.aliases
  limit_eq := Bounded.aliasLimit
  change_eq _ := rfl
  touched {_ _ operation _} alike touches there := by
    cases operation with
    | get uri =>
        cases touches
        rw [Recency.mem_order_iff] at there ⊢
        exact (congrArg Option.isSome alike.1).symm.trans there
    | insert requested key =>
        simp only at touches
        split at touches <;> cases touches
    | evict | clear => cases touches

namespace Listing

variable {listing : Listing α}

theorem list_evict (cache : KeyCache) (uri : KeyUri) :
    listing.list (cache.evict uri) = (listing.list cache).erase (listing.evicted cache uri) := by
  have evicts := listing.list_perform cache (.evict uri)
  rw [listing.change_evict] at evicts
  exact evicts

/-- The operation neither uses the second entry nor takes out the first one. -/
def Passes (listing : Listing α) (first second : KeyUri) (cache : KeyCache)
    (operation : Operation) : Prop :=
  (listing.change cache operation).used? ≠ some second ∧
    (listing.change cache operation).erased? ≠ some first

theorem outlasts_foldl (bounded : cache.Bounded capacity)
    (outlasts : (listing.list cache).Outlasts first second) {later : List Operation}
    (passes : Throughout (listing.Passes first second) cache later) :
    (listing.list (later.foldl perform cache)).Outlasts first second := by
  induction later generalizing cache with
  | nil => exact outlasts
  | cons operation later ih =>
      obtain ⟨⟨unused, kept⟩, passes⟩ := passes
      apply ih (bounded.perform operation) _ passes
      rw [listing.list_perform]
      exact outlasts.apply (listing.tidy bounded) unused kept

theorem behind_foldl {missing : KeyUri} (bounded : cache.Bounded capacity)
    (restBounded : rest.Bounded capacity)
    (behind : Behind missing (listing.list cache).order (listing.list rest).order)
    {later : List Operation} (alike : AlikeThroughout cache rest later) :
    Behind missing (listing.list (later.foldl perform cache)).order
      (listing.list (later.foldl perform rest)).order := by
  induction later generalizing cache rest with
  | nil => exact behind
  | cons operation later ih =>
      obtain ⟨same, alike⟩ := alike
      apply ih (bounded.perform operation) (restBounded.perform operation) _ alike
      have limits := (listing.limit_eq restBounded).trans (listing.limit_eq bounded).symm
      rw [listing.list_perform, listing.list_perform, listing.change_eq same]
      exact behind.apply (listing.tidy bounded) limits fun key => listing.touched same

/-- What an eviction leaves of a list: every other key stands for the same and the order is the same.
With the eviction and without it, of two entries in this order the second is dropped first as long as
it is not used again and the first is not taken out. As long as the operations after the eviction are
alike with it and without it, so are the keys, but for the evicted one and the next to be dropped. -/
structure Spares (listing : Listing α) (cache : KeyCache) (uri : KeyUri) : Prop where
  peek?_eq : ∀ key, key ≠ listing.evicted cache uri →
    (listing.list (cache.evict uri)).peek? key = (listing.list cache).peek? key
  newer_iff : ∀ first second,
    first ≠ listing.evicted cache uri → second ≠ listing.evicted cache uri →
      ((listing.list (cache.evict uri)).Newer first second ↔
        (listing.list cache).Newer first second)
  outlasts : ∀ first second,
    first ≠ listing.evicted cache uri → second ≠ listing.evicted cache uri →
      (listing.list cache).Newer first second →
        ∀ start, start = cache ∨ start = cache.evict uri →
          ∀ later, Throughout (listing.Passes first second) start later →
            (listing.list (later.foldl perform start)).Outlasts first second
  behind : ∀ later, AlikeThroughout cache (cache.evict uri) later →
    Behind (listing.evicted cache uri) (listing.list (later.foldl perform cache)).order
      (listing.list (later.foldl perform (cache.evict uri))).order

theorem spares (listing : Listing α) (bounded : cache.Bounded capacity) (uri : KeyUri) :
    listing.Spares cache uri := by
  have newer (first second : KeyUri) (firstOther : first ≠ listing.evicted cache uri)
      (secondOther : second ≠ listing.evicted cache uri) :
      (listing.list (cache.evict uri)).Newer first second ↔
        (listing.list cache).Newer first second := by
    rw [list_evict]
    exact Recency.newer_erase firstOther secondOther
  refine ⟨?_, newer, ?_, ?_⟩
  · intro key differ
    rw [list_evict, Recency.peek?_erase, if_neg differ.symm]
  · rintro first second firstOther secondOther before start (rfl | rfl) later passes
    · exact outlasts_foldl bounded (fun _ => before) passes
    · have after := (newer first second firstOther secondOther).mpr before
      exact outlasts_foldl (bounded.perform (.evict uri)) (fun _ => after) passes
  · intro later alike
    apply behind_foldl bounded (bounded.perform (.evict uri)) _ alike
    rw [listing.list_perform, listing.change_evict]
    exact Recency.behind_erase _ _

end Listing

/-- After an eviction every other URI leads to no key if it stood for the evicted one, and otherwise
to the key that it led to before. It has the alias that it had, and both lists are spared but for the
evicted entry. -/
theorem evict_spares (reachable : cache.Reachable) (evicted : KeyUri) :
    (∀ uri, uri ≠ evicted →
      ((cache.evict evicted).get? uri).1 =
          (if cache.resolve uri = cache.resolve evicted then none else (cache.get? uri).1) ∧
        (cache.evict evicted).canonical? uri = cache.canonical? uri) ∧
    keyListing.Spares cache evicted ∧ aliasListing.Spares cache evicted := by
  obtain ⟨capacity, operations, rfl⟩ := reachable
  have bounded := bounded_after capacity operations
  have aliases := aliasListing.spares bounded evicted
  refine ⟨fun uri differ => ⟨?_, aliases.peek?_eq uri differ⟩, keyListing.spares bounded evicted,
    aliases⟩
  rw [get?_evict_of_ne _ differ.symm]
  exact if_congr eq_comm rfl rfl

/-- Of two keys that are left when a third one is evicted, through one of its two aliases, the older
one is dropped when the list is full again. -/
theorem evict_spares_shared_key :
    let older : KeyMaterial := ⟨⟨"x"⟩, .int 1⟩
    let newer : KeyMaterial := ⟨⟨"y"⟩, .int 2⟩
    let moved : KeyMaterial := ⟨⟨"b"⟩, .int 3⟩
    let cache := after 3 [.insert ⟨"x"⟩ older, .insert ⟨"a"⟩ moved, .insert ⟨"c"⟩ moved,
      .insert ⟨"y"⟩ newer]
    let later : List Operation := [.insert ⟨"v"⟩ ⟨⟨"v"⟩, .int 4⟩, .insert ⟨"w"⟩ ⟨⟨"w"⟩, .int 5⟩]
    let last := later.foldl perform (cache.evict ⟨"a"⟩)
    cache.Reachable ∧ ((cache.evict ⟨"a"⟩).get? ⟨"c"⟩).1 = none ∧
      ((cache.evict ⟨"a"⟩).get? ⟨"y"⟩).1 = some newer ∧
      (cache.evict ⟨"a"⟩).keys.Newer ⟨"y"⟩ ⟨"x"⟩ ∧ last.keys.Outlasts ⟨"y"⟩ ⟨"x"⟩ ∧
      last.keys.order = [⟨"w"⟩, ⟨"v"⟩, ⟨"y"⟩] ∧
      Behind ⟨"b"⟩ (later.foldl perform cache).keys.order last.keys.order := by
  intro older newer moved cache later last
  have reachable : cache.Reachable := ⟨3, _, rfl⟩
  obtain ⟨finds, keys, -⟩ := evict_spares reachable ⟨"a"⟩
  have before : cache.keys.Newer ⟨"y"⟩ ⟨"x"⟩ := by
    change [(⟨"y"⟩ : KeyUri), ⟨"x"⟩].Sublist [⟨"y"⟩, ⟨"b"⟩, ⟨"x"⟩]
    decide
  have newest : (⟨"y"⟩ : KeyUri) ≠ ⟨"b"⟩ := by decide
  have oldest : (⟨"x"⟩ : KeyUri) ≠ ⟨"b"⟩ := by decide
  refine ⟨reachable, ?_, ?_, ?_, ?_, rfl, ?_⟩
  · rw [(finds ⟨"c"⟩ (by decide)).1]
    rfl
  · rw [(finds ⟨"y"⟩ (by decide)).1]
    rfl
  · exact (keys.newer_iff _ _ newest oldest).mpr before
  · refine keys.outlasts _ _ newest oldest before _ (.inr rfl) later ?_
    refine ⟨⟨?_, nofun⟩, ⟨?_, nofun⟩, trivial⟩
    · simp [keyListing, Change.used?]
    · simp [keyListing, Change.used?]
  · exact keys.behind later ⟨trivial, trivial, trivial⟩

end FieldCrypt.KeyCache
