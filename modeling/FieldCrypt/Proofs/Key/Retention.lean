import FieldCrypt.Proofs.Key.Latest

/-!
# How long a key is found

A lookup that finds a key brings it to the front, and with it the alias through which it was found.
Every later lookup or insertion puts at most one entry of either list in front of them. So the key
is found again after as many of these as the cache holds keys, less one, unless one of them is
about the key or the URI itself.
-/

namespace FieldCrypt.KeyCache

variable {cache : KeyCache} {capacity : Nat} {uri : KeyUri} {key : KeyMaterial}

/-- What can be asked of a cache, if nothing is dropped on purpose. -/
inductive Call where
  | get (uri : KeyUri)
  | insert (requested : KeyUri) (key : KeyMaterial)
  | canonical (uri : KeyUri)
  | size

namespace Call

/-- The cache after a call. Asking for what a URI stands for or for the number of keys leaves it as
it is. -/
def next (cache : KeyCache) : Call → KeyCache
  | get uri => (cache.get? uri).2
  | insert requested key => cache.insert requested key
  | canonical _ | size => cache

/-- Whether the call counts as use of an entry. -/
def uses : Call → Bool
  | get _ | insert .. => true
  | canonical _ | size => false

/-- The call puts in no key that was asked for by this URI, and none with the own URI of that key. -/
def Spares (uri own : KeyUri) : Call → Prop
  | insert requested key => requested ≠ uri ∧ key.uri ≠ own
  | get _ | canonical _ | size => True

end Call

/-- The URI leads to the key, and in either list at most `ahead` entries stand in front of what it
leads through. -/
structure Retains (cache : KeyCache) (uri : KeyUri) (key : KeyMaterial) (ahead : Nat) : Prop where
  way : cache.canonical? uri = none ∧ key.uri = uri ∨
    Recency.Stands cache.aliases.entries uri key.uri ahead
  held : Recency.Stands cache.keys.entries key.uri key ahead

/-- What is retained is found. -/
theorem Retains.get?_eq {ahead : Nat} (retains : cache.Retains uri key ahead) :
    (cache.get? uri).1 = some key := by
  have held := retains.held.peek?_eq
  rcases retains.way with ⟨plain, own⟩ | stands
  · rw [get?_of_no_alias plain, ← own]
    exact held
  · rw [get?_of_canonical? stands.peek?_eq]
    exact held

/-- A key that is found is in front after it was looked up, and so is its alias. -/
theorem Proper.retains_get? (proper : cache.Proper) (found : (cache.get? uri).1 = some key) :
    (cache.get? uri).2.Retains uri key 0 := by
  have own : key.uri = cache.resolve uri := proper.uri_eq _ key found
  refine ⟨?_, ?_⟩
  · cases aliased : cache.canonical? uri with
    | none =>
        left
        constructor
        · rw [canonical?, KeyCache.get?, Recency.peek?_touch]
          exact aliased
        · rw [own, resolve, aliased]
          rfl
    | some held =>
        right
        have same : key.uri = held := by
          rw [own, resolve, aliased]
          rfl
        rw [same]
        exact Recency.stands_touch_self aliased
  · rw [own]
    exact Recency.stands_touch_self found

theorem Retains.get? {ahead : Nat} (retains : cache.Retains uri key ahead) (other : KeyUri) :
    (cache.get? other).2.Retains uri key (ahead + 1) where
  way := by
    refine retains.way.imp (fun plain => ⟨?_, plain.2⟩) fun stands => stands.touch other
    rw [canonical?, KeyCache.get?, Recency.peek?_touch]
    exact plain.1
  held := retains.held.touch _

theorem Retains.insert {ahead : Nat} (retains : cache.Retains uri key ahead)
    (bounded : cache.Bounded capacity) (room : ahead + 1 < max capacity 1) {requested : KeyUri}
    {other : KeyMaterial} (apart : requested ≠ uri) (differ : other.uri ≠ key.uri) :
    (cache.insert requested other).Retains uri key (ahead + 1) where
  way := by
    refine retains.way.imp (fun plain => ⟨?_, plain.2⟩) fun stands => ?_
    · cases aliased : (cache.insert requested other).canonical? uri with
      | none => rfl
      | some held =>
          rcases canonical?_of_insert aliased with ⟨-, same, -⟩ | before
          · exact (apart same.symm).elim
          · rw [plain.1] at before
            cases before
    · unfold KeyCache.insert
      split
      · exact stands.mono (Nat.le_succ ahead)
      · exact stands.put apart _ (bounded.aliasLimit ▸ room)
  held := retains.held.put differ _ (bounded.keyLimit ▸ room)

/-- What one call does to a key that is retained. -/
theorem Retains.next {ahead : Nat} (retains : cache.Retains uri key ahead)
    (bounded : cache.Bounded capacity) {call : Call} (spares : call.Spares uri key.uri)
    (room : call.uses = true → ahead + 1 < max capacity 1) :
    (call.next cache).Bounded capacity ∧
      (call.next cache).Retains uri key (ahead + call.uses.toNat) := by
  cases call with
  | get other => exact ⟨bounded.get? other, retains.get? other⟩
  | insert requested other =>
      exact ⟨bounded.insert requested other,
        retains.insert bounded (room rfl) spares.1 spares.2⟩
  | canonical other => exact ⟨bounded, retains⟩
  | size => exact ⟨bounded, retains⟩

/-- A key stays retained through calls as long as fewer of them count as use than there is room. -/
theorem Retains.foldl_next {ahead : Nat} (retains : cache.Retains uri key ahead)
    (bounded : cache.Bounded capacity) {calls : List Call}
    (spares : ∀ call ∈ calls, call.Spares uri key.uri)
    (few : ahead + calls.countP Call.uses < max capacity 1) :
    (calls.foldl Call.next cache).Retains uri key (ahead + calls.countP Call.uses) := by
  induction calls generalizing cache ahead with
  | nil => exact retains
  | cons call calls ih =>
      obtain ⟨first, others⟩ := List.forall_mem_cons.mp spares
      have count : (call :: calls).countP Call.uses =
          call.uses.toNat + calls.countP Call.uses := by
        rw [List.countP_cons, Nat.add_comm]
        cases call.uses <;> rfl
      rw [count, ← Nat.add_assoc] at few ⊢
      have room : call.uses = true → ahead + 1 < max capacity 1 := by
        intro used
        rw [used, Bool.toNat_true] at few
        omega
      obtain ⟨bounded, retains⟩ := retains.next bounded first room
      exact ih retains bounded others few

/-- Whatever a cache has been through, a key that was just found by a lookup is found again by the
same lookup after any calls, if fewer of them are lookups and insertions than the cache holds keys,
and none puts in a key that was asked for by the same URI or has the URI of the one that was found. -/
theorem get?_retained {operations : List Operation} {calls : List Call}
    (found : ((after capacity operations).get? uri).1 = some key)
    (spares : ∀ call ∈ calls, call.Spares uri key.uri)
    (few : calls.countP Call.uses < max capacity 1) :
    ((calls.foldl Call.next ((after capacity operations).get? uri).2).get? uri).1 = some key := by
  have retains := (proper_after capacity operations).retains_get? found
  have bounded := (bounded_after capacity operations).get? uri
  rw [← Nat.zero_add (calls.countP Call.uses)] at few
  exact (retains.foldl_next bounded spares few).get?_eq

/-- In a cache for three keys, one that was found through an alias is found again after two
insertions, the second of which drops what was put in before it. -/
theorem get?_retained_through_alias :
    let moved : KeyMaterial := ⟨⟨"b"⟩, .int 1⟩
    let operations : List Operation :=
      [.insert ⟨"a"⟩ moved, .insert ⟨"x"⟩ ⟨⟨"y"⟩, .int 2⟩, .evict ⟨"z"⟩]
    let calls : List Call :=
      [.insert ⟨"c"⟩ ⟨⟨"d"⟩, .int 3⟩, .size, .canonical ⟨"a"⟩, .insert ⟨"e"⟩ ⟨⟨"f"⟩, .int 4⟩]
    let last := calls.foldl Call.next ((after 3 operations).get? ⟨"a"⟩).2
    ((after 3 operations).get? ⟨"a"⟩).1 = some moved ∧ calls.countP Call.uses = 2 ∧
      (last.get? ⟨"x"⟩).1 = none ∧ (last.get? ⟨"a"⟩).1 = some moved := by
  intro moved operations calls last
  have found : ((after 3 operations).get? ⟨"a"⟩).1 = some moved := rfl
  have spares : ∀ call ∈ calls, call.Spares ⟨"a"⟩ moved.uri := by
    simp [calls, moved, Call.Spares]
  have few : calls.countP Call.uses < max 3 1 := by decide
  exact ⟨found, rfl, rfl, get?_retained found spares few⟩

end FieldCrypt.KeyCache
