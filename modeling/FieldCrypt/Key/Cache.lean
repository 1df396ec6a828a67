import FieldCrypt.Key.Material
import FieldCrypt.Store.Recency

/-!
# The cache of resolved keys

Keys are held under their own URI. When a key was asked for by another URI, that URI is remembered
as an alias of the key's own. Both lists are bounded and drop what was used least recently.
-/

namespace FieldCrypt

/-- Resolved keys and the aliases of their URIs. -/
structure KeyCache where
  keys : Recency KeyUri KeyMaterial
  aliases : Recency KeyUri KeyUri

namespace KeyCache

/-- How many keys a cache holds when nothing else is said. -/
def defaultCapacity : Nat := 256

/-- An empty cache for `capacity` keys, at least one. -/
def ofCapacity (capacity : Nat) : KeyCache where
  keys := { limit := max capacity 1 }
  aliases := { limit := max capacity 1 }

instance : Inhabited KeyCache := ⟨ofCapacity defaultCapacity⟩

/-- The URI of the key that was last answered for `uri`, if it was another one. -/
def canonical? (cache : KeyCache) (uri : KeyUri) : Option KeyUri := cache.aliases.peek? uri

/-- The URI that a key asked for by `uri` is held under. -/
def resolve (cache : KeyCache) (uri : KeyUri) : KeyUri := (cache.canonical? uri).getD uri

/-- The key for `uri`, found through its alias if it has one. Alias and key count as used. -/
def get? (cache : KeyCache) (uri : KeyUri) : Option KeyMaterial × KeyCache :=
  let held := cache.resolve uri
  (cache.keys.peek? held,
    { keys := cache.keys.touch held, aliases := cache.aliases.touch uri })

/-- Hold the key that was answered for `requested`. -/
def insert (cache : KeyCache) (requested : KeyUri) (key : KeyMaterial) : KeyCache where
  keys := cache.keys.put key.uri key
  aliases := if requested = key.uri then cache.aliases else cache.aliases.put requested key.uri

/-- Drop a key, named by its own URI or by an alias, and the alias. -/
def evict (cache : KeyCache) (uri : KeyUri) : KeyCache where
  keys := cache.keys.erase (cache.resolve uri)
  aliases := cache.aliases.erase uri

def clear (cache : KeyCache) : KeyCache where
  keys := cache.keys.clear
  aliases := cache.aliases.clear

def size (cache : KeyCache) : Nat := cache.keys.size

def isEmpty (cache : KeyCache) : Bool := cache.size = 0

end KeyCache

end FieldCrypt
