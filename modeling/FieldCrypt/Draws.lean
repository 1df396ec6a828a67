/-!
# Random bytes

Bytes are drawn one buffer at a time. Which bytes a buffer gets is up to a source that is told the
number of the draw, so a run is a function of its source.
-/

namespace FieldCrypt

/-- A source of random bytes and the number of buffers taken from it. -/
structure Draws where
  /-- The byte at a position of a draw. -/
  source : (number position : Nat) → UInt8
  taken : Nat := 0

namespace Draws

/-- The next `count` bytes. -/
def take (draws : Draws) (count : Nat) : List UInt8 × Draws :=
  ((List.range count).map (draws.source draws.taken), { draws with taken := draws.taken + 1 })

@[simp] theorem length_take (draws : Draws) (count : Nat) :
    (draws.take count).1.length = count := by
  simp [take]

end Draws

end FieldCrypt
