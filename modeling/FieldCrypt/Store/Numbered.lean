/-!
# Numbered places

A list of places that are all there from the start, every place beyond the written ones holding the
default value. Handles to places are plain numbers, so reading and changing never fail.
-/

namespace FieldCrypt

/-- Places numbered from zero. -/
structure Numbered (α : Type) where
  written : List α := []
  deriving Repr, Inhabited

namespace Numbered

variable {α : Type} [Inhabited α]

/-- Change the place `index` of a list that goes on with default values. -/
def change (f : α → α) : List α → Nat → List α
  | [], 0 => [f default]
  | [], index + 1 => default :: change f [] index
  | value :: rest, 0 => f value :: rest
  | value :: rest, index + 1 => value :: change f rest index

def get (places : Numbered α) (index : Nat) : α := places.written.getD index default

def modify (places : Numbered α) (index : Nat) (f : α → α) : Numbered α :=
  ⟨change f places.written index⟩

/-- The first place that was never written. -/
def fresh (places : Numbered α) : Nat := places.written.length

theorem getD_change (f : α → α) (list : List α) (index other : Nat) :
    (change f list index).getD other default =
      if index = other then f (list.getD index default) else list.getD other default := by
  induction list generalizing index other with
  | nil =>
    induction index generalizing other with
    | zero => cases other <;> simp [change]
    | succ index ih =>
      cases other with
      | zero => simp [change]
      | succ other => simpa [change] using ih other
  | cons value rest ih =>
    cases index with
    | zero => cases other <;> simp [change]
    | succ index =>
      cases other with
      | zero => simp [change]
      | succ other => simpa [change] using ih index other

theorem get_modify (places : Numbered α) (index other : Nat) (f : α → α) :
    (places.modify index f).get other =
      if index = other then f (places.get index) else places.get other :=
  getD_change f places.written index other

@[simp] theorem get_modify_self (places : Numbered α) (index : Nat) (f : α → α) :
    (places.modify index f).get index = f (places.get index) := by
  simp [get_modify]

theorem get_modify_of_ne (places : Numbered α) {index other : Nat} (h : index ≠ other)
    (f : α → α) : (places.modify index f).get other = places.get other := by
  simp [get_modify, h]

end Numbered

end FieldCrypt
