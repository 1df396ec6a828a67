import FieldCrypt.Proofs.Routine.Effects

/-!
# Handlers that answer alike

Two handlers answer alike when they give the same answers in related states and leave related states
behind. A routine that asks for nothing else takes the same turns under both and comes to the same
result.
-/

namespace FieldCrypt

variable {ε : Type → Type} {σ τ α : Type}

/-- The same result, and related states. -/
def SameResult (related : σ → τ → Prop) (first : α × σ) (second : α × τ) : Prop :=
  first.1 = second.1 ∧ related first.2 second.2

/-- In related states, effects with the property are answered alike, or wait under both handlers. -/
def Alike (handle : Handler ε σ) (other : Handler ε τ) (p : (β : Type) → ε β → Prop)
    (related : σ → τ → Prop) : Prop :=
  ∀ β effect, p β effect → ∀ state state', related state state' →
    Option.Rel (SameResult related) (handle β effect state) (other β effect state')

namespace Routine

variable {handle : Handler ε σ} {other : Handler ε τ} {p : (β : Type) → ε β → Prop}
  {related : σ → τ → Prop}

/-- A turn is the same under both handlers. -/
theorem turn_alike (alike : Alike handle other p related) {routine : Routine ε α}
    (only : routine.Only p) {state : σ} {state' : τ} (start : related state state') :
    (turn handle routine state).rest = (turn other routine state').rest ∧
      (turn handle routine state).moved = (turn other routine state').moved ∧
      related (turn handle routine state).state (turn other routine state').state := by
  induction routine generalizing state state' with
  | done result => exact ⟨rfl, rfl, start⟩
  | pause rest => exact ⟨rfl, rfl, start⟩
  | call effect rest ih =>
      have answered := alike _ effect only.1 state state' start
      simp only [turn]
      generalize handle _ effect state = here at answered ⊢
      generalize other _ effect state' = there at answered ⊢
      cases answered with
      | none => exact ⟨rfl, rfl, start⟩
      | @some here there same =>
          obtain ⟨answer, next⟩ := here
          obtain ⟨_, next'⟩ := there
          obtain ⟨rfl, onward⟩ := same
          obtain ⟨rest, -, onward⟩ := ih answer (only.2 answer) onward
          exact ⟨rest, rfl, onward⟩
  | both left right rest ihl ihr ih =>
      obtain ⟨restL, movedL, middle⟩ := ihl only.1 start
      obtain ⟨restR, movedR, last⟩ := ihr only.2.1 middle
      simp only [turn, restL, restR, movedL, movedR]
      split
      · rename_i b c _ _
        obtain ⟨rest, -, onward⟩ := ih b c (only.2.2 b c) last
        exact ⟨rest, rfl, onward⟩
      · exact ⟨rfl, rfl, last⟩

/-- A run comes to the same under both handlers. -/
theorem run_alike (alike : Alike handle other p related) {routine : Routine ε α}
    (only : routine.Only p) {state : σ} {state' : τ} (start : related state state') :
    Option.Rel (SameResult related) (run handle routine state) (run other routine state') := by
  induction routine using (WellFoundedRelation.wf (α := Routine ε α)).induction
    generalizing state state' with
  | _ routine ih =>
      obtain ⟨rest, moved, next⟩ := turn_alike alike only start
      have left : (turn handle routine state).rest.Only p :=
        only.steps (steps_turn handle routine state)
      rw [run, run.eq_def other, ← rest, ← moved]
      split
      · exact .some ⟨rfl, next⟩
      · split
        · rename_i onward
          exact ih _ (turn_less onward) left next
        · exact .none

end Routine

end FieldCrypt
