import FieldCrypt.Proofs.Routine.Crowd
import Mathlib.Data.List.Forall2
import Mathlib.Order.Basic

/-!
# Invariants that move on

What routines share goes through phases, each with its own invariant, and never back to an earlier
one. A routine upholds the invariants from a phase on when each of its effects is answered in that
phase and in all later ones, and leaves behind the invariant of the phase that it found or of a
later one. What it has learnt from an answer it may rely on as long as later phases do not undo it.
-/

namespace FieldCrypt

variable {ε : Type → Type} {σ α β γ κ ι φ : Type} [Preorder φ]

namespace Routine

/-- From this phase on every effect is answered and leaves the invariant of the phase that it found or
of a later one behind, and the routine ends with a result that has the property. -/
def Upholds (handle : Handler ε σ) (invariant : φ → σ → Prop) :
    {α : Type} → Routine ε α → φ → (α → Prop) → Prop
  | _, done result, _, post => post result
  | _, pause rest, phase, post => rest.Upholds handle invariant phase post
  | _, call effect rest, phase, post => ∀ now, phase ≤ now → ∀ state, invariant now state →
      ∃ answer next after, handle _ effect state = some (answer, next) ∧ now ≤ after ∧
        invariant after next ∧ (rest answer).Upholds handle invariant after post
  | _, both left right rest, phase, post => ∃ ofLeft ofRight,
      left.Upholds handle invariant phase ofLeft ∧ right.Upholds handle invariant phase ofRight ∧
        ∀ b c, ofLeft b → ofRight c → (rest b c).Upholds handle invariant phase post

variable {handle : Handler ε σ} {invariant : φ → σ → Prop} {phase now : φ}

/-- What is upheld from a phase on is upheld from every later phase on. -/
theorem Upholds.later {routine : Routine ε α} {post : α → Prop} {after : φ}
    (upholds : routine.Upholds handle invariant phase post) (onward : phase ≤ after) :
    routine.Upholds handle invariant after post := by
  induction routine with
  | done result => exact upholds
  | pause rest ih => exact ih upholds
  | call effect rest _ => exact fun now reached => upholds now (onward.trans reached)
  | both left right rest ihl ihr ih =>
      obtain ⟨ofLeft, ofRight, first, second, both⟩ := upholds
      exact ⟨ofLeft, ofRight, ihl first, ihr second, fun b c hb hc => ih b c (both b c hb hc)⟩

theorem Upholds.mono {routine : Routine ε α} {post weaker : α → Prop}
    (upholds : routine.Upholds handle invariant phase post)
    (weaken : ∀ result, post result → weaker result) :
    routine.Upholds handle invariant phase weaker := by
  induction routine generalizing phase with
  | done result => exact weaken result upholds
  | pause rest ih => exact ih upholds weaken
  | call effect rest ih =>
      intro now reached state holds
      obtain ⟨answer, next, after, handled, onward, kept, rest⟩ := upholds now reached state holds
      exact ⟨answer, next, after, handled, onward, kept, ih answer rest weaken⟩
  | both left right rest _ _ ih =>
      obtain ⟨ofLeft, ofRight, first, second, both⟩ := upholds
      exact ⟨ofLeft, ofRight, first, second, fun b c hb hc => ih b c (both b c hb hc) weaken⟩

theorem Upholds.bind {routine : Routine ε α} {next : α → Routine ε β} {between : α → Prop}
    {post : β → Prop} (upholds : routine.Upholds handle invariant phase between)
    (rest : ∀ result, between result → (next result).Upholds handle invariant phase post) :
    (routine >>= next).Upholds handle invariant phase post := by
  change (routine.bind next).Upholds handle invariant phase post
  induction routine generalizing phase with
  | done result => exact rest result upholds
  | pause _ ih => exact ih upholds rest
  | call effect _ ih =>
      intro now reached state holds
      obtain ⟨answer, last, after, handled, onward, kept, first⟩ := upholds now reached state holds
      refine ⟨answer, last, after, handled, onward, kept, ih answer first ?_⟩
      intro result has
      exact (rest result has).later (reached.trans onward)
  | both left right _ _ _ ih =>
      obtain ⟨ofLeft, ofRight, first, second, both⟩ := upholds
      exact ⟨ofLeft, ofRight, first, second, fun b c hb hc => ih b c (both b c hb hc) rest⟩

/-- Routines side by side that uphold the invariants do so together, and end with what each of them
is to end with. -/
theorem Upholds.all {items : List ι} {routine : ι → Routine ε α} {post : ι → α → Prop}
    (each : ∀ item ∈ items, (routine item).Upholds handle invariant phase (post item)) :
    (Routine.all (items.map routine)).Upholds handle invariant phase (List.Forall₂ post items) := by
  induction items with
  | nil => exact .nil
  | cons item rest ih =>
      obtain ⟨first, others⟩ := List.forall_mem_cons.mp each
      exact ⟨post item, List.Forall₂ post rest, first, ih others,
        fun result results has others => .cons has others⟩

/-- A step leads on to the same or a later phase, and what is left of the routine upholds the
invariants from there on. -/
theorem Upholds.step {start last : Routine ε α × σ} {post : α → Prop}
    (upholds : start.1.Upholds handle invariant phase post) (step : Step handle start last)
    (reached : phase ≤ now) (holds : invariant now start.2) :
    ∃ after, now ≤ after ∧ invariant after last.2 ∧
      last.1.Upholds handle invariant after post := by
  induction step with
  | pause rest state =>
      have still : rest.Upholds handle invariant phase post := upholds
      exact ⟨now, le_refl now, holds, still.later reached⟩
  | @call _ _ _ _ state next answer handled =>
      obtain ⟨answer', next', after, handled', onward, kept, rest⟩ := upholds now reached state holds
      obtain ⟨rfl, rfl⟩ := Prod.mk.inj (Option.some.inj (handled.symm.trans handled'))
      exact ⟨after, onward, kept, rest⟩
  | left right rest _ ih =>
      obtain ⟨ofLeft, ofRight, first, second, both⟩ := upholds
      obtain ⟨after, onward, kept, first'⟩ := ih first holds
      have whole := reached.trans onward
      exact ⟨after, onward, kept, ofLeft, ofRight, first', second.later whole,
        fun b c hb hc => (both b c hb hc).later whole⟩
  | right left rest _ ih =>
      obtain ⟨ofLeft, ofRight, first, second, both⟩ := upholds
      obtain ⟨after, onward, kept, second'⟩ := ih second holds
      have whole := reached.trans onward
      exact ⟨after, onward, kept, ofLeft, ofRight, first.later whole, second',
        fun b c hb hc => (both b c hb hc).later whole⟩
  | join b c rest state =>
      obtain ⟨ofLeft, ofRight, first, second, both⟩ := upholds
      exact ⟨now, le_refl now, holds, (both b c first second).later reached⟩

theorem Upholds.steps {start last : Routine ε α × σ} {post : α → Prop}
    (upholds : start.1.Upholds handle invariant phase post) (steps : Steps handle start last)
    (holds : invariant phase start.2) :
    ∃ after, phase ≤ after ∧ invariant after last.2 ∧
      last.1.Upholds handle invariant after post := by
  induction steps with
  | refl => exact ⟨phase, le_refl phase, holds, upholds⟩
  | tail _ step ih =>
      obtain ⟨middle, first, held, left⟩ := ih
      obtain ⟨after, second, kept, rest⟩ := left.step step (le_refl middle) held
      exact ⟨after, first.trans second, kept, rest⟩

/-- However its parts take turns, the routine ends with a result that has the property. -/
theorem Upholds.of_ends {routine : Routine ε α} {post : α → Prop} {state last : σ} {result : α}
    (upholds : routine.Upholds handle invariant phase post) (holds : invariant phase state)
    (ends : Ends handle routine state result last) :
    post result ∧ ∃ after, phase ≤ after ∧ invariant after last := by
  obtain ⟨after, onward, kept, ended⟩ := upholds.steps ends holds
  exact ⟨ended, after, onward, kept⟩

/-- Nothing stands still before it ends. -/
theorem Upholds.turn_moved {routine : Routine ε α} {post : α → Prop} {state : σ}
    (upholds : routine.Upholds handle invariant phase post) (holds : invariant phase state) :
    (∃ result, routine = done result) ∨ (turn handle routine state).moved = true := by
  induction routine with
  | done result => exact .inl ⟨result, rfl⟩
  | pause rest => exact .inr rfl
  | call effect rest =>
      obtain ⟨answer, next, after, handled, -⟩ := upholds phase (le_refl phase) state holds
      right
      simp only [turn, handled]
  | both left right rest ihl ihr =>
      obtain ⟨ofLeft, ofRight, first, second, -⟩ := upholds
      right
      rcases ihl first with ⟨b, rfl⟩ | moved
      · rcases ihr second with ⟨c, rfl⟩ | moved
        · exact moved_join b c rest state
        · exact moved_right (done b) moved rest
      · exact moved_left moved right rest

/-- A routine that upholds the invariants runs to its end. -/
theorem Upholds.run {routine : Routine ε α} {post : α → Prop} {state : σ}
    (upholds : routine.Upholds handle invariant phase post) (holds : invariant phase state) :
    ∃ result last, run handle routine state = some (result, last) ∧ post result := by
  induction routine using (WellFoundedRelation.wf (α := Routine ε α)).induction
    generalizing state phase with
  | _ routine ih =>
      obtain ⟨after, onward, held, rest⟩ := upholds.steps (steps_turn handle routine state) holds
      rw [Routine.run]
      split
      · rename_i result ended
        rw [eq_done_of_result? ended] at rest
        exact ⟨result, _, rfl, rest⟩
      · rename_i ended
        rcases upholds.turn_moved holds with ⟨result, rfl⟩ | moved
        · cases ended
        · rw [dif_pos moved]
          exact ih _ (turn_less moved) rest held

end Routine

/-- The invariant of a phase holds of what a crowd shares, and from there on each caller upholds the
invariants and ends with what its purpose asks for. -/
structure Crowd.Upholding (handle : Handler ε σ) (invariant : φ → σ → Prop) (post : κ → α → Prop)
    (crowd : Crowd κ ε α σ) (phase : φ) : Prop where
  holds : invariant phase crowd.state
  callers : ∀ (index : Nat) (purpose : κ) (routine : Routine ε α),
    crowd.callers[index]? = some (purpose, routine) →
    routine.Upholds handle invariant phase (post purpose)

namespace Crowd.Upholding

variable {handle : Handler ε σ} {invariant : φ → σ → Prop} {post : κ → α → Prop}
  {crowd : Crowd κ ε α σ} {phase : φ}

theorem start (nobody : crowd.callers = []) (holds : invariant phase crowd.state) :
    crowd.Upholding handle invariant post phase where
  holds := holds
  callers index purpose routine found := by
    rw [nobody] at found
    cases found

/-- The state changes from elsewhere. -/
theorem change (upholding : crowd.Upholding handle invariant post phase) {state : σ} {after : φ}
    (onward : phase ≤ after) (holds : invariant after state) :
    Upholding handle invariant post { crowd with state } after where
  holds := holds
  callers index purpose routine found := (upholding.callers index purpose routine found).later onward

theorem come (upholding : crowd.Upholding handle invariant post phase) {purpose : κ}
    {routine : Routine ε α} (upholds : routine.Upholds handle invariant phase (post purpose)) :
    Upholding handle invariant post
      { crowd with callers := crowd.callers ++ [(purpose, routine)] } phase where
  holds := upholding.holds
  callers index purpose' routine' found := by
    rcases caller_come found with before | ⟨-, new⟩
    · exact upholding.callers index purpose' routine' before
    · obtain ⟨rfl, rfl⟩ := Prod.mk.inj new
      exact upholds

theorem move (upholding : crowd.Upholding handle invariant post phase) {index : Nat} {purpose : κ}
    {routine routine' : Routine ε α} {state : σ}
    (found : crowd.callers[index]? = some (purpose, routine))
    (step : Routine.Step handle (routine, crowd.state) (routine', state)) :
    ∃ after, phase ≤ after ∧
      Upholding handle invariant post ⟨crowd.callers.set index (purpose, routine'), state⟩ after := by
  obtain ⟨after, onward, kept, rest⟩ :=
    (upholding.callers index purpose routine found).step step (le_refl phase) upholding.holds
  refine ⟨after, onward, kept, ?_⟩
  intro other purpose' routine'' there
  rcases caller_move there with ⟨-, new⟩ | ⟨-, before⟩
  · obtain ⟨rfl, rfl⟩ := Prod.mk.inj new
    exact rest
  · exact (upholding.callers other purpose' routine'' before).later onward

/-- If all callers uphold the invariants from any phase on, and whatever else goes on leads from phase
to phase, then so does all that ever happens, and everybody comes to what they are after. -/
theorem reaches {program : κ → Routine ε α} {elsewhere : σ → σ → Prop} {later : Crowd κ ε α σ}
    (upholding : crowd.Upholding handle invariant post phase)
    (upholds : ∀ purpose phase, (program purpose).Upholds handle invariant phase (post purpose))
    (kept : ∀ before after phase, elsewhere before after → invariant phase before →
      ∃ later, phase ≤ later ∧ invariant later after)
    (reached : Crowd.Reaches handle program elsewhere crowd later) :
    ∃ after, phase ≤ after ∧ later.Upholding handle invariant post after := by
  induction reached with
  | refl => exact ⟨phase, le_refl phase, upholding⟩
  | tail _ step ih =>
      obtain ⟨now, onward, upholding⟩ := ih
      cases step with
      | come purpose => exact ⟨now, onward, upholding.come (upholds purpose now)⟩
      | move found inner =>
          obtain ⟨after, further, moved⟩ := upholding.move found inner
          exact ⟨after, onward.trans further, moved⟩
      | change changed =>
          obtain ⟨after, further, holds⟩ := kept _ _ now changed upholding.holds
          exact ⟨after, onward.trans further, upholding.change further holds⟩

end Crowd.Upholding

end FieldCrypt
