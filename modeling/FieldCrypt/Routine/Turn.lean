import FieldCrypt.Routine.Basic

/-!
# Taking turns

Under a handler for its effects, a routine that is given a turn runs until it gives the turn up, has
to wait, or ends. Routines side by side get their turns in order, over and over, and go on together
within the turn in which the last of them ends. `run` gives turns until the routine ends; it stops
without a result only when a whole turn went by in which nothing moved, so that everyone waits for
ever.
-/

namespace FieldCrypt

/-- What effects do to a state. An effect without an answer waits until the state allows it. -/
abbrev Handler (ε : Type → Type) (σ : Type) := (β : Type) → ε β → σ → Option (β × σ)

namespace Routine

variable {ε : Type → Type} {σ α β γ : Type}

/-- What a turn leaves: the rest of the work, the state, and whether anything moved. -/
structure Turn (ε : Type → Type) (α σ : Type) where
  rest : Routine ε α
  state : σ
  moved : Bool

/-- Give a routine one turn. -/
def turn (handle : Handler ε σ) : {α : Type} → Routine ε α → σ → Turn ε α σ
  | _, done result, state => ⟨done result, state, false⟩
  | _, pause rest, state => ⟨rest, state, true⟩
  | _, call effect rest, state =>
    match handle _ effect state with
    | none => ⟨call effect rest, state, false⟩
    | some (answer, state) => { turn handle (rest answer) state with moved := true }
  | _, both left right rest, state =>
    let first := turn handle left state
    let second := turn handle right first.state
    match first.rest.result?, second.rest.result? with
    | some b, some c => { turn handle (rest b c) second.state with moved := true }
    | _, _ => ⟨both first.rest second.rest rest, second.state, first.moved || second.moved⟩

/-- A turn either moves nothing, or leaves less work. -/
theorem turn_after (handle : Handler ε σ) : {α : Type} → (routine : Routine ε α) → (state : σ) →
    ((turn handle routine state).moved = true ∧
      Relation.TransGen After (turn handle routine state).rest routine) ∨
    ((turn handle routine state).moved = false ∧
      (turn handle routine state).rest = routine ∧ (turn handle routine state).state = state)
  | _, done _, _ => .inr ⟨rfl, rfl, rfl⟩
  | _, .pause rest, _ => .inl ⟨rfl, .single (.pause rest)⟩
  | _, .call effect rest, state => by
    unfold turn
    split
    · exact .inr ⟨rfl, rfl, rfl⟩
    · rename_i answer next _
      refine .inl ⟨rfl, ?_⟩
      have step : After (rest answer) (.call effect rest) := .call effect rest answer
      rcases turn_after handle (rest answer) next with ⟨_, less⟩ | ⟨_, same, _⟩
      · exact less.trans (.single step)
      · change Relation.TransGen After (turn handle (rest answer) next).rest _
        rw [same]
        exact .single step
  | _, both left right rest, state => by
    have lift_left {left' : Routine ε _} (right : Routine ε _)
        (less : Relation.TransGen After left' left) :
        Relation.TransGen After (both left' right rest) (both left right rest) := by
      induction less with
      | single step => exact .single (.left right rest step)
      | tail _ step ih => exact ih.tail (.left right rest step)
    have lift_right (left : Routine ε _) {right' : Routine ε _}
        (less : Relation.TransGen After right' right) :
        Relation.TransGen After (both left right' rest) (both left right rest) := by
      induction less with
      | single step => exact .single (.right left rest step)
      | tail _ step ih => exact ih.tail (.right left rest step)
    unfold turn
    simp only
    split
    · rename_i b c _ _
      refine .inl ⟨rfl, ?_⟩
      have step : After (rest b c) (both left right rest) := .join left right rest b c
      generalize (turn handle right (turn handle left state).state).state = next
      rcases turn_after handle (rest b c) next with ⟨_, less⟩ | ⟨_, same, _⟩
      · exact less.trans (.single step)
      · change Relation.TransGen After (turn handle (rest b c) next).rest _
        rw [same]
        exact .single step
    · rcases turn_after handle left state with ⟨movedL, lessL⟩ | ⟨stayL, sameL, stateL⟩ <;>
        rcases turn_after handle right (turn handle left state).state
          with ⟨movedR, lessR⟩ | ⟨stayR, sameR, stateR⟩
      · exact .inl ⟨by simp [movedL], (lift_left _ lessL).trans (lift_right left lessR)⟩
      · refine .inl ⟨by simp [movedL], ?_⟩
        rw [sameR]
        exact lift_left right lessL
      · refine .inl ⟨by simp [movedR], ?_⟩
        rw [sameL]
        exact lift_right left lessR
      · exact .inr ⟨by simp [stayL, stayR], by rw [sameL, sameR], by rw [stateR, stateL]⟩

/-- What is left after a turn in which something moved is less work. -/
theorem turn_less {handle : Handler ε σ} {routine : Routine ε α} {state : σ}
    (moved : (turn handle routine state).moved = true) :
    Relation.TransGen After (turn handle routine state).rest routine := by
  rcases turn_after handle routine state with ⟨_, less⟩ | ⟨stay, _⟩
  · exact less
  · rw [stay] at moved
    cases moved

theorem moved_left {handle : Handler ε σ} {left : Routine ε β} {state : σ}
    (moved : (turn handle left state).moved = true) (right : Routine ε γ)
    (rest : β → γ → Routine ε α) : (turn handle (both left right rest) state).moved = true := by
  unfold turn
  simp only [moved, Bool.true_or]
  split <;> rfl

theorem moved_right {handle : Handler ε σ} (left : Routine ε β) {right : Routine ε γ} {state : σ}
    (moved : (turn handle right (turn handle left state).state).moved = true)
    (rest : β → γ → Routine ε α) : (turn handle (both left right rest) state).moved = true := by
  unfold turn
  simp only [moved, Bool.or_true]
  split <;> rfl

theorem moved_join {handle : Handler ε σ} (b : β) (c : γ) (rest : β → γ → Routine ε α)
    (state : σ) : (turn handle (both (done b) (done c) rest) state).moved = true := by
  unfold turn
  rfl

/-- Give a routine turns until it ends. -/
def run (handle : Handler ε σ) (routine : Routine ε α) (state : σ) : Option (α × σ) :=
  match (turn handle routine state).rest.result? with
  | some result => some (result, (turn handle routine state).state)
  | none =>
    if _moved : (turn handle routine state).moved = true then
      run handle (turn handle routine state).rest (turn handle routine state).state
    else none
termination_by routine
decreasing_by exact turn_less _moved

end Routine

end FieldCrypt
