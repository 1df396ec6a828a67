import FieldCrypt.Routine.Turn

/-!
# Arbitrary interleavings

`Step` is one step of any part of a routine, chosen freely among those that need not wait; `Steps`
is any number of them, and `Ends` says that some of them lead to a result. Taking turns is one way
to make steps: `ends_of_run` says that whatever a run comes to is the end of an interleaving.
-/

namespace FieldCrypt.Routine

variable {ε : Type → Type} {σ α β γ : Type}

/-- One part of the routine makes one step. -/
inductive Step (handle : Handler ε σ) : {α : Type} → Routine ε α × σ → Routine ε α × σ → Prop where
  | pause {α : Type} (rest : Routine ε α) (state : σ) :
      Step handle (pause rest, state) (rest, state)
  | call {α β : Type} {effect : ε β} (rest : β → Routine ε α) {state next : σ} {answer : β}
      (handled : handle _ effect state = some (answer, next)) :
      Step handle (call effect rest, state) (rest answer, next)
  | left {α β γ : Type} {left left' : Routine ε β} {state next : σ} (right : Routine ε γ)
      (rest : β → γ → Routine ε α) (step : Step handle (left, state) (left', next)) :
      Step handle (both left right rest, state) (both left' right rest, next)
  | right {α β γ : Type} {right right' : Routine ε γ} {state next : σ} (left : Routine ε β)
      (rest : β → γ → Routine ε α) (step : Step handle (right, state) (right', next)) :
      Step handle (both left right rest, state) (both left right' rest, next)
  | join {α β γ : Type} (b : β) (c : γ) (rest : β → γ → Routine ε α) (state : σ) :
      Step handle (both (done b) (done c) rest, state) (rest b c, state)

/-- Any number of steps. -/
inductive Steps (handle : Handler ε σ) : Routine ε α × σ → Routine ε α × σ → Prop where
  | refl (start : Routine ε α × σ) : Steps handle start start
  | tail {start middle last : Routine ε α × σ} (steps : Steps handle start middle)
      (step : Step handle middle last) : Steps handle start last

/-- The routine can end in this way under some interleaving. -/
def Ends (handle : Handler ε σ) (routine : Routine ε α) (state : σ) (result : α) (last : σ) :
    Prop :=
  Steps handle (routine, state) (done result, last)

variable {handle : Handler ε σ}

theorem Steps.single {start last : Routine ε α × σ} (step : Step handle start last) :
    Steps handle start last :=
  .tail (.refl start) step

theorem Steps.trans {start middle last : Routine ε α × σ} (first : Steps handle start middle)
    (second : Steps handle middle last) : Steps handle start last := by
  induction second with
  | refl => exact first
  | tail _ step ih => exact ih.tail step

theorem Steps.left {left left' : Routine ε β} {state next : σ} (right : Routine ε γ)
    (rest : β → γ → Routine ε α) (steps : Steps handle (left, state) (left', next)) :
    Steps handle (both left right rest, state) (both left' right rest, next) := by
  generalize hs : (left, state) = start at steps
  generalize hl : (left', next) = last at steps
  induction steps generalizing left' next with
  | refl =>
    obtain ⟨rfl, rfl⟩ := Prod.mk.inj (hs.trans hl.symm)
    exact .refl _
  | @tail middle _ _ step ih =>
    subst hl
    obtain ⟨between, state'⟩ := middle
    exact (ih rfl).tail (.left right rest step)

theorem Steps.right {right right' : Routine ε γ} {state next : σ} (left : Routine ε β)
    (rest : β → γ → Routine ε α) (steps : Steps handle (right, state) (right', next)) :
    Steps handle (both left right rest, state) (both left right' rest, next) := by
  generalize hs : (right, state) = start at steps
  generalize hl : (right', next) = last at steps
  induction steps generalizing right' next with
  | refl =>
    obtain ⟨rfl, rfl⟩ := Prod.mk.inj (hs.trans hl.symm)
    exact .refl _
  | @tail middle _ _ step ih =>
    subst hl
    obtain ⟨between, state'⟩ := middle
    exact (ih rfl).tail (.right left rest step)

/-- A turn is a sequence of steps. -/
theorem steps_turn (handle : Handler ε σ) : {α : Type} → (routine : Routine ε α) → (state : σ) →
    Steps handle (routine, state)
      ((turn handle routine state).rest, (turn handle routine state).state)
  | _, done _, _ => .refl _
  | _, .pause rest, state => .single (.pause rest state)
  | _, .call effect rest, state => by
    unfold turn
    split
    · exact .refl _
    · rename_i answer next handled
      exact (Steps.single (.call rest handled)).trans (steps_turn handle (rest answer) next)
  | _, both left right rest, state => by
    have first := steps_turn handle left state
    have second := steps_turn handle right (turn handle left state).state
    have sides := (first.left right rest).trans (second.right (turn handle left state).rest rest)
    unfold turn
    simp only
    split
    · rename_i b c hb hc
      rw [eq_done_of_result? hb, eq_done_of_result? hc] at sides
      exact (sides.tail (.join b c rest _)).trans (steps_turn handle (rest b c) _)
    · exact sides

/-- Whatever a run comes to is the end of an interleaving. -/
theorem ends_of_run {routine : Routine ε α} {state last : σ} {result : α}
    (h : run handle routine state = some (result, last)) :
    Ends handle routine state result last := by
  induction routine using (WellFoundedRelation.wf (α := Routine ε α)).induction
    generalizing state with
  | _ routine ih =>
    have turned := steps_turn handle routine state
    rw [run] at h
    split at h
    · rename_i found hr
      cases h
      rw [eq_done_of_result? hr] at turned
      exact turned
    · split at h
      · rename_i moved
        exact turned.trans (ih _ (turn_less moved) h)
      · cases h

end FieldCrypt.Routine
