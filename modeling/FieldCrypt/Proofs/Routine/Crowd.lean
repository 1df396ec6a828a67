import FieldCrypt.Proofs.Routine.Effects
import Mathlib.Logic.Relation

/-!
# Crowds

A crowd is any number of callers who work side by side on one state. New callers come at any time,
callers make their steps in any order, and the state may also be changed from elsewhere. `Reaches`
says that a crowd can become another one in this way.
-/

namespace FieldCrypt

variable {κ : Type} {ε : Type → Type} {α σ : Type}

/-- The callers in the order in which they came, each with its purpose, and the state. -/
structure Crowd (κ : Type) (ε : Type → Type) (α σ : Type) where
  callers : List (κ × Routine ε α) := []
  state : σ

namespace Crowd

/-- Somebody comes, somebody makes a step, or the state changes from elsewhere. -/
inductive Step (handle : Handler ε σ) (program : κ → Routine ε α) (elsewhere : σ → σ → Prop)
    (crowd : Crowd κ ε α σ) : Crowd κ ε α σ → Prop where
  | come (purpose : κ) :
      Step handle program elsewhere crowd
        { crowd with callers := crowd.callers ++ [(purpose, program purpose)] }
  | move {index : Nat} {purpose : κ} {routine routine' : Routine ε α} {state : σ}
      (found : crowd.callers[index]? = some (purpose, routine))
      (step : Routine.Step handle (routine, crowd.state) (routine', state)) :
      Step handle program elsewhere crowd ⟨crowd.callers.set index (purpose, routine'), state⟩
  | change {state : σ} (changed : elsewhere crowd.state state) :
      Step handle program elsewhere crowd { crowd with state }

/-- The caller at this place has ended with a result. -/
def Ended (crowd : Crowd κ ε α σ) (index : Nat) (purpose : κ) (result : α) : Prop :=
  crowd.callers[index]? = some (purpose, .done result)

/-- Any number of steps. -/
abbrev Reaches (handle : Handler ε σ) (program : κ → Routine ε α) (elsewhere : σ → σ → Prop) :
    Crowd κ ε α σ → Crowd κ ε α σ → Prop :=
  Relation.ReflTransGen (Step handle program elsewhere)

variable {handle : Handler ε σ} {program : κ → Routine ε α} {elsewhere : σ → σ → Prop}

/-- Who is there after somebody came was there before, or is the one who came. -/
theorem caller_come {callers : List (κ × Routine ε α)} {new caller : κ × Routine ε α}
    {index : Nat} (found : (callers ++ [new])[index]? = some caller) :
    callers[index]? = some caller ∨ index = callers.length ∧ caller = new := by
  rw [List.getElem?_append] at found
  split at found
  · exact .inl found
  · obtain ⟨bound, last⟩ := List.getElem?_eq_some_iff.mp found
    rw [List.length_singleton] at bound
    right
    constructor
    · omega
    · exact last.symm.trans (List.getElem_singleton _)

/-- Who is there after one caller moved was there before, or is the one who moved. -/
theorem caller_move {callers : List (κ × Routine ε α)} {new caller : κ × Routine ε α}
    {index other : Nat} (found : (callers.set index new)[other]? = some caller) :
    other = index ∧ caller = new ∨ other ≠ index ∧ callers[other]? = some caller := by
  by_cases here : other = index
  · subst here
    left
    have bound : other < callers.length := by
      rw [← List.length_set]
      exact (List.getElem?_eq_some_iff.mp found).1
    rw [List.getElem?_set_self bound] at found
    exact ⟨rfl, (Option.some.inj found).symm⟩
  · right
    rw [List.getElem?_set_ne (Ne.symm here)] at found
    exact ⟨here, found⟩

/-- A caller stays in its place. It is as it was, or has made a step. -/
theorem Step.caller {crowd later : Crowd κ ε α σ} (step : Step handle program elsewhere crowd later)
    {index : Nat} {purpose : κ} {routine : Routine ε α}
    (found : crowd.callers[index]? = some (purpose, routine)) :
    later.callers[index]? = some (purpose, routine) ∨
      ∃ routine', later.callers[index]? = some (purpose, routine') ∧
        Routine.Step handle (routine, crowd.state) (routine', later.state) := by
  have bound : index < crowd.callers.length := (List.getElem?_eq_some_iff.mp found).1
  cases step with
  | come purpose =>
      left
      rw [List.getElem?_append_left bound]
      exact found
  | @move other _ _ _ _ moved step =>
      by_cases same : other = index
      · subst same
        obtain ⟨rfl, rfl⟩ := Prod.mk.inj (Option.some.inj (moved.symm.trans found))
        exact .inr ⟨_, List.getElem?_set_self bound, step⟩
      · left
        rw [List.getElem?_set_ne same]
        exact found
  | change changed => exact .inl found

/-- What one step keeps is kept for ever. -/
theorem Reaches.keeps {crowd later : Crowd κ ε α σ}
    (reached : Reaches handle program elsewhere crowd later) (holds : Crowd κ ε α σ → Prop)
    (step : ∀ before after, Step handle program elsewhere before after →
      holds before → holds after)
    (start : holds crowd) : holds later := by
  induction reached with
  | refl => exact start
  | tail _ last ih => exact step _ _ last ih

/-- Steps of one routine are steps of a caller in the crowd, whoever else may come or go. -/
theorem reflTransGen_of_steps {next : Crowd κ ε α σ → Crowd κ ε α σ → Prop}
    (move : ∀ (crowd : Crowd κ ε α σ) index purpose routine routine' state,
      crowd.callers[index]? = some (purpose, routine) →
      Routine.Step handle (routine, crowd.state) (routine', state) →
      next crowd ⟨crowd.callers.set index (purpose, routine'), state⟩)
    (callers : List (κ × Routine ε α)) (index : Nat) {purpose : κ}
    {start last : Routine ε α × σ} (steps : Routine.Steps handle start last)
    (found : callers[index]? = some (purpose, start.1)) :
    Relation.ReflTransGen next ⟨callers, start.2⟩
      ⟨callers.set index (purpose, last.1), last.2⟩ := by
  have bound : index < callers.length := (List.getElem?_eq_some_iff.mp found).1
  induction steps with
  | refl =>
      have same : callers.set index (purpose, start.1) = callers := by
        obtain ⟨_, held⟩ := List.getElem?_eq_some_iff.mp found
        rw [← held]
        exact List.set_getElem_self bound
      rw [same]
  | @tail middle last _ step ih =>
      have there : (callers.set index (purpose, middle.1))[index]? = some (purpose, middle.1) :=
        List.getElem?_set_self bound
      have moved := move ⟨callers.set index (purpose, middle.1), middle.2⟩ _ _ _ _ _ there step
      rw [List.set_set] at moved
      exact ih.tail moved

/-- The crowd after a caller had a turn. -/
def turn (handle : Handler ε σ) (crowd : Crowd κ ε α σ) (index : Nat) : Crowd κ ε α σ :=
  match crowd.callers[index]? with
  | none => crowd
  | some (purpose, routine) =>
      let after := routine.turn handle crowd.state
      ⟨crowd.callers.set index (purpose, after.rest), after.state⟩

/-- Turns of callers are one way in which a crowd goes on. -/
theorem reaches_turns (indices : List Nat) (crowd : Crowd κ ε α σ) :
    Reaches handle program elsewhere crowd (indices.foldl (turn handle) crowd) := by
  induction indices generalizing crowd with
  | nil => exact .refl
  | cons index indices ih =>
      refine .trans ?_ (ih (crowd.turn handle index))
      unfold turn
      split
      · exact .refl
      · rename_i purpose routine found
        exact reflTransGen_of_steps (fun _ _ _ _ _ _ => .move) crowd.callers index
          (Routine.steps_turn handle _ _) found

end Crowd

/-- Whatever the other handler answers, this one answers alike. It may answer where the other one has
to wait. -/
def Handler.Covers (handle other : Handler ε σ) : Prop :=
  ∀ β effect state answered, other β effect state = some answered →
    handle β effect state = some answered

variable {handle other : Handler ε σ} {program : κ → Routine ε α} {elsewhere : σ → σ → Prop}

theorem Routine.Step.covered (covers : handle.Covers other) {start last : Routine ε α × σ}
    (step : Routine.Step other start last) : Routine.Step handle start last := by
  induction step with
  | pause rest state => exact .pause rest state
  | call rest handled => exact .call rest (covers _ _ _ _ handled)
  | left right rest _ ih => exact .left right rest ih
  | right left rest _ ih => exact .right left rest ih
  | join b c rest state => exact .join b c rest state

/-- What a crowd can become, it can become when fewer effects have to wait. -/
theorem Crowd.Reaches.covered (covers : handle.Covers other) {crowd later : Crowd κ ε α σ}
    (reached : Crowd.Reaches other program elsewhere crowd later) :
    Crowd.Reaches handle program elsewhere crowd later := by
  induction reached with
  | refl => exact .refl
  | tail _ step ih =>
      refine ih.tail ?_
      cases step with
      | come purpose => exact .come purpose
      | move found inner => exact .move found (inner.covered covers)
      | change changed => exact .change changed

end FieldCrypt
