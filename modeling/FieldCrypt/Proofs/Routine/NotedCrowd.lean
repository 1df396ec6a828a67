import FieldCrypt.Proofs.Routine.Crowd
import FieldCrypt.Proofs.Routine.Notes
import Mathlib.Logic.Function.Basic

/-!
# What the callers of a crowd note

A crowd comes about by steps, each of which is made by one caller or by none. `Noted` keeps for every
place what the caller there has noted at its own steps; every way in which a crowd can come about is
told like this (`reaches_iff_noted`). What a caller has noted when it ends is what its routine may
note, whatever the others did meanwhile.
-/

namespace FieldCrypt.Crowd

variable {κ : Type} {ε : Type → Type} {α σ ℓ : Type} {handle : Handler ε σ}
  {note : (β : Type) → ε β → σ → List ℓ} {program : κ → Routine ε α} {elsewhere : σ → σ → Prop}
  {start crowd : Crowd κ ε α σ} {notes : Nat → Notes ℓ}

/-- The crowd has come about, and in each place this was noted on the way. -/
inductive Noted (handle : Handler ε σ) (note : (β : Type) → ε β → σ → List ℓ)
    (program : κ → Routine ε α) (elsewhere : σ → σ → Prop) (start : Crowd κ ε α σ) :
    Crowd κ ε α σ → (Nat → Notes ℓ) → Prop where
  | start : Noted handle note program elsewhere start start fun _ => []
  | come {crowd : Crowd κ ε α σ} {notes : Nat → Notes ℓ}
      (noted : Noted handle note program elsewhere start crowd notes) (purpose : κ) :
      Noted handle note program elsewhere start
        { crowd with callers := crowd.callers ++ [(purpose, program purpose)] } notes
  | move {crowd : Crowd κ ε α σ} {notes : Nat → Notes ℓ} {index : Nat} {purpose : κ}
      {routine routine' : Routine ε α} {state : σ} {later : Notes ℓ}
      (noted : Noted handle note program elsewhere start crowd notes)
      (found : crowd.callers[index]? = some (purpose, routine))
      (step : Routine.NotedStep handle note (routine, crowd.state) later (routine', state)) :
      Noted handle note program elsewhere start
        ⟨crowd.callers.set index (purpose, routine'), state⟩
        (Function.update notes index (notes index ++ later))
  | change {crowd : Crowd κ ε α σ} {notes : Nat → Notes ℓ} {state : σ}
      (noted : Noted handle note program elsewhere start crowd notes)
      (changed : elsewhere crowd.state state) :
      Noted handle note program elsewhere start { crowd with state } notes

/-- Notes leave nothing out and forbid nothing. -/
theorem reaches_iff_noted :
    Reaches handle program elsewhere start crowd ↔
      ∃ notes, Noted handle note program elsewhere start crowd notes := by
  constructor
  · intro reached
    induction reached with
    | refl => exact ⟨_, .start⟩
    | tail _ step ih =>
        obtain ⟨notes, noted⟩ := ih
        cases step with
        | come purpose => exact ⟨_, noted.come purpose⟩
        | move found inner =>
            obtain ⟨later, inner⟩ := Routine.step_iff_noted.mp inner
            exact ⟨_, noted.move found inner⟩
        | change changed => exact ⟨_, noted.change changed⟩
  · rintro ⟨notes, noted⟩
    induction noted with
    | start => exact .refl
    | come _ purpose ih => exact ih.tail (.come purpose)
    | move _ found inner ih => exact ih.tail (.move found (Routine.step_iff_noted.mpr ⟨_, inner⟩))
    | change _ changed ih => exact ih.tail (.change changed)

/-- Where nobody has come yet nothing is noted. -/
theorem Noted.silent (noted : Noted handle note program elsewhere start crowd notes) {index : Nat}
    (beyond : crowd.callers.length ≤ index) : notes index = [] := by
  induction noted with
  | start => rfl
  | come _ purpose ih =>
      apply ih
      rw [List.length_append] at beyond
      exact Nat.le_trans (Nat.le_add_right _ _) beyond
  | @move crowd _ place _ _ _ _ _ _ found _ ih =>
      rw [List.length_set] at beyond
      have there : place < crowd.callers.length := (List.getElem?_eq_some_iff.mp found).1
      rw [Function.update_of_ne (Nat.ne_of_gt (Nat.lt_of_lt_of_le there beyond))]
      exact ih beyond
  | change _ _ ih => exact ih beyond

/-- What a caller has noted, with what is left of its routine to note, is what its routine may note
from the beginning. -/
theorem Noted.recounts_rest (noted : Noted handle note program elsewhere start crowd notes)
    (nobody : start.callers = []) {index : Nat} {purpose : κ} {routine : Routine ε α}
    (found : crowd.callers[index]? = some (purpose, routine)) {later : Notes ℓ} {result : α}
    (recounts : routine.Recounts handle note later result) :
    (program purpose).Recounts handle note (notes index ++ later) result := by
  -- Along the way in which the crowd came about: a step of this caller turns what is left to note into
  -- what it has noted, and everything else leaves both as they are.
  induction noted generalizing index purpose routine later with
  | start =>
      rw [nobody] at found
      cases found
  | come noted newcomer ih =>
      rcases caller_come found with before | ⟨rfl, new⟩
      · exact ih before recounts
      · obtain ⟨rfl, rfl⟩ := Prod.mk.inj new
        rw [noted.silent (Nat.le_refl _)]
        exact recounts
  | move _ there step ih =>
      rcases caller_move found with ⟨rfl, moved⟩ | ⟨other, before⟩
      · obtain ⟨rfl, rfl⟩ := Prod.mk.inj moved
        rw [Function.update_self, List.append_assoc]
        exact ih there (step.recounts recounts)
      · rw [Function.update_of_ne other]
        exact ih before recounts
  | change _ _ ih => exact ih found recounts

/-- What a caller has noted when it ends is what its routine may note until then. -/
theorem Noted.recounts (noted : Noted handle note program elsewhere start crowd notes)
    (nobody : start.callers = []) {index : Nat} {purpose : κ} {result : α}
    (ended : crowd.Ended index purpose result) :
    (program purpose).Recounts handle note (notes index) result := by
  rw [← List.append_nil (notes index)]
  exact noted.recounts_rest nobody ended ⟨rfl, rfl⟩

end FieldCrypt.Crowd
