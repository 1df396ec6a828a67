import FieldCrypt.Proofs.Routine.Alike
import Mathlib.Logic.Function.Iterate

/-!
# Running routines part by part

A run goes through a routine constructor by constructor, and a routine that goes on with another one
is run by running one after the other. A handler may keep a record of what it is asked for, which
makes no difference to a run.
-/

namespace FieldCrypt

variable {ε : Type → Type} {σ α β γ ι ℓ : Type}

namespace Routine

variable {handle : Handler ε σ}

@[simp] theorem run_done (result : α) (state : σ) :
    run handle (done result) state = some (result, state) := by
  rw [run]
  rfl

/-- A turn more or less makes no difference to a run. -/
theorem run_turn (routine : Routine ε α) (state : σ) :
    run handle (turn handle routine state).rest (turn handle routine state).state =
      run handle routine state := by
  rcases turn_after handle routine state with ⟨moved, -⟩ | ⟨-, same, stays⟩
  · rw [run.eq_def handle routine state]
    split
    · rename_i result ended
      rw [eq_done_of_result? ended, run_done]
    · rw [dif_pos moved]
  · rw [same, stays]

@[simp] theorem run_pause (rest : Routine ε α) (state : σ) :
    run handle (pause rest) state = run handle rest state :=
  (run_turn (pause rest) state).symm

/-- A run goes on with the answer to an effect. -/
theorem run_call {effect : ε β} {state next : σ} {answer : β}
    (handled : handle _ effect state = some (answer, next)) (rest : β → Routine ε α) :
    run handle (call effect rest) state = run handle (rest answer) next := by
  let after := turn handle (rest answer) next
  calc run handle (call effect rest) state
    _ = run handle (turn handle (call effect rest) state).rest
          (turn handle (call effect rest) state).state := (run_turn _ state).symm
    _ = run handle after.rest after.state := by simp only [turn, handled, after]
    _ = run handle (rest answer) next := run_turn (rest answer) next

/-- A run that has to wait for an answer has no end. -/
theorem run_call_none {effect : ε β} {state : σ} (waits : handle _ effect state = none)
    (rest : β → Routine ε α) : run handle (call effect rest) state = none := by
  rw [run]
  simp [turn, waits, result?]

theorem turn_call {effect : ε β} {state next : σ} {answer : β}
    (handled : handle _ effect state = some (answer, next)) (rest : β → Routine ε α) :
    turn handle (call effect rest) state =
      ⟨(turn handle (rest answer) next).rest, (turn handle (rest answer) next).state, true⟩ := by
  simp only [turn, handled]

theorem turn_call_none {effect : ε β} {state : σ} (waits : handle _ effect state = none)
    (rest : β → Routine ε α) :
    turn handle (call effect rest) state = ⟨call effect rest, state, false⟩ := by
  simp only [turn, waits]

/-- A turn of routines side by side that have not both ended. -/
theorem turn_both {left : Routine ε β} {right : Routine ε γ} {state : σ}
    (waits : ∀ b c, (turn handle left state).rest.result? = some b →
      (turn handle right (turn handle left state).state).rest.result? = some c → False)
    (rest : β → γ → Routine ε α) :
    turn handle (both left right rest) state =
      ⟨both (turn handle left state).rest
          (turn handle right (turn handle left state).state).rest rest,
        (turn handle right (turn handle left state).state).state,
        (turn handle left state).moved ||
          (turn handle right (turn handle left state).state).moved⟩ := by
  rw [turn]
  split
  · rename_i b c hb hc
    exact (waits b c hb hc).elim
  · rfl

/-- A turn of routines side by side that leaves one of them unended, from the turns of both. -/
theorem turn_both_apart {left left' : Routine ε β} {right right' : Routine ε γ}
    {state middle last : σ} {movedLeft movedRight : Bool}
    (first : turn handle left state = ⟨left', middle, movedLeft⟩)
    (second : turn handle right middle = ⟨right', last, movedRight⟩)
    (waits : left'.result? = none ∨ right'.result? = none) (rest : β → γ → Routine ε α) :
    turn handle (both left right rest) state =
      ⟨both left' right' rest, last, movedLeft || movedRight⟩ := by
  have apart : ∀ b c, left'.result? = some b → right'.result? = some c → False := by
    intro b c endedLeft endedRight
    rcases waits with waits | waits
    · cases waits.symm.trans endedLeft
    · cases waits.symm.trans endedRight
  rw [turn_both (by rw [first, second]; exact apart), first, second]

/-- A turn of routines side by side that ends both, from the turns of both. -/
theorem turn_both_done {left : Routine ε β} {right : Routine ε γ} {state middle last : σ} {b : β}
    {c : γ} {movedLeft movedRight : Bool}
    (first : turn handle left state = ⟨done b, middle, movedLeft⟩)
    (second : turn handle right middle = ⟨done c, last, movedRight⟩)
    (rest : β → γ → Routine ε α) :
    turn handle (both left right rest) state =
      ⟨(turn handle (rest b c) last).rest, (turn handle (rest b c) last).state, true⟩ := by
  simp only [turn, first, second, result?_done]

/-- Routines side by side get a turn each. They go on together when both have ended. -/
theorem run_both (left : Routine ε β) (right : Routine ε γ) (rest : β → γ → Routine ε α)
    (state : σ) :
    run handle (both left right rest) state =
      let first := turn handle left state
      let second := turn handle right first.state
      match first.rest.result?, second.rest.result? with
      | some b, some c => run handle (rest b c) second.state
      | _, _ =>
        if first.moved || second.moved then
          run handle (both first.rest second.rest rest) second.state
        else none := by
  simp only
  split
  · rename_i b c hb hc
    rw [← run_turn (both left right rest) state, ← run_turn (rest b c)]
    simp only [turn, hb, hc]
  · rename_i waits
    rw [run, turn_both waits]
    simp [result?]

/-- Running one routine after another. -/
theorem run_bind (routine : Routine ε α) (next : α → Routine ε β) (state : σ) :
    run handle (routine >>= next) state =
      (run handle routine state).bind fun ended => run handle (next ended.1) ended.2 := by
  induction routine using (WellFoundedRelation.wf (α := Routine ε α)).induction
    generalizing state with
  | _ routine ih =>
      cases routine with
      | done result => rw [done_bind, run_done, Option.bind_some]
      | pause rest =>
          rw [pause_bind, run_pause, run_pause]
          exact ih rest (.single (.pause rest)) state
      | call effect rest =>
          rw [call_bind]
          cases handled : handle _ effect state with
          | none => rw [run_call_none handled, run_call_none handled, Option.bind_none]
          | some answered =>
              rw [run_call handled, run_call handled]
              exact ih _ (.single (.call effect rest answered.1)) answered.2
      | both left right rest =>
          rw [both_bind, run_both, run_both]
          simp only
          split
          · rename_i b c _ _
            exact ih _ (.single (.join left right rest b c)) _
          · rename_i waits
            split
            · rename_i moved
              rw [← both_bind]
              refine ih _ ?_ _
              have turned := turn_both waits rest
              have less : Relation.TransGen After
                  (turn handle (both left right rest) state).rest (both left right rest) := by
                apply turn_less
                rw [turned]
                exact moved
              rw [turned] at less
              exact less
            · rfl

/-- When one of two routines has ended, the other one goes on by itself. -/
theorem run_both_done (result : β) (right : Routine ε γ) (rest : β → γ → Routine ε α)
    (state : σ) :
    run handle (both (done result) right rest) state =
      run handle (right >>= rest result) state := by
  induction right using (WellFoundedRelation.wf (α := Routine ε γ)).induction
    generalizing state with
  | _ right ih =>
      rw [run_both, run_bind, run]
      simp only [turn, result?_done, Bool.false_or]
      split
      · rename_i b c same ended
        obtain rfl := Option.some.inj same
        rw [ended]
        rfl
      · rename_i waits
        have unended : (turn handle right state).rest.result? = none := by
          cases ended : (turn handle right state).rest.result? with
          | none => rfl
          | some c => exact (waits _ c rfl ended).elim
        simp only [unended]
        split
        · rename_i moved
          rw [ih _ (turn_less moved), run_bind]
        · rfl

/-- Running routines one after another goes through their list. -/
theorem run_mapM_cons (routine : ι → Routine ε α) (item : ι) (items : List ι) (state : σ) :
    run handle ((item :: items).mapM routine) state =
      (run handle (routine item) state).bind fun first =>
        (run handle (items.mapM routine) first.2).map fun others =>
          (first.1 :: others.1, others.2) := by
  rw [List.mapM_cons, run_bind]
  refine congrArg _ (funext fun first => ?_)
  rw [run_bind]
  cases run handle (items.mapM routine) first.2 with
  | none => rfl
  | some others => exact run_done _ _

/-- To run one after another is one way in which routines side by side can take their steps. -/
theorem ends_all_of_run_mapM {routine : ι → Routine ε α} {items : List ι} {state last : σ}
    {results : List α} (ran : run handle (items.mapM routine) state = some (results, last)) :
    Ends handle (all (items.map routine)) state results last := by
  induction items generalizing state results with
  | nil =>
      obtain ⟨rfl, rfl⟩ := Prod.mk.inj (Option.some.inj ((run_done _ _).symm.trans ran))
      exact .refl _
  | cons item items ih =>
      rw [run_mapM_cons] at ran
      obtain ⟨⟨result, middle⟩, first, ran⟩ := Option.bind_eq_some_iff.mp ran
      obtain ⟨⟨others, _⟩, later, same⟩ := Option.map_eq_some_iff.mp ran
      obtain ⟨rfl, rfl⟩ := Prod.mk.inj same
      have alone := (ends_of_run first).left (all (items.map routine))
        fun result results => done (result :: results)
      have rest := (ih later).right (done result) fun result results => done (result :: results)
      exact (alone.trans rest).tail (.join result others _ _)

/-- A turn of what is left. -/
def round (handle : Handler ε σ) (now : Routine ε α × σ) : Routine ε α × σ :=
  ((turn handle now.1 now.2).rest, (turn handle now.1 now.2).state)

/-- Turns are one way in which steps are taken. -/
theorem steps_rounds (rounds : Nat) (start : Routine ε α × σ) :
    Steps handle start ((round handle)^[rounds] start) := by
  induction rounds generalizing start with
  | zero => exact .refl start
  | succ rounds ih => exact (steps_turn handle start.1 start.2).trans (ih (round handle start))

/-- What has ended after some turns can end in this way. -/
theorem ends_of_rounds {rounds : Nat} {routine : Routine ε α} {state : σ} {result : α}
    (ended : ((round handle)^[rounds] (routine, state)).1.result? = some result) :
    Ends handle routine state result ((round handle)^[rounds] (routine, state)).2 := by
  rw [Ends, ← eq_done_of_result? ended]
  exact steps_rounds rounds (routine, state)

/-- A run that comes to an end does so after some number of turns. -/
theorem exists_rounds {routine : Routine ε α} {state last : σ} {result : α}
    (ran : run handle routine state = some (result, last)) :
    ∃ rounds, (round handle)^[rounds] (routine, state) = (done result, last) := by
  induction routine using (WellFoundedRelation.wf (α := Routine ε α)).induction
    generalizing state with
  | _ routine ih =>
      rw [run] at ran
      split at ran
      · rename_i found ended
        obtain ⟨rfl, rfl⟩ := Prod.mk.inj (Option.some.inj ran)
        exact ⟨1, Prod.ext (eq_done_of_result? ended) rfl⟩
      · split at ran
        · rename_i moved
          obtain ⟨rounds, ended⟩ := ih _ (turn_less moved) ran
          exact ⟨rounds + 1, ended⟩
        · cases ran

end Routine

/-- A handler that keeps a record of what is noted about the effects and their answers. -/
def Handler.recording (handle : Handler ε σ) (note : (β : Type) → ε β → β → List ℓ) :
    Handler ε (σ × List ℓ) :=
  fun β effect state => (handle β effect state.1).map fun (answer, next) =>
    (answer, next, state.2 ++ note β effect answer)

/-- An effect about which nothing is noted adds nothing to the record. -/
theorem Handler.recording_silent {handle : Handler ε σ} {note : (β : Type) → ε β → β → List ℓ}
    {effect : ε β} {state next : σ} {answer : β}
    (handled : handle _ effect state = some (answer, next)) (silent : note _ effect answer = [])
    (record : List ℓ) :
    handle.recording note _ effect (state, record) = some (answer, next, record) := by
  simp only [Handler.recording, handled, Option.map_some, silent, List.append_nil]

namespace Routine

variable {handle : Handler ε σ} {note : (β : Type) → ε β → β → List ℓ}

/-- Effects are answered alike whether a record is kept or not. -/
theorem alike_recording :
    Alike handle (handle.recording note) (fun _ _ => True) fun state noted => noted.1 = state := by
  rintro β effect - _ ⟨state, noted⟩ rfl
  simp only [Handler.recording]
  cases handle β effect state with
  | none => exact .none
  | some answered => exact .some ⟨rfl, rfl⟩

/-- A run comes to the same whether a record is kept or not. -/
theorem run_recording (routine : Routine ε α) (state : σ) (noted : List ℓ) :
    (run (handle.recording note) routine (state, noted)).map (fun ended => (ended.1, ended.2.1)) =
      run handle routine state := by
  have same : Option.Rel (SameResult fun state noted => noted.1 = state)
      (run handle routine state) (run (handle.recording note) routine (state, noted)) :=
    run_alike alike_recording (only_true routine) rfl
  generalize run handle routine state = plain at same ⊢
  generalize run (handle.recording note) routine (state, noted) = recorded at same ⊢
  cases same with
  | none => rfl
  | some same => exact congrArg some (Prod.ext same.1.symm same.2)

theorem run_of_recording {routine : Routine ε α} {state last : σ} {noted record : List ℓ}
    {result : α}
    (ran : run (handle.recording note) routine (state, noted) = some (result, last, record)) :
    run handle routine state = some (result, last) := by
  have plain : (run (handle.recording note) routine (state, noted)).map
      (fun ended => (ended.1, ended.2.1)) = run handle routine state :=
    run_recording routine state noted
  rw [ran] at plain
  exact plain.symm

end Routine

end FieldCrypt
