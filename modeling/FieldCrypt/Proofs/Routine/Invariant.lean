import FieldCrypt.Proofs.Routine.Phases

/-!
# Invariants of the state that routines share

A routine keeps an invariant of the state when each of its effects is answered wherever the
invariant holds and leaves the invariant behind. What others do in between does not matter to it as
long as they keep the invariant too, and so its result can be told from the invariant alone. This is
what it is to uphold invariants that are the same one in every phase.
-/

namespace FieldCrypt

variable {ε : Type → Type} {σ α β γ κ φ : Type} [Preorder φ]

namespace Routine

/-- Wherever the invariant holds, every effect is answered and leaves it behind, and the routine
ends with a result that has the property. -/
def Keeps (handle : Handler ε σ) (invariant : σ → Prop) :
    {α : Type} → Routine ε α → (α → Prop) → Prop
  | _, done result, post => post result
  | _, pause rest, post => rest.Keeps handle invariant post
  | _, call effect rest, post => ∀ state, invariant state →
      ∃ answer next, handle _ effect state = some (answer, next) ∧ invariant next ∧
        (rest answer).Keeps handle invariant post
  | _, both left right rest, post => ∃ ofLeft ofRight,
      left.Keeps handle invariant ofLeft ∧ right.Keeps handle invariant ofRight ∧
        ∀ b c, ofLeft b → ofRight c → (rest b c).Keeps handle invariant post

variable {handle : Handler ε σ} {invariant : σ → Prop}

/-- An invariant is kept when it is upheld as the same one in every phase. -/
theorem keeps_iff_upholds (phase : φ) {routine : Routine ε α} {post : α → Prop} :
    routine.Keeps handle invariant post ↔
      routine.Upholds handle (fun _ => invariant) phase post := by
  induction routine generalizing phase with
  | done result => exact Iff.rfl
  | pause rest ih => exact ih phase
  | call effect rest ih =>
      constructor
      · intro keeps now _ state holds
        obtain ⟨answer, next, handled, kept, after⟩ := keeps state holds
        exact ⟨answer, next, now, handled, le_refl _, kept, (ih answer now).mp after⟩
      · intro upholds state holds
        obtain ⟨answer, next, now, handled, -, kept, after⟩ :=
          upholds phase (le_refl _) state holds
        exact ⟨answer, next, handled, kept, (ih answer now).mpr after⟩
  | both left right rest ihl ihr ih =>
      constructor
      · rintro ⟨ofLeft, ofRight, first, second, after⟩
        exact ⟨ofLeft, ofRight, (ihl phase).mp first, (ihr phase).mp second,
          fun b c hb hc => (ih b c phase).mp (after b c hb hc)⟩
      · rintro ⟨ofLeft, ofRight, first, second, after⟩
        exact ⟨ofLeft, ofRight, (ihl phase).mpr first, (ihr phase).mpr second,
          fun b c hb hc => (ih b c phase).mpr (after b c hb hc)⟩

theorem Keeps.mono {routine : Routine ε α} {post weaker : α → Prop}
    (keeps : routine.Keeps handle invariant post) (weaken : ∀ result, post result → weaker result) :
    routine.Keeps handle invariant weaker :=
  (keeps_iff_upholds ()).mpr (((keeps_iff_upholds ()).mp keeps).mono weaken)

theorem Keeps.bind {routine : Routine ε α} {next : α → Routine ε β} {between : α → Prop}
    {post : β → Prop} (keeps : routine.Keeps handle invariant between)
    (rest : ∀ result, between result → (next result).Keeps handle invariant post) :
    (routine >>= next).Keeps handle invariant post := by
  refine (keeps_iff_upholds ()).mpr (((keeps_iff_upholds ()).mp keeps).bind ?_)
  intro result has
  exact (keeps_iff_upholds ()).mp (rest result has)

/-- A routine keeps an invariant when each of the effects that it can come to does. -/
theorem Only.keeps {p : (β : Type) → ε β → Prop}
    (each : ∀ β effect, p β effect → ∀ state, invariant state →
      ∃ answer next, handle β effect state = some (answer, next) ∧ invariant next)
    {routine : Routine ε α} (only : routine.Only p) :
    routine.Keeps handle invariant fun _ => True := by
  induction routine with
  | done result => trivial
  | pause rest ih => exact ih only
  | call effect rest ih =>
      intro state holds
      obtain ⟨answer, next, handled, kept⟩ := each _ effect only.1 state holds
      exact ⟨answer, next, handled, kept, ih answer (only.2 answer)⟩
  | both left right rest ihl ihr ih =>
      exact ⟨_, _, ihl only.1, ihr only.2.1, fun b c _ _ => ih b c (only.2.2 b c)⟩

/-- However a routine that keeps an invariant ends, it leaves the invariant behind. -/
theorem Keeps.of_ends {routine : Routine ε α} {post : α → Prop} {state last : σ} {result : α}
    (keeps : routine.Keeps handle invariant post) (holds : invariant state)
    (ends : Ends handle routine state result last) : post result ∧ invariant last := by
  obtain ⟨has, _, -, kept⟩ := ((keeps_iff_upholds ()).mp keeps).of_ends holds ends
  exact ⟨has, kept⟩

/-- A routine that keeps an invariant runs to its end. -/
theorem Keeps.run {routine : Routine ε α} {post : α → Prop} {state : σ}
    (keeps : routine.Keeps handle invariant post) (holds : invariant state) :
    ∃ result last, run handle routine state = some (result, last) ∧ invariant last ∧
      post result := by
  obtain ⟨result, last, ran, -⟩ := ((keeps_iff_upholds ()).mp keeps).run holds
  obtain ⟨has, kept⟩ := keeps.of_ends holds (ends_of_run ran)
  exact ⟨result, last, ran, kept, has⟩

end Routine

/-- The invariant holds of what a crowd shares, and each caller keeps it and ends with what its
purpose asks for. -/
structure Crowd.Keeping (handle : Handler ε σ) (invariant : σ → Prop) (post : κ → α → Prop)
    (crowd : Crowd κ ε α σ) : Prop where
  holds : invariant crowd.state
  callers : ∀ (index : Nat) (purpose : κ) (routine : Routine ε α),
    crowd.callers[index]? = some (purpose, routine) →
    routine.Keeps handle invariant (post purpose)

namespace Crowd.Keeping

open Routine (keeps_iff_upholds)

variable {handle : Handler ε σ} {program : κ → Routine ε α} {elsewhere : σ → σ → Prop}
  {invariant : σ → Prop} {post : κ → α → Prop} {crowd later : Crowd κ ε α σ}

theorem iff_upholding (phase : φ) : crowd.Keeping handle invariant post ↔
    crowd.Upholding handle (fun _ => invariant) post phase where
  mp keeping := ⟨keeping.holds, fun index purpose routine found =>
    (keeps_iff_upholds phase).mp (keeping.callers index purpose routine found)⟩
  mpr upholding := ⟨upholding.holds, fun index purpose routine found =>
    (keeps_iff_upholds phase).mpr (upholding.callers index purpose routine found)⟩

theorem come (keeping : crowd.Keeping handle invariant post) {purpose : κ} {routine : Routine ε α}
    (keeps : routine.Keeps handle invariant (post purpose)) :
    Keeping handle invariant post
      { crowd with callers := crowd.callers ++ [(purpose, routine)] } :=
  (iff_upholding ()).mpr (((iff_upholding ()).mp keeping).come ((keeps_iff_upholds ()).mp keeps))

theorem move (keeping : crowd.Keeping handle invariant post) {index : Nat} {purpose : κ}
    {routine routine' : Routine ε α} {state : σ}
    (found : crowd.callers[index]? = some (purpose, routine))
    (step : Routine.Step handle (routine, crowd.state) (routine', state)) :
    Keeping handle invariant post ⟨crowd.callers.set index (purpose, routine'), state⟩ := by
  obtain ⟨_, -, upholding⟩ := ((iff_upholding ()).mp keeping).move found step
  exact (iff_upholding ()).mpr upholding

theorem step (keeping : crowd.Keeping handle invariant post)
    (keeps : ∀ purpose, (program purpose).Keeps handle invariant (post purpose))
    (kept : ∀ before after, elsewhere before after → invariant before → invariant after)
    (step : Crowd.Step handle program elsewhere crowd later) :
    later.Keeping handle invariant post := by
  cases step with
  | come purpose => exact keeping.come (keeps purpose)
  | move found inner => exact keeping.move found inner
  | change changed => exact ⟨kept _ _ changed keeping.holds, keeping.callers⟩

/-- If all callers keep an invariant, and so does whatever else goes on, then it holds for ever and
everybody comes to what they are after. -/
theorem reaches (nobody : crowd.callers = []) (holds : invariant crowd.state)
    (keeps : ∀ purpose, (program purpose).Keeps handle invariant (post purpose))
    (kept : ∀ before after, elsewhere before after → invariant before → invariant after)
    (reached : Crowd.Reaches handle program elsewhere crowd later) :
    later.Keeping handle invariant post := by
  have start : crowd.Keeping handle invariant post := (iff_upholding ()).mpr (.start nobody holds)
  exact reached.keeps _ (fun _ _ step keeping => keeping.step keeps kept step) start

end Crowd.Keeping

end FieldCrypt
