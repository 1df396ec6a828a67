import FieldCrypt.Proofs.Routine.Holdings
import FieldCrypt.Proofs.Routine.Invariant
import FieldCrypt.Proofs.Routine.Run

/-!
# The one outcome of a routine

A routine leads to an outcome when there is nothing else that it can come to: whatever steps were
taken already, and in whatever order, it can still be run to its end, which is this one. A routine
that keeps an invariant and can be told by it to end with one result does, and so does one that
accounts for what it holds, and one that asks for something first and leads there whatever comes next.
-/

namespace FieldCrypt.Routine

variable {ε : Type → Type} {σ α β ι : Type} {handle : Handler ε σ} {invariant : σ → Prop}

/-- From wherever the routine has got to it runs to this result, and leaves a state like this. -/
def Leads (handle : Handler ε σ) (start : Routine ε α × σ) (result : α) (left : σ → Prop) : Prop :=
  ∀ now, Steps handle start now →
    ∃ last, run handle now.1 now.2 = some (result, last) ∧ left last

theorem Leads.run {routine : Routine ε α} {state : σ} {result : α} {left : σ → Prop}
    (leads : Leads handle (routine, state) result left) :
    ∃ last, run handle routine state = some (result, last) ∧ left last :=
  leads (routine, state) (.refl _)

/-- There is no other end. -/
theorem Leads.of_ends {routine : Routine ε α} {state last : σ} {result other : α}
    {left : σ → Prop} (leads : Leads handle (routine, state) result left)
    (ends : Ends handle routine state other last) : other = result ∧ left last := by
  obtain ⟨last', ran, has⟩ := leads (done other, last) ends
  rw [run_done] at ran
  cases ran
  exact ⟨rfl, has⟩

theorem Leads.mono {start : Routine ε α × σ} {result : α} {left weaker : σ → Prop}
    (leads : Leads handle start result left) (weaken : ∀ last, left last → weaker last) :
    Leads handle start result weaker := by
  intro now steps
  obtain ⟨last, ran, has⟩ := leads now steps
  exact ⟨last, ran, weaken last has⟩

theorem leads_done (result : α) {state : σ} {left : σ → Prop} (has : left state) :
    Leads handle (done result, state) result left := by
  intro now steps
  rcases steps.cases_head with rfl | ⟨_, step, -⟩
  · exact ⟨state, run_done result state, has⟩
  · cases step

/-- A routine that gives up its turn leads to what is left of it leads to. -/
theorem Leads.pause {rest : Routine ε α} {state : σ} {result : α} {left : σ → Prop}
    (leads : Leads handle (rest, state) result left) :
    Leads handle (.pause rest, state) result left := by
  intro now steps
  rcases steps.cases_head with rfl | ⟨_, step, steps⟩
  · rw [run_pause]
    exact leads.run
  · cases step
    exact leads now steps

/-- A routine leads to what it leads to with the answer that it is given. -/
theorem Leads.call {effect : ε β} {rest : β → Routine ε α} {state next : σ} {answer : β}
    {result : α} {left : σ → Prop} (handled : handle _ effect state = some (answer, next))
    (leads : Leads handle (rest answer, next) result left) :
    Leads handle (.call effect rest, state) result left := by
  intro now steps
  rcases steps.cases_head with rfl | ⟨_, step, steps⟩
  · rw [run_call handled]
    exact leads.run
  · cases step with
    | call _ handled' =>
        cases handled.symm.trans handled'
        exact leads now steps

/-- A routine that goes on leads to what it leads to from where its first part leads to. -/
theorem Leads.bind {routine : Routine ε α} {next : α → Routine ε β} {state : σ} {between : α}
    {middle left : σ → Prop} {result : β} (first : Leads handle (routine, state) between middle)
    (second : ∀ state, middle state → Leads handle (next between, state) result left) :
    Leads handle (routine >>= next, state) result left := by
  intro now steps
  rcases steps_bind steps with ⟨routine', steps, same⟩ | ⟨found, state', ends, steps⟩
  -- The first part has not ended yet, or it has ended in the only way it can.
  · obtain ⟨last, ran, has⟩ := first _ steps
    rw [same, run_bind, ran, Option.bind_some]
    exact (second last has).run
  · obtain ⟨rfl, has⟩ := first.of_ends ends
    exact second state' has now steps

/-- A routine that keeps an invariant and always ends with one result leads there. -/
theorem Keeps.leads {routine : Routine ε α} {state : σ} {result : α}
    (keeps : routine.Keeps handle invariant (· = result)) (holds : invariant state) :
    Leads handle (routine, state) result invariant := by
  intro now steps
  obtain ⟨_, -, held, rest⟩ := ((keeps_iff_upholds ()).mp keeps).steps steps holds
  obtain ⟨found, last, ran, kept, rfl⟩ := ((keeps_iff_upholds ()).mpr rest).run held
  exact ⟨last, ran, kept⟩

/-- A routine that accounts for all there is and always ends with one result leads there. -/
theorem Accounts.leads {M : Type} [AddCommMonoid M] {ledger : Ledger M σ} (live : ledger.Live)
    {routine : Routine ε α} {held : M} {state : σ} {result : α}
    (accounts : routine.Accounts handle ledger held (EmptyHanded (· = result)))
    (holds : ledger.agrees held state) :
    Leads handle (routine, state) result (ledger.agrees 0) := by
  intro now steps
  rw [← add_zero held] at holds
  obtain ⟨left, kept, rest⟩ := accounts.steps steps holds
  rw [add_zero] at kept
  obtain ⟨_, last, _, ran, agrees, rfl, rfl⟩ := rest.run live kept
  exact ⟨last, ran, agrees⟩

/-- Routines side by side that keep an invariant, each with its own result, end with the list of
these results. -/
theorem Keeps.all_map {items : List ι} {routine : ι → Routine ε α} {result : ι → α}
    (each : ∀ item ∈ items, (routine item).Keeps handle invariant (· = result item)) :
    (all (items.map routine)).Keeps handle invariant (· = items.map result) := by
  induction items with
  | nil => rfl
  | cons item rest ih =>
      obtain ⟨first, others⟩ := List.forall_mem_cons.mp each
      exact ⟨_, _, first, ih others, fun _ _ same others => congrArg₂ List.cons same others⟩

/-- What is made of these results is known as well. -/
theorem Keeps.all_map_done {items : List ι} {routine : ι → Routine ε α} {result : ι → α}
    (each : ∀ item ∈ items, (routine item).Keeps handle invariant (· = result item))
    (finish : List α → β) :
    (all (items.map routine) >>= fun results => done (finish results)).Keeps handle invariant
      (· = finish (items.map result)) := by
  refine (all_map each).bind ?_
  rintro _ rfl
  rfl

end FieldCrypt.Routine
