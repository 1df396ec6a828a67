/-!
# Routines that run side by side

A routine is work laid out in steps: it ends with a result, gives up its turn, asks for an effect
and goes on with the answer, or runs two routines side by side and goes on when both have ended.
What effects mean is left to a handler, so a routine can be run under one schedule and reasoned
about under all of them.
-/

namespace FieldCrypt

/-- Work with a result of type `α` that may ask for the effects `ε`. -/
inductive Routine (ε : Type → Type) : Type → Type 1 where
  | done {α : Type} (result : α) : Routine ε α
  | pause {α : Type} (rest : Routine ε α) : Routine ε α
  | call {α β : Type} (effect : ε β) (rest : β → Routine ε α) : Routine ε α
  | both {α β γ : Type} (left : Routine ε β) (right : Routine ε γ)
      (rest : β → γ → Routine ε α) : Routine ε α

namespace Routine

variable {ε δ : Type → Type} {α β γ : Type}

/-- Go on with the result of a routine. -/
protected def bind {β : Type} : {α : Type} → Routine ε α → (α → Routine ε β) → Routine ε β
  | _, done result, next => next result
  | _, pause rest, next => pause (rest.bind next)
  | _, call effect rest, next => call effect fun answer => (rest answer).bind next
  | _, both left right rest, next => both left right fun b c => (rest b c).bind next

instance : Monad (Routine ε) where
  pure := done
  bind := Routine.bind

@[simp] theorem pure_eq (result : α) : (pure result : Routine ε α) = done result := rfl

@[simp] theorem done_bind (result : α) (next : α → Routine ε β) :
    (done result >>= next) = next result := rfl

@[simp] theorem pause_bind (rest : Routine ε α) (next : α → Routine ε β) :
    (pause rest >>= next) = pause (rest >>= next) := rfl

@[simp] theorem call_bind (effect : ε γ) (rest : γ → Routine ε α) (next : α → Routine ε β) :
    (call effect rest >>= next) = call effect fun answer => rest answer >>= next := rfl

@[simp] theorem both_bind {β' γ' : Type} (left : Routine ε β') (right : Routine ε γ')
    (rest : β' → γ' → Routine ε α) (next : α → Routine ε β) :
    (both left right rest >>= next) = both left right fun b c => rest b c >>= next := rfl

protected theorem bind_pure (routine : Routine ε α) : (routine >>= pure) = routine := by
  change routine.bind done = routine
  induction routine with
  | done result => rfl
  | pause rest ih => exact congrArg pause ih
  | call effect rest ih => exact congrArg (call effect) (funext ih)
  | both left right rest _ _ ih =>
    exact congrArg (both left right) (funext fun b => funext fun c => ih b c)

protected theorem bind_assoc (routine : Routine ε α) (next : α → Routine ε β)
    (last : β → Routine ε γ) :
    (routine >>= next >>= last) = routine >>= fun result => next result >>= last := by
  change (routine.bind next).bind last = routine.bind fun result => (next result).bind last
  induction routine with
  | done result => rfl
  | pause rest ih => exact congrArg pause (ih next)
  | call effect rest ih => exact congrArg (call effect) (funext fun answer => ih answer next)
  | both left right rest _ _ ih =>
    exact congrArg (both left right) (funext fun b => funext fun c => ih b c next)

instance : LawfulMonad (Routine ε) :=
  .mk' _ (fun routine => Routine.bind_pure routine) (fun _ _ => rfl) Routine.bind_assoc

/-- Ask for one effect. -/
def ask (effect : ε α) : Routine ε α := call effect done

/-- Run routines side by side and collect their results in order. -/
def all : List (Routine ε α) → Routine ε (List α)
  | [] => done []
  | first :: rest => both first (all rest) fun result results => done (result :: results)

/-- The same work with its effects renamed. -/
def mapEffects (rename : {β : Type} → ε β → δ β) : {α : Type} → Routine ε α → Routine δ α
  | _, done result => done result
  | _, pause rest => pause (rest.mapEffects rename)
  | _, call effect rest => call (rename effect) fun answer => (rest answer).mapEffects rename
  | _, both left right rest =>
    both (left.mapEffects rename) (right.mapEffects rename)
      fun b c => (rest b c).mapEffects rename

/-- The result of a routine that has ended. -/
def result? : Routine ε α → Option α
  | done result => some result
  | _ => none

@[simp] theorem result?_done (result : α) : (done result : Routine ε α).result? = some result := rfl

theorem eq_done_of_result? {routine : Routine ε α} {result : α}
    (h : routine.result? = some result) : routine = done result := by
  cases routine <;> simp_all [result?]

/-- One routine is what another becomes by a single step, whatever its effects answer. -/
inductive After : {α : Type} → Routine ε α → Routine ε α → Prop where
  | pause {α : Type} (rest : Routine ε α) : After rest (pause rest)
  | call {α β : Type} (effect : ε β) (rest : β → Routine ε α) (answer : β) :
      After (rest answer) (call effect rest)
  | left {α β γ : Type} {left left' : Routine ε β} (right : Routine ε γ)
      (rest : β → γ → Routine ε α) (step : After left' left) :
      After (both left' right rest) (both left right rest)
  | right {α β γ : Type} (left : Routine ε β) {right right' : Routine ε γ}
      (rest : β → γ → Routine ε α) (step : After right' right) :
      After (both left right' rest) (both left right rest)
  | join {α β γ : Type} (left : Routine ε β) (right : Routine ε γ) (rest : β → γ → Routine ε α)
      (b : β) (c : γ) : After (rest b c) (both left right rest)

theorem acc_both {left : Routine ε β} {right : Routine ε γ} {rest : β → γ → Routine ε α}
    (hl : Acc After left) (hr : Acc After right) (hk : ∀ b c, Acc After (rest b c)) :
    Acc After (both left right rest) := by
  induction hl generalizing right with
  | intro left _ ihl =>
    induction hr with
    | intro right hr ihr =>
      refine Acc.intro _ fun next step => ?_
      cases step with
      | left _ _ step => exact ihl _ step (Acc.intro right hr)
      | right _ _ step => exact ihr _ step
      | join _ _ _ b c => exact hk b c

/-- No routine goes on for ever: its steps are bounded, whatever its effects answer. -/
theorem acc_after (routine : Routine ε α) : Acc After routine := by
  induction routine with
  | done result => exact Acc.intro _ fun _ step => nomatch step
  | pause rest ih =>
    refine Acc.intro _ fun next step => ?_
    cases step
    exact ih
  | call effect rest ih =>
    refine Acc.intro _ fun next step => ?_
    cases step
    exact ih _
  | both left right rest ihl ihr ihk => exact acc_both ihl ihr ihk

instance : WellFoundedRelation (Routine ε α) where
  rel := Relation.TransGen After
  wf := ⟨fun routine => (acc_after routine).transGen⟩

end Routine

end FieldCrypt
