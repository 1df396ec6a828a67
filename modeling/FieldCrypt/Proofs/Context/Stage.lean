import FieldCrypt.Proofs.Client.Effects

/-!
# The stages of a caller that wants a key

A caller of `Context.bindOnce` looks for the key, queues for the guard, looks again, and creates a
key if there is none. `Stage` says where it stands under the URL of the context and the ticket that
the guard serves; `Stage.step` says all that one step of a caller can do to the context.
-/

namespace FieldCrypt.Context

variable {σ : Type} {context : ContextId}

/-- The outcome of a caller that wants a key. -/
abbrev KeyOutcome := Except RecordError KeyUri

/-- Let the next caller in, and end. -/
def leave (context : ContextId) (outcome : KeyOutcome) : Routine Effect KeyOutcome :=
  .call (.release context) fun _ => .done outcome

/-- Bind the context to the key that was created, if one was. -/
def settle (context : ContextId) : KeyOutcome → Routine Effect KeyOutcome
  | .ok uri => .call (.bind context uri) fun _ => leave context (.ok uri)
  | .error error => leave context (.error error)

/-- Look again, and create a key if there is still none. -/
def recheck (context : ContextId) (create : Routine Effect KeyOutcome) :
    Routine Effect KeyOutcome :=
  .call (.keyUrl context) fun
    | some uri => leave context (.ok uri)
    | none => create >>= settle context

def await (context : ContextId) (create : Routine Effect KeyOutcome) (ticket : Nat) :
    Routine Effect KeyOutcome :=
  .call (.await context ticket) fun _ => recheck context create

def queue (context : ContextId) (create : Routine Effect KeyOutcome) :
    Routine Effect KeyOutcome :=
  .call (.arrive context) fun ticket => await context create ticket

theorem bindOnce_eq (context : ContextId) (create : Routine Effect KeyOutcome) :
    bindOnce context create = .call (.keyUrl context) fun
      | some uri => .done (.ok uri)
      | none => queue context create := by
  have settled (outcome : KeyOutcome) :
      ((match outcome with
        | .ok uri => do
          let _ ← Routine.ask (.bind context uri)
          return .ok uri
        | .error error => return .error error : Routine Effect KeyOutcome) >>= leave context) =
      settle context outcome := by
    cases outcome <;> rfl
  refine congrArg (Routine.call _) (funext fun url => ?_)
  cases url with
  | some uri => rfl
  | none =>
      refine congrArg (Routine.call _) (funext fun ticket => ?_)
      refine congrArg (Routine.call _) (funext fun _ => ?_)
      refine congrArg (Routine.call _) (funext fun again => ?_)
      cases again with
      | some uri => rfl
      | none => exact (Routine.bind_assoc create _ _).trans (congrArg _ (funext settled))

/-- The effects of an attempt at a new key: those of a client, and binding the context. -/
def OfAttempt : (β : Type) → Effect β → Prop
  | _, .bind .. => True
  | _, effect => effect.OfClient

/-- Where a caller stands, with the ticket that it holds. -/
inductive Stage (context : ContextId) (url : Option KeyUri) (serving : Nat) :
    Option Nat → Routine Effect KeyOutcome → Prop where
  | outside {create : Routine Effect KeyOutcome} (modest : create.Only Effect.OfClient) :
      Stage context url serving none (bindOnce context create)
  | queueing {create : Routine Effect KeyOutcome} (modest : create.Only Effect.OfClient) :
      Stage context url serving none (queue context create)
  | waiting {create : Routine Effect KeyOutcome} {ticket : Nat}
      (modest : create.Only Effect.OfClient) (due : serving ≤ ticket) :
      Stage context url serving (some ticket) (await context create ticket)
  | admitted {create : Routine Effect KeyOutcome} (modest : create.Only Effect.OfClient) :
      Stage context url serving (some serving) (recheck context create)
  | attempting {work : Routine Effect KeyOutcome} (modest : work.Only Effect.OfClient)
      (unbound : url = none) : Stage context url serving (some serving) (work >>= settle context)
  | leaving {outcome : KeyOutcome} (agrees : ∀ uri, outcome = .ok uri → url = some uri) :
      Stage context url serving (some serving) (leave context outcome)
  | left {outcome : KeyOutcome} (agrees : ∀ uri, outcome = .ok uri → url = some uri) :
      Stage context url serving none (.done outcome)

section Stages

variable {url : Option KeyUri} {serving : Nat} {ticket : Option Nat}
  {routine : Routine Effect KeyOutcome}

/-- A caller in the midst of an attempt. -/
def Engaged (context : ContextId) (routine : Routine Effect KeyOutcome) : Prop :=
  ∃ work : Routine Effect KeyOutcome, work.Only Effect.OfClient ∧ routine = work >>= settle context

/-- Who makes an attempt is served by the guard, and the context is unbound. -/
theorem Stage.of_wants (stage : Stage context url serving ticket routine)
    (wants : routine.Wants OfAttempt) :
    ticket = some serving ∧ url = none ∧ Engaged context routine := by
  cases stage with
  | outside => rw [bindOnce_eq] at wants; exact wants.elim
  | queueing => exact wants.elim
  | waiting => exact wants.elim
  | admitted => exact wants.elim
  | attempting modest unbound => exact ⟨rfl, unbound, _, modest, rfl⟩
  | leaving => exact wants.elim
  | left => exact wants.elim

/-- Who has ended well has the URL of the context. -/
theorem Stage.url_of_done {uri : KeyUri} (stage : Stage context url serving ticket routine)
    (ended : routine = .done (.ok uri)) : url = some uri := by
  cases stage with
  | outside => rw [bindOnce_eq] at ended; cases ended
  | @attempting work =>
      cases work with
      | done outcome => cases outcome <;> cases ended
      | _ => cases ended
  | left agrees => cases ended; exact agrees uri rfl
  | _ => cases ended

/-- The effects with which a caller gets to the guard and past it. -/
def OfEntering : (β : Type) → Effect β → Prop
  | _, .keyUrl _ | _, .arrive _ | _, .await .. => True
  | _, _ => False

theorem Engaged.not_entering (engaged : Engaged context routine) :
    ¬ routine.Wants OfEntering := by
  obtain ⟨work, modest, rfl⟩ := engaged
  refine modest.not_wants_bind (fun _ effect ofClient entering => ?_) fun outcome => ?_
  · cases effect <;> first | exact ofClient | exact entering
  · cases outcome <;> exact id

theorem Engaged.ne_done (engaged : Engaged context routine) (outcome : KeyOutcome) :
    routine ≠ .done outcome := by
  obtain ⟨work, -, rfl⟩ := engaged
  intro ended
  cases work with
  | done made => cases made <;> cases ended
  | _ => cases ended

/-- Who is in the midst of an attempt is served by the guard. -/
theorem Stage.of_engaged (stage : Stage context url serving ticket routine)
    (engaged : Engaged context routine) : ticket = some serving := by
  cases stage with
  | outside => exact (engaged.not_entering (by rw [bindOnce_eq]; trivial)).elim
  | queueing => exact (engaged.not_entering trivial).elim
  | waiting => exact (engaged.not_entering trivial).elim
  | admitted | attempting | leaving => rfl
  | left => exact (engaged.ne_done _ rfl).elim

/-- A step in the midst of an attempt leads on in it, or to an error, or binds the context. -/
theorem Engaged.step {environment : Environment σ} {shared shared' : Shared σ}
    {routine' : Routine Effect KeyOutcome} (engaged : Engaged context routine)
    (step : Routine.Step environment.handle (routine, shared) (routine', shared')) :
    Engaged context routine' ∨ (∃ error, routine'.Yields (.error error)) ∨
      (shared'.context context).keyUrl ≠ none := by
  obtain ⟨work, modest, rfl⟩ := engaged
  rcases Routine.step_bind step with ⟨outcome, rfl, last⟩ | ⟨work', inner, rfl⟩
  · cases outcome with
    | ok uri =>
        cases last with
        | call _ handled =>
            obtain ⟨-, rfl⟩ := Prod.mk.inj (Option.some.inj handled)
            rw [Shared.context_setContext]
            exact .inr (.inr (Option.some_ne_none uri))
    | error error =>
        cases last with
        | call _ handled => exact .inr (.inl ⟨error, rfl⟩)
  · exact .inl ⟨work', Routine.Only.step inner modest, rfl⟩

end Stages

/-- What a step of a caller, from one routine to another, makes of the context and of its own
ticket. Only an attempt binds the context, and its caller ends with that URL. -/
inductive Change (routine routine' : Routine Effect KeyOutcome) (before : Context) :
    Context → Option Nat → Option Nat → Prop where
  | keeps (ticket : Option Nat) : Change routine routine' before before ticket ticket
  | arrives : Change routine routine' before { before with guard := before.guard.arrive.2 }
      none (some before.guard.issued)
  | binds (uri : KeyUri) (unbound : before.keyUrl = none) (wants : routine.Wants OfAttempt)
      (yields : routine'.Yields (.ok uri)) :
      Change routine routine' before { before with keyUrl := some uri }
        (some before.guard.serving) (some before.guard.serving)
  | releases : Change routine routine' before { before with guard := before.guard.release }
      (some before.guard.serving) none

/-- One step of a caller, at whatever stage it stands. -/
theorem Stage.step {environment : Environment σ} {shared shared' : Shared σ}
    {ticket : Option Nat} {routine routine' : Routine Effect KeyOutcome}
    (stage : Stage context (shared.context context).keyUrl (shared.context context).guard.serving
      ticket routine)
    (served : (shared.context context).guard.serving ≤ (shared.context context).guard.issued)
    (step : Routine.Step environment.handle (routine, shared) (routine', shared')) :
    ∃ ticket', Change routine routine' (shared.context context) (shared'.context context)
        ticket ticket' ∧
      Stage context (shared'.context context).keyUrl (shared'.context context).guard.serving
        ticket' routine' := by
  cases stage with
  | outside modest =>
      rw [bindOnce_eq] at step
      cases step with
      | call _ handled =>
          obtain ⟨rfl, rfl⟩ := Prod.mk.inj (Option.some.inj handled)
          refine ⟨none, .keeps none, ?_⟩
          cases (shared.context context).keyUrl with
          | some uri => exact .left fun _ same => by cases same; rfl
          | none => exact .queueing modest
  | queueing modest =>
      cases step with
      | call _ handled =>
          obtain ⟨rfl, rfl⟩ := Prod.mk.inj (Option.some.inj handled)
          rw [Shared.context_setContext]
          exact ⟨_, .arrives, .waiting modest served⟩
  | waiting modest due =>
      cases step with
      | call _ handled =>
          simp only [Environment.handle, Guard.admits, decide_eq_true_eq] at handled
          split at handled
          · rename_i admits
            obtain ⟨-, rfl⟩ := Prod.mk.inj (Option.some.inj handled)
            exact ⟨_, .keeps _, admits ▸ .admitted modest⟩
          · cases handled
  | admitted modest =>
      cases step with
      | call _ handled =>
          obtain ⟨rfl, rfl⟩ := Prod.mk.inj (Option.some.inj handled)
          refine ⟨_, .keeps _, ?_⟩
          cases (shared.context context).keyUrl with
          | some uri => exact .leaving fun _ same => by cases same; rfl
          | none => exact .attempting modest rfl
  | @attempting work modest unbound =>
      rcases Routine.step_bind step with ⟨outcome, rfl, last⟩ | ⟨work', inner, rfl⟩
      · cases outcome with
        | ok uri =>
            cases last with
            | call _ handled =>
                obtain ⟨-, rfl⟩ := Prod.mk.inj (Option.some.inj handled)
                rw [Shared.context_setContext]
                exact ⟨_, .binds uri unbound trivial fun _ => rfl,
                  .leaving fun _ same => by cases same; rfl⟩
        | error error =>
            cases last with
            | call _ handled =>
                obtain ⟨-, rfl⟩ := Prod.mk.inj (Option.some.inj handled)
                rw [Shared.context_setContext]
                exact ⟨_, .releases, .left fun _ same => by cases same⟩
      · have same : shared'.context context = shared.context context :=
          congrArg (fun contexts => contexts.get context) (inner.contexts_eq modest)
        rw [same]
        exact ⟨_, .keeps _, .attempting (Routine.Only.step inner modest) unbound⟩
  | leaving agrees =>
      cases step with
      | call _ handled =>
          obtain ⟨-, rfl⟩ := Prod.mk.inj (Option.some.inj handled)
          rw [Shared.context_setContext]
          exact ⟨_, .releases, .left agrees⟩
  | left agrees => cases step

section Others

variable {active active' : Routine Effect KeyOutcome} {before after : Context}
  {mine mine' : Option Nat}

theorem Change.issued_le (change : Change active active' before after mine mine') :
    before.guard.issued ≤ after.guard.issued := by
  cases change with
  | arrives => exact Nat.le_succ _
  | _ => exact Nat.le_refl _

/-- A ticket is the one that was held before, or the one that was drawn. -/
theorem Change.ticket_cases (change : Change active active' before after mine mine') {ticket : Nat}
    (holds : mine' = some ticket) :
    mine = some ticket ∨
      ticket = before.guard.issued ∧ after.guard.issued = before.guard.issued + 1 := by
  cases change with
  | arrives => exact .inr ⟨(Option.some.inj holds).symm, rfl⟩
  | releases => cases holds
  | _ => exact .inl holds

/-- The guard serves no ticket before it is drawn. -/
theorem Change.served (change : Change active active' before after mine mine')
    (served : before.guard.serving ≤ before.guard.issued)
    (issued : ∀ ticket, mine = some ticket → ticket < before.guard.issued) :
    after.guard.serving ≤ after.guard.issued := by
  cases change with
  | keeps | binds => exact served
  | arrives => exact Nat.le_succ_of_le served
  | releases => exact issued _ rfl

/-- A bound context stays bound to its URL. -/
theorem Change.url (change : Change active active' before after mine mine') {uri : KeyUri}
    (bound : before.keyUrl = some uri) : after.keyUrl = some uri := by
  cases change with
  | binds _ unbound =>
      rw [unbound] at bound
      cases bound
  | _ => exact bound

/-- Who binds the context was at an attempt, and ends with the URL that it is bound to. -/
theorem Change.of_binds (change : Change active active' before after mine mine') {uri : KeyUri}
    (unbound : before.keyUrl = none) (bound : after.keyUrl = some uri) :
    active.Wants OfAttempt ∧ active'.Yields (.ok uri) := by
  cases change with
  | binds _ _ wants yields =>
      cases bound
      exact ⟨wants, yields⟩
  | _ =>
      have absurd := unbound.symm.trans bound
      cases absurd

/-- A caller with another ticket stands where it stood. -/
theorem Stage.other {other : Option Nat} {routine : Routine Effect KeyOutcome}
    (stage : Stage context before.keyUrl before.guard.serving other routine)
    (change : Change active active' before after mine mine')
    (apart : ∀ ticket, mine = some ticket → other ≠ some ticket) :
    Stage context after.keyUrl after.guard.serving other routine := by
  cases change with
  | keeps | arrives => exact stage
  | binds _ unbound =>
      have differs := apart _ rfl
      cases stage with
      | outside modest => exact .outside modest
      | queueing modest => exact .queueing modest
      | waiting modest due => exact .waiting modest due
      | admitted | attempting | leaving => exact (differs rfl).elim
      | left agrees =>
          refine .left fun ended same => ?_
          have agreed := agrees ended same
          rw [unbound] at agreed
          cases agreed
  | releases =>
      have differs := apart _ rfl
      cases stage with
      | outside modest => exact .outside modest
      | queueing modest => exact .queueing modest
      | @waiting _ ticket modest due =>
          have later : before.guard.serving ≠ ticket := by
            intro same
            exact differs (congrArg some same.symm)
          exact .waiting modest (Nat.lt_of_le_of_ne due later)
      | admitted | attempting | leaving => exact (differs rfl).elim
      | left agrees => exact .left agrees

end Others

end FieldCrypt.Context
