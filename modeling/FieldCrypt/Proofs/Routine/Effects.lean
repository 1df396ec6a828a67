import FieldCrypt.Routine.Interleaving

/-!
# Effects of a routine

What a routine may ask for at all, what it asks for next, and the result it ends with whatever the
answers are. A step of a routine that goes on with another one is a step of the first, or the first
has ended.
-/

namespace FieldCrypt.Routine

variable {ε : Type → Type} {σ α β : Type}

/-- Every effect that the routine can come to has the property. -/
def Only (p : (β : Type) → ε β → Prop) : {α : Type} → Routine ε α → Prop
  | _, done _ => True
  | _, pause rest => rest.Only p
  | _, call effect rest => p _ effect ∧ ∀ answer, (rest answer).Only p
  | _, both left right rest => left.Only p ∧ right.Only p ∧ ∀ b c, (rest b c).Only p

/-- The routine asks for one effect after the other, and every one has the property. -/
def Serially (p : (β : Type) → ε β → Prop) : {α : Type} → Routine ε α → Prop
  | _, done _ => True
  | _, pause rest => rest.Serially p
  | _, call effect rest => p _ effect ∧ ∀ answer, (rest answer).Serially p
  | _, both _ _ _ => False

/-- The next effect of the routine, or of a routine it waits for, has the property. -/
def Wants (p : (β : Type) → ε β → Prop) : {α : Type} → Routine ε α → Prop
  | _, done _ => False
  | _, pause rest => rest.Wants p
  | _, call effect _ => p _ effect
  | _, both left right _ => left.Wants p ∨ right.Wants p

/-- Whatever its effects answer, a result that the routine ends with has the property. -/
def Gives : {α : Type} → Routine ε α → (α → Prop) → Prop
  | _, done result, post => post result
  | _, pause rest, post => rest.Gives post
  | _, call _ rest, post => ∀ answer, (rest answer).Gives post
  | _, both left right rest, post => ∃ ofLeft ofRight, left.Gives ofLeft ∧ right.Gives ofRight ∧
      ∀ b c, ofLeft b → ofRight c → (rest b c).Gives post

/-- The routine ends with this result whatever its effects answer. -/
abbrev Yields (routine : Routine ε α) (result : α) : Prop := routine.Gives (· = result)

variable {p q : (β : Type) → ε β → Prop}

theorem only_true (routine : Routine ε α) : routine.Only fun _ _ => True := by
  induction routine with
  | done result => trivial
  | pause rest ih => exact ih
  | call effect rest ih => exact ⟨trivial, ih⟩
  | both left right rest ihl ihr ih => exact ⟨ihl, ihr, ih⟩

theorem Only.mono (weaker : ∀ β effect, p β effect → q β effect) {routine : Routine ε α}
    (only : routine.Only p) : routine.Only q := by
  induction routine with
  | done result => trivial
  | pause rest ih => exact ih only
  | call effect rest ih => exact ⟨weaker _ _ only.1, fun answer => ih answer (only.2 answer)⟩
  | both left right rest ihl ihr ih =>
      exact ⟨ihl only.1, ihr only.2.1, fun b c => ih b c (only.2.2 b c)⟩

theorem Only.bind {routine : Routine ε α} {next : α → Routine ε β} (only : routine.Only p)
    (rest : ∀ result, (next result).Only p) : (routine >>= next).Only p := by
  change (routine.bind next).Only p
  induction routine with
  | done result => exact rest result
  | pause _ ih => exact ih only rest
  | call effect _ ih => exact ⟨only.1, fun answer => ih answer (only.2 answer) rest⟩
  | both left right _ _ _ ih =>
      exact ⟨only.1, only.2.1, fun b c => ih b c (only.2.2 b c) rest⟩

/-- Routines side by side ask for what each of them asks for. -/
theorem Only.all {routines : List (Routine ε α)} (each : ∀ routine ∈ routines, routine.Only p) :
    (Routine.all routines).Only p := by
  induction routines with
  | nil => trivial
  | cons first rest ih =>
      obtain ⟨only, others⟩ := List.forall_mem_cons.mp each
      exact ⟨only, ih others, fun _ _ => trivial⟩

theorem Serially.only {routine : Routine ε α} (serially : routine.Serially p) :
    routine.Only p := by
  induction routine with
  | done result => trivial
  | pause rest ih => exact ih serially
  | call effect rest ih => exact ⟨serially.1, fun answer => ih answer (serially.2 answer)⟩
  | both left right rest => exact serially.elim

theorem Serially.mono (weaker : ∀ β effect, p β effect → q β effect) {routine : Routine ε α}
    (serially : routine.Serially p) : routine.Serially q := by
  induction routine with
  | done result => trivial
  | pause rest ih => exact ih serially
  | call effect rest ih =>
      exact ⟨weaker _ _ serially.1, fun answer => ih answer (serially.2 answer)⟩
  | both left right rest => exact serially.elim

theorem Serially.bind {routine : Routine ε α} {next : α → Routine ε β}
    (serially : routine.Serially p) (rest : ∀ result, (next result).Serially p) :
    (routine >>= next).Serially p := by
  change (routine.bind next).Serially p
  induction routine with
  | done result => exact rest result
  | pause _ ih => exact ih serially rest
  | call effect _ ih => exact ⟨serially.1, fun answer => ih answer (serially.2 answer) rest⟩
  | both left right _ => exact serially.elim

/-- A routine asks for nothing new as it goes on. -/
theorem Only.step {handle : Handler ε σ} {start last : Routine ε α × σ}
    (step : Step handle start last) (only : start.1.Only p) : last.1.Only p := by
  induction step with
  | pause rest state => exact only
  | call rest handled => exact only.2 _
  | left right rest _ ih => exact ⟨ih only.1, only.2⟩
  | right left rest _ ih => exact ⟨only.1, ih only.2.1, only.2.2⟩
  | join b c rest state => exact only.2.2 b c

theorem Only.steps {handle : Handler ε σ} {start last : Routine ε α × σ} (only : start.1.Only p)
    (steps : Steps handle start last) : last.1.Only p := by
  induction steps with
  | refl => exact only
  | tail _ step ih => exact Only.step step ih

/-- What a routine never asks for is not what it asks for next. -/
theorem Only.not_wants (apart : ∀ β effect, p β effect → ¬ q β effect) {routine : Routine ε α}
    (only : routine.Only p) : ¬ routine.Wants q := by
  induction routine with
  | done result => exact id
  | pause rest ih => exact ih only
  | call effect rest _ => exact apart _ effect only.1
  | both left right rest ihl ihr _ =>
      rintro (wants | wants)
      · exact ihl only.1 wants
      · exact ihr only.2.1 wants

theorem Only.not_wants_bind (apart : ∀ β effect, p β effect → ¬ q β effect)
    {routine : Routine ε α} {next : α → Routine ε β} (only : routine.Only p)
    (rest : ∀ result, ¬ (next result).Wants q) : ¬ (routine >>= next).Wants q := by
  change ¬ (routine.bind next).Wants q
  induction routine with
  | done result => exact rest result
  | pause _ ih => exact ih only rest
  | call effect _ _ => exact apart _ effect only.1
  | both left right _ _ _ _ =>
      rintro (wants | wants)
      · exact only.1.not_wants apart wants
      · exact only.2.1.not_wants apart wants

theorem Gives.step {handle : Handler ε σ} {start last : Routine ε α × σ} {post : α → Prop}
    (gives : start.1.Gives post) (step : Step handle start last) : last.1.Gives post := by
  induction step with
  | pause rest state => exact gives
  | call rest handled => exact gives _
  | left right rest _ ih =>
      obtain ⟨ofLeft, ofRight, first, second, after⟩ := gives
      exact ⟨ofLeft, ofRight, ih first, second, after⟩
  | right left rest _ ih =>
      obtain ⟨ofLeft, ofRight, first, second, after⟩ := gives
      exact ⟨ofLeft, ofRight, first, ih second, after⟩
  | join b c rest state =>
      obtain ⟨ofLeft, ofRight, first, second, after⟩ := gives
      exact after b c first second

theorem Gives.of_ends {handle : Handler ε σ} {routine : Routine ε α} {state last : σ}
    {result : α} {post : α → Prop} (gives : routine.Gives post)
    (ends : Ends handle routine state result last) : post result := by
  have kept : ∀ {start last : Routine ε α × σ}, Steps handle start last →
      start.1.Gives post → last.1.Gives post := by
    intro start last steps gives
    induction steps with
    | refl => exact gives
    | tail _ step ih => exact ih.step step
  exact kept ends gives

theorem gives_true (routine : Routine ε α) : routine.Gives fun _ => True := by
  induction routine with
  | done result => trivial
  | pause rest ih => exact ih
  | call effect rest ih => exact ih
  | both left right rest ihl ihr ih =>
      exact ⟨fun _ => True, fun _ => True, ihl, ihr, fun b c _ _ => ih b c⟩

theorem Gives.mono {routine : Routine ε α} {post weaker : α → Prop} (gives : routine.Gives post)
    (implied : ∀ result, post result → weaker result) : routine.Gives weaker := by
  induction routine with
  | done result => exact implied result gives
  | pause _ ih => exact ih gives implied
  | call _ _ ih => exact fun answer => ih answer (gives answer) implied
  | both _ _ _ _ _ ih =>
      obtain ⟨ofLeft, ofRight, first, second, after⟩ := gives
      exact ⟨ofLeft, ofRight, first, second, fun b c hb hc => ih b c (after b c hb hc) implied⟩

theorem Gives.bind {routine : Routine ε α} {next : α → Routine ε β} {between : α → Prop}
    {post : β → Prop} (gives : routine.Gives between)
    (rest : ∀ result, between result → (next result).Gives post) :
    (routine >>= next).Gives post := by
  change (routine.bind next).Gives post
  induction routine with
  | done result => exact rest result gives
  | pause _ ih => exact ih gives rest
  | call _ _ ih => exact fun answer => ih answer (gives answer) rest
  | both _ _ _ _ _ ih =>
      obtain ⟨ofLeft, ofRight, first, second, after⟩ := gives
      exact ⟨ofLeft, ofRight, first, second, fun b c hb hc => ih b c (after b c hb hc) rest⟩

/-- Routines side by side have one result each. -/
theorem all_gives (routines : List (Routine ε α)) :
    (all routines).Gives fun results => results.length = routines.length := by
  induction routines with
  | nil => rfl
  | cons first rest ih =>
      refine ⟨fun _ => True, _, gives_true first, ih, ?_⟩
      intro result results _ fits
      exact congrArg (· + 1) fits

/-- Routines side by side give what each of them gives. -/
theorem Gives.all {routines : List (Routine ε α)} {post : α → Prop}
    (each : ∀ routine ∈ routines, routine.Gives post) :
    (Routine.all routines).Gives fun results => ∀ result ∈ results, post result := by
  induction routines with
  | nil => exact nofun
  | cons first rest ih =>
      obtain ⟨gives, others⟩ := List.forall_mem_cons.mp each
      refine ⟨post, _, gives, ih others, ?_⟩
      intro result results holds hold
      exact List.forall_mem_cons.mpr ⟨holds, hold⟩

/-- A step of a routine that goes on is a step of its first part, unless that has ended. -/
theorem step_bind {handle : Handler ε σ} {routine : Routine ε α} {next : α → Routine ε β}
    {state state' : σ} {after : Routine ε β}
    (step : Step handle (routine >>= next, state) (after, state')) :
    (∃ result, routine = done result ∧ Step handle (next result, state) (after, state')) ∨
      ∃ routine', Step handle (routine, state) (routine', state') ∧ after = routine' >>= next := by
  cases routine with
  | done result => exact .inl ⟨result, rfl, step⟩
  | pause rest =>
      rw [pause_bind] at step
      cases step
      exact .inr ⟨rest, .pause rest state, rfl⟩
  | call effect rest =>
      rw [call_bind] at step
      cases step with
      | call _ handled => exact .inr ⟨_, .call rest handled, rfl⟩
  | both left right rest =>
      rw [both_bind] at step
      cases step with
      | left _ _ inner => exact .inr ⟨_, .left right rest inner, rfl⟩
      | right _ _ inner => exact .inr ⟨_, .right left rest inner, rfl⟩
      | join b c _ _ => exact .inr ⟨_, .join b c rest state, rfl⟩

/-- Steps begin with a first one, unless there is none. -/
theorem Steps.cases_head {handle : Handler ε σ} {start last : Routine ε α × σ}
    (steps : Steps handle start last) :
    last = start ∨ ∃ middle, Step handle start middle ∧ Steps handle middle last := by
  induction steps with
  | refl => exact .inl rfl
  | tail _ step ih =>
      rcases ih with rfl | ⟨middle, first, rest⟩
      · exact .inr ⟨_, step, .refl _⟩
      · exact .inr ⟨middle, first, rest.tail step⟩

theorem ends_done {handle : Handler ε σ} {result ended : α} {state last : σ}
    (ends : Ends handle (done result) state ended last) : ended = result ∧ last = state := by
  rcases Steps.cases_head ends with same | ⟨middle, step, -⟩
  · obtain ⟨same, rfl⟩ := Prod.mk.inj same
    cases same
    exact ⟨rfl, rfl⟩
  · cases step

theorem ends_call {handle : Handler ε σ} {effect : ε β} {rest : β → Routine ε α} {state last : σ}
    {result : α} (ends : Ends handle (call effect rest) state result last) :
    ∃ answer next, handle _ effect state = some (answer, next) ∧
      Ends handle (rest answer) next result last := by
  rcases Steps.cases_head ends with same | ⟨middle, step, steps⟩
  · cases same
  · cases step with
    | call _ handled => exact ⟨_, _, handled, steps⟩

/-- Steps of a routine that goes on are steps of its first part, or that has ended before. -/
theorem steps_bind {handle : Handler ε σ} {routine : Routine ε α} {next : α → Routine ε β}
    {state : σ} {now : Routine ε β × σ} (steps : Steps handle (routine >>= next, state) now) :
    (∃ routine', Steps handle (routine, state) (routine', now.2) ∧ now.1 = routine' >>= next) ∨
      ∃ between middle, Ends handle routine state between middle ∧
        Steps handle (next between, middle) now := by
  induction steps with
  | refl => exact .inl ⟨routine, .refl _, rfl⟩
  | @tail middle after _ step ih =>
      obtain ⟨middleRoutine, middleState⟩ := middle
      rcases ih with ⟨routine', steps, rfl⟩ | ⟨between, state', ended, steps⟩
      · rcases step_bind step with ⟨between, rfl, first⟩ | ⟨routine'', inner, rest⟩
        · exact .inr ⟨between, _, steps, .single first⟩
        · exact .inl ⟨routine'', steps.tail inner, rest⟩
      · exact .inr ⟨between, state', ended, steps.tail step⟩

/-- A routine that goes on ends when its first part has ended and what it goes on with ends. -/
theorem ends_bind {handle : Handler ε σ} {routine : Routine ε α} {next : α → Routine ε β}
    {state last : σ} {result : β} (ends : Ends handle (routine >>= next) state result last) :
    ∃ between middle, Ends handle routine state between middle ∧
      Ends handle (next between) middle result last := by
  rcases steps_bind ends with ⟨routine', steps, same⟩ | found
  · cases routine' with
    | done between =>
        refine ⟨between, last, steps, ?_⟩
        rw [done_bind] at same
        rw [← same]
        exact .refl _
    | _ => cases same
  · exact found

end FieldCrypt.Routine
