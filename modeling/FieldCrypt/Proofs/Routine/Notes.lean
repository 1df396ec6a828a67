import FieldCrypt.Proofs.Routine.Effects

/-!
# Who asked for what

Routines side by side are parts of the one that waits for them, and may have parts in turn. A step
is made by one part. `NotedStep` says which one, and what is noted about the effect that it asks
for; every sequence of steps can be told in this way (`steps_iff_noted`). `Recounts` says what a
routine may note and come to, whatever happens around it, so that it speaks of one part as well as
of the whole: of what a run notes, the notes of each part are such as the part may make by itself.
-/

namespace FieldCrypt

/-- One of two routines side by side. -/
inductive Side where
  | left | right
  deriving DecidableEq, Repr

/-- The way from a routine to a part of it. The empty one leads to the routine itself. -/
abbrev Seat := List Side

/-- What was noted, each by the part in a seat. -/
abbrev Notes (ℓ : Type) := List (Seat × ℓ)

variable {ε : Type → Type} {σ α β γ ι ℓ μ : Type}

namespace Notes

/-- What a routine itself notes. -/
def own (entries : List ℓ) : Notes ℓ := entries.map fun entry => ([], entry)

/-- The notes of a routine that is the part on this side. -/
def lift (side : Side) (notes : Notes ℓ) : Notes ℓ :=
  notes.map fun note => (side :: note.1, note.2)

/-- The notes of the part on this side, as its own ones. -/
def onSide (side : Side) (notes : Notes ℓ) : Notes ℓ :=
  notes.filterMap fun note =>
    match note.1 with
    | [] => none
    | first :: seat => if first = side then some (seat, note.2) else none

/-- The same notes, with something else told of what each part did. -/
def retell (tell : ℓ → μ) (notes : Notes ℓ) : Notes μ := notes.map fun note => (note.1, tell note.2)

/-- What the part in a seat noted, and the parts that it has. -/
def under (seat : Seat) (notes : Notes ℓ) : List ℓ :=
  notes.filterMap fun note => if seat.isPrefixOf note.1 then some note.2 else none

theorem onSide_append (side : Side) (first second : Notes ℓ) :
    onSide side (first ++ second) = onSide side first ++ onSide side second :=
  List.filterMap_append

theorem onSide_lift_self (side : Side) (notes : Notes ℓ) :
    onSide side (lift side notes) = notes := by
  rw [onSide, lift, List.filterMap_map]
  refine Eq.trans (congrArg (List.filterMap · notes) (funext fun note => ?_)) List.filterMap_some
  exact if_pos rfl

theorem onSide_lift_other {side other : Side} (apart : other ≠ side) (notes : Notes ℓ) :
    onSide side (lift other notes) = [] := by
  simp [onSide, lift, apart]

theorem retell_own (tell : ℓ → μ) (entries : List ℓ) :
    (own entries).retell tell = own (entries.map tell) := by
  simp [own, retell]

theorem retell_append (tell : ℓ → μ) (first second : Notes ℓ) :
    retell tell (first ++ second) = first.retell tell ++ second.retell tell :=
  List.map_append

theorem onSide_retell (tell : ℓ → μ) (side : Side) (notes : Notes ℓ) :
    onSide side (notes.retell tell) = (notes.onSide side).retell tell := by
  rw [onSide, onSide, retell, retell, List.filterMap_map, List.map_filterMap]
  refine congrArg (List.filterMap · notes) (funext fun note => ?_)
  obtain ⟨_ | ⟨first, seat⟩, entry⟩ := note
  · rfl
  · by_cases same : first = side <;> simp [same]

/-- What is told as notes of the whole was noted by the whole. -/
theorem eq_own_of_retell {tell : ℓ → μ} {notes : Notes ℓ} {told : List μ}
    (same : notes.retell tell = own told) :
    ∃ entries, notes = own entries ∧ entries.map tell = told := by
  induction notes generalizing told with
  | nil =>
      obtain rfl : told = [] := List.map_eq_nil_iff.mp same.symm
      exact ⟨[], rfl, rfl⟩
  | cons note rest ih =>
      obtain ⟨first, later, rfl, here, onward⟩ := List.map_eq_cons_iff.mp same.symm
      obtain ⟨entries, rfl, rfl⟩ := ih onward.symm
      obtain ⟨seat, entry⟩ := note
      obtain ⟨rfl, rfl⟩ := Prod.mk.inj here
      exact ⟨entry :: entries, rfl, rfl⟩

theorem own_append (first second : List ℓ) : own (first ++ second) = own first ++ own second :=
  List.map_append

theorem under_append (seat : Seat) (first second : Notes ℓ) :
    under seat (first ++ second) = under seat first ++ under seat second :=
  List.filterMap_append

theorem under_own (entries : List ℓ) : under [] (own entries) = entries := by
  rw [under, own, List.filterMap_map]
  exact List.filterMap_some

/-- The seat of a part of a part. -/
theorem under_cons (side : Side) (seat : Seat) (notes : Notes ℓ) :
    under (side :: seat) notes = under seat (onSide side notes) := by
  rw [under, under, onSide, List.filterMap_filterMap]
  refine congrArg (List.filterMap · notes) (funext fun note => ?_)
  obtain ⟨_ | ⟨first, place⟩, entry⟩ := note
  · rfl
  · by_cases same : first = side
    · subst same
      simp
    · simp [List.isPrefixOf, same, Ne.symm same]

/-- A part notes nothing of what the whole notes itself. -/
theorem under_cons_own (side : Side) (seat : Seat) (entries : List ℓ) :
    under (side :: seat) (own entries) = [] := by
  simp [under, own]

end Notes

namespace Routine

variable {handle : Handler ε σ} {note : (β : Type) → ε β → σ → List ℓ}

/-- A step, with what the part that makes it notes about the effect that it asks for. -/
inductive NotedStep (handle : Handler ε σ) (note : (β : Type) → ε β → σ → List ℓ) :
    {α : Type} → Routine ε α × σ → Notes ℓ → Routine ε α × σ → Prop where
  | pause {α : Type} (rest : Routine ε α) (state : σ) :
      NotedStep handle note (pause rest, state) [] (rest, state)
  | call {α β : Type} {effect : ε β} (rest : β → Routine ε α) {state next : σ} {answer : β}
      (handled : handle _ effect state = some (answer, next)) :
      NotedStep handle note (call effect rest, state) (Notes.own (note _ effect state))
        (rest answer, next)
  | left {α β γ : Type} {left left' : Routine ε β} {state next : σ} {notes : Notes ℓ}
      (right : Routine ε γ) (rest : β → γ → Routine ε α)
      (step : NotedStep handle note (left, state) notes (left', next)) :
      NotedStep handle note (both left right rest, state) (notes.lift .left)
        (both left' right rest, next)
  | right {α β γ : Type} {right right' : Routine ε γ} {state next : σ} {notes : Notes ℓ}
      (left : Routine ε β) (rest : β → γ → Routine ε α)
      (step : NotedStep handle note (right, state) notes (right', next)) :
      NotedStep handle note (both left right rest, state) (notes.lift .right)
        (both left right' rest, next)
  | join {α β γ : Type} (b : β) (c : γ) (rest : β → γ → Routine ε α) (state : σ) :
      NotedStep handle note (both (done b) (done c) rest, state) [] (rest b c, state)

/-- Any number of steps, with all that was noted. -/
inductive NotedSteps (handle : Handler ε σ) (note : (β : Type) → ε β → σ → List ℓ) :
    Routine ε α × σ → Notes ℓ → Routine ε α × σ → Prop where
  | refl (start : Routine ε α × σ) : NotedSteps handle note start [] start
  | head {start middle last : Routine ε α × σ} {first later : Notes ℓ}
      (step : NotedStep handle note start first middle)
      (steps : NotedSteps handle note middle later last) :
      NotedSteps handle note start (first ++ later) last

/-- The routine can end in this way under some interleaving, with these notes. -/
def NotedEnds (handle : Handler ε σ) (note : (β : Type) → ε β → σ → List ℓ) (routine : Routine ε α)
    (state : σ) (notes : Notes ℓ) (result : α) (last : σ) : Prop :=
  NotedSteps handle note (routine, state) notes (done result, last)

/-- Every step is made by some part. -/
theorem step_iff_noted {start last : Routine ε α × σ} :
    Step handle start last ↔ ∃ notes, NotedStep handle note start notes last := by
  constructor
  · intro step
    induction step with
    | pause rest state => exact ⟨_, .pause rest state⟩
    | call rest handled => exact ⟨_, .call rest handled⟩
    | left right rest _ ih =>
        obtain ⟨_, noted⟩ := ih
        exact ⟨_, .left right rest noted⟩
    | right left rest _ ih =>
        obtain ⟨_, noted⟩ := ih
        exact ⟨_, .right left rest noted⟩
    | join b c rest state => exact ⟨_, .join b c rest state⟩
  · rintro ⟨notes, noted⟩
    induction noted with
    | pause rest state => exact .pause rest state
    | call rest handled => exact .call rest handled
    | left right rest _ ih => exact .left right rest ih
    | right left rest _ ih => exact .right left rest ih
    | join b c rest state => exact .join b c rest state

theorem NotedSteps.tail {start middle last : Routine ε α × σ} {notes later : Notes ℓ}
    (steps : NotedSteps handle note start notes middle)
    (step : NotedStep handle note middle later last) :
    NotedSteps handle note start (notes ++ later) last := by
  induction steps with
  | refl =>
      rw [List.nil_append, ← List.append_nil later]
      exact .head step (.refl last)
  | head first _ ih =>
      rw [List.append_assoc]
      exact .head first (ih step)

/-- Whatever steps are made, they can be told with the part that makes each of them. -/
theorem steps_iff_noted {start last : Routine ε α × σ} :
    Steps handle start last ↔ ∃ notes, NotedSteps handle note start notes last := by
  constructor
  · intro steps
    induction steps with
    | refl => exact ⟨[], .refl start⟩
    | tail _ step ih =>
        obtain ⟨_, before⟩ := ih
        obtain ⟨_, noted⟩ := step_iff_noted.mp step
        exact ⟨_, before.tail noted⟩
  · rintro ⟨notes, noted⟩
    induction noted with
    | refl start => exact .refl start
    | head step _ ih => exact (Steps.single (step_iff_noted.mpr ⟨_, step⟩)).trans ih

/-- The routine may note this and come to this result. Each of its effects is answered as it would
be in some state; what states those are is left open, since others may act in between. -/
def Recounts (handle : Handler ε σ) (note : (β : Type) → ε β → σ → List ℓ) :
    {α : Type} → Routine ε α → Notes ℓ → α → Prop
  | _, done result, notes, ended => notes = [] ∧ ended = result
  | _, pause rest, notes, ended => Recounts handle note rest notes ended
  | _, call effect rest, notes, ended => ∃ state answer next later,
      handle _ effect state = some (answer, next) ∧
      notes = Notes.own (note _ effect state) ++ later ∧
      Recounts handle note (rest answer) later ended
  | _, both left right rest, notes, ended => ∃ b c during later,
      notes = during ++ later ∧
      Recounts handle note left (during.onSide .left) b ∧
      Recounts handle note right (during.onSide .right) c ∧
      Recounts handle note (rest b c) later ended

theorem NotedStep.recounts {start middle : Routine ε α × σ} {notes later : Notes ℓ} {result : α}
    (step : NotedStep handle note start notes middle)
    (recounts : Recounts handle note middle.1 later result) :
    Recounts handle note start.1 (notes ++ later) result := by
  -- Backwards: what was noted last is known, and a step of one part puts its notes in front of those
  -- of that part and leaves the other part's alone.
  induction step generalizing later with
  | pause rest state => exact recounts
  | call rest handled => exact ⟨_, _, _, _, handled, rfl, recounts⟩
  | @left _ _ _ _ _ _ _ notes right rest _ ih =>
      obtain ⟨b, c, during, after, rfl, first, second, onward⟩ := recounts
      have silent : Notes.onSide .right (notes.lift .left) = [] :=
        Notes.onSide_lift_other (by decide) notes
      refine ⟨b, c, notes.lift .left ++ during, after, (List.append_assoc _ _ _).symm, ?_, ?_,
        onward⟩
      · rw [Notes.onSide_append, Notes.onSide_lift_self]
        exact ih first
      · rw [Notes.onSide_append, silent]
        exact second
  | @right _ _ _ _ _ _ _ notes left rest _ ih =>
      obtain ⟨b, c, during, after, rfl, first, second, onward⟩ := recounts
      have silent : Notes.onSide .left (notes.lift .right) = [] :=
        Notes.onSide_lift_other (by decide) notes
      refine ⟨b, c, notes.lift .right ++ during, after, (List.append_assoc _ _ _).symm, ?_, ?_,
        onward⟩
      · rw [Notes.onSide_append, silent]
        exact first
      · rw [Notes.onSide_append, Notes.onSide_lift_self]
        exact ih second
  | join b c rest state =>
      exact ⟨b, c, [], later, rfl, ⟨rfl, rfl⟩, ⟨rfl, rfl⟩, recounts⟩

/-- What a routine notes until it ends is what it may note. -/
theorem NotedEnds.recounts {routine : Routine ε α} {state last : σ} {notes : Notes ℓ} {result : α}
    (ends : NotedEnds handle note routine state notes result last) :
    Recounts handle note routine notes result := by
  have told : ∀ {start last : Routine ε α × σ} {notes later : Notes ℓ},
      NotedSteps handle note start notes last → Recounts handle note last.1 later result →
      Recounts handle note start.1 (notes ++ later) result := by
    intro start last notes later steps ended
    induction steps with
    | refl => exact ended
    | head step _ ih =>
        rw [List.append_assoc]
        exact step.recounts (ih ended)
  have whole := told ends ⟨rfl, rfl⟩
  rwa [List.append_nil] at whole

theorem recounts_bind {routine : Routine ε α} {next : α → Routine ε β} {notes : Notes ℓ}
    {result : β} (recounts : Recounts handle note (routine >>= next) notes result) :
    ∃ between first later, notes = first ++ later ∧ Recounts handle note routine first between ∧
      Recounts handle note (next between) later result := by
  change Recounts handle note (routine.bind next) notes result at recounts
  induction routine generalizing notes with
  | done between => exact ⟨between, [], notes, rfl, ⟨rfl, rfl⟩, recounts⟩
  | pause _ ih => exact ih recounts
  | call effect rest ih =>
      obtain ⟨state, answer, last, later, handled, rfl, onward⟩ := recounts
      obtain ⟨between, first, later, rfl, before, after⟩ := ih answer onward
      exact ⟨between, _, later, (List.append_assoc _ _ _).symm,
        ⟨state, answer, last, first, handled, rfl, before⟩, after⟩
  | both left right rest _ _ ih =>
      obtain ⟨b, c, during, later, rfl, ofLeft, ofRight, onward⟩ := recounts
      obtain ⟨between, first, later, rfl, before, after⟩ := ih b c onward
      exact ⟨between, _, later, (List.append_assoc _ _ _).symm,
        ⟨b, c, during, first, rfl, ofLeft, ofRight, before⟩, after⟩

/-- When the notes on effects tell something else, so do the notes of a routine. -/
theorem Recounts.retell {other : (β : Type) → ε β → σ → List μ} {tell : ℓ → μ}
    (told : ∀ β effect state, other β effect state = (note β effect state).map tell)
    {routine : Routine ε α} {notes : Notes ℓ} {result : α}
    (recounts : Recounts handle note routine notes result) :
    Recounts handle other routine (notes.retell tell) result := by
  induction routine generalizing notes with
  | done ended =>
      obtain ⟨rfl, rfl⟩ := recounts
      exact ⟨rfl, rfl⟩
  | pause _ ih => exact ih recounts
  | call effect rest ih =>
      obtain ⟨state, answer, next, later, handled, rfl, onward⟩ := recounts
      refine ⟨state, answer, next, _, handled, ?_, ih answer onward⟩
      rw [Notes.retell_append, Notes.retell_own, told]
  | both left right rest ihl ihr ih =>
      obtain ⟨b, c, during, later, rfl, ofLeft, ofRight, onward⟩ := recounts
      refine ⟨b, c, _, _, Notes.retell_append tell during later, ?_, ?_, ih b c onward⟩
      · rw [Notes.onSide_retell]
        exact ihl ofLeft
      · rw [Notes.onSide_retell]
        exact ihr ofRight

/-- A routine without parts notes everything itself. -/
theorem Serially.recounts {p : (β : Type) → ε β → Prop} {routine : Routine ε α}
    (serially : routine.Serially p) {notes : Notes ℓ} {result : α}
    (recounts : Recounts handle note routine notes result) :
    notes = Notes.own (notes.under []) := by
  induction routine generalizing notes with
  | done _ =>
      obtain ⟨rfl, -⟩ := recounts
      rfl
  | pause _ ih => exact ih serially recounts
  | call effect rest ih =>
      obtain ⟨_, answer, _, later, -, rfl, onward⟩ := recounts
      rw [Notes.under_append, Notes.under_own, Notes.own_append,
        ← ih answer (serially.2 answer) onward]
  | both _ _ _ => exact serially.elim

/-- A routine without parts that asks for nothing of note notes nothing. -/
theorem Serially.recounts_nil {p : (β : Type) → ε β → Prop}
    (silent : ∀ β effect state, p β effect → note β effect state = []) {routine : Routine ε α}
    (serially : routine.Serially p) {notes : Notes ℓ} {result : α}
    (recounts : Recounts handle note routine notes result) : notes = [] := by
  induction routine generalizing notes with
  | done _ => exact recounts.1
  | pause _ ih => exact ih serially recounts
  | call effect rest ih =>
      obtain ⟨state, answer, _, later, -, rfl, onward⟩ := recounts
      rw [silent _ effect state serially.1, ih answer (serially.2 answer) onward]
      rfl
  | both _ _ _ => exact serially.elim

/-- The seat of one of some routines side by side. -/
def seat : (index : Nat) → Seat
  | 0 => [.left]
  | index + 1 => .right :: seat index

/-- None of the parts notes what the whole notes itself. -/
theorem under_seat_own (index : Nat) (entries : List ℓ) :
    (Notes.own entries).under (seat index) = [] := by
  cases index <;> exact Notes.under_cons_own _ _ entries

/-- Of what routines side by side note, each of them notes what it may note by itself. -/
theorem recounts_all {routines : List (Routine ε α)} {notes : Notes ℓ} {results : List α}
    (recounts : Recounts handle note (all routines) notes results) :
    results.length = routines.length ∧ ∀ (index : Nat) routine result,
      routines[index]? = some routine → results[index]? = some result →
      ∃ part, Recounts handle note routine part result ∧
        part.under [] = notes.under (seat index) := by
  induction routines generalizing notes results with
  | nil =>
      obtain ⟨-, rfl⟩ := recounts
      exact ⟨rfl, nofun⟩
  | cons first rest ih =>
      obtain ⟨result, others, during, later, rfl, ofFirst, ofRest, rfl, rfl⟩ := recounts
      obtain ⟨length, each⟩ := ih ofRest
      refine ⟨congrArg (· + 1) length, ?_⟩
      rw [List.append_nil]
      rintro (_ | index) routine result' there ended
      · cases there
        cases ended
        exact ⟨_, ofFirst, (Notes.under_cons _ _ _).symm⟩
      · obtain ⟨part, recounted, same⟩ := each index routine result' there ended
        refine ⟨part, recounted, same.trans ?_⟩
        rw [seat, Notes.under_cons]

end Routine

end FieldCrypt
