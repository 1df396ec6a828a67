import FieldCrypt.Proofs.Routine.Run
import Mathlib.Algebra.BigOperators.Group.List.Basic
import Mathlib.Data.List.Forall2

/-!
# What routines hold

Routines that work on one state hold things of their own, such as tickets that were drawn from it,
and all that is held by anybody agrees with the state. A routine accounts for what it holds when each
of its effects changes state and holdings so that they agree again, whatever is held by others. Where
it is held up, it has to be stuck with what it holds; if never everybody can be stuck, then taking
turns comes to an end.
-/

namespace FieldCrypt

variable {ε : Type → Type} {M σ α β ι : Type} [AddCommMonoid M]

/-- When all that is held agrees with a state, and when who holds this is stuck in a state. -/
structure Ledger (M σ : Type) where
  agrees : M → σ → Prop
  stuck : M → σ → Prop

/-- Who is stuck alone is stuck together, and where holdings and state agree not everybody is. -/
structure Ledger.Live (ledger : Ledger M σ) : Prop where
  add : ∀ held other state, ledger.stuck held state → ledger.stuck other state →
    ledger.stuck (held + other) state
  free : ∀ held state, ledger.agrees held state → ¬ ledger.stuck held state

/-- The effect is answered at once, and all that agreed with the state before agrees with it after. -/
def Ledger.Ignores (ledger : Ledger M σ) (handle : Handler ε σ) {β : Type} (effect : ε β) : Prop :=
  ∀ state, ∃ answer next, handle β effect state = some (answer, next) ∧
    ∀ held, ledger.agrees held state → ledger.agrees held next

namespace Routine

/-- To end with nothing in one's hands, and with a result that has the property. -/
def EmptyHanded (post : α → Prop) (result : α) (left : M) : Prop := left = 0 ∧ post result

/-- Holding this, the routine goes through its effects and ends with a result and with what is then
left in its hands. Routines side by side share out what is held and end with nothing. -/
def Accounts (handle : Handler ε σ) (ledger : Ledger M σ) :
    {α : Type} → Routine ε α → M → (α → M → Prop) → Prop
  | _, done result, held, post => post result held
  | _, pause rest, held, post => rest.Accounts handle ledger held post
  | _, call effect rest, held, post => ∀ others state, ledger.agrees (held + others) state →
      (handle _ effect state = none → ledger.stuck held state) ∧
      ∀ answer next, handle _ effect state = some (answer, next) →
        ∃ left, ledger.agrees (left + others) next ∧
          (rest answer).Accounts handle ledger left post
  | _, both left right rest, held, post => ∃ ofLeft ofRight heldL heldR, held = heldL + heldR ∧
      left.Accounts handle ledger heldL (EmptyHanded ofLeft) ∧
      right.Accounts handle ledger heldR (EmptyHanded ofRight) ∧
      ∀ b c, ofLeft b → ofRight c → (rest b c).Accounts handle ledger 0 post

variable {handle : Handler ε σ} {ledger : Ledger M σ} {held : M}

theorem Accounts.mono {routine : Routine ε α} {post weaker : α → M → Prop}
    (accounts : routine.Accounts handle ledger held post)
    (weaken : ∀ result left, post result left → weaker result left) :
    routine.Accounts handle ledger held weaker := by
  induction routine generalizing held with
  | done result => exact weaken result held accounts
  | pause rest ih => exact ih accounts weaken
  | call effect rest ih =>
      intro others state holds
      obtain ⟨waits, answered⟩ := accounts others state holds
      refine ⟨waits, fun answer next handled => ?_⟩
      obtain ⟨left, kept, rest⟩ := answered answer next handled
      exact ⟨left, kept, ih answer rest weaken⟩
  | both left right rest _ _ ih =>
      obtain ⟨ofLeft, ofRight, heldL, heldR, shared, first, second, after⟩ := accounts
      exact ⟨ofLeft, ofRight, heldL, heldR, shared, first, second,
        fun b c hb hc => ih b c (after b c hb hc) weaken⟩

/-- What goes on with a result takes over what is left. -/
theorem Accounts.bind {routine : Routine ε α} {next : α → Routine ε β} {between : α → M → Prop}
    {post : β → M → Prop} (accounts : routine.Accounts handle ledger held between)
    (rest : ∀ result left, between result left →
      (next result).Accounts handle ledger left post) :
    (routine >>= next).Accounts handle ledger held post := by
  change (routine.bind next).Accounts handle ledger held post
  induction routine generalizing held with
  | done result => exact rest result held accounts
  | pause _ ih => exact ih accounts rest
  | call effect _ ih =>
      intro others state holds
      obtain ⟨waits, answered⟩ := accounts others state holds
      refine ⟨waits, fun answer last handled => ?_⟩
      obtain ⟨left, kept, first⟩ := answered answer last handled
      exact ⟨left, kept, ih answer first rest⟩
  | both left right _ _ _ ih =>
      obtain ⟨ofLeft, ofRight, heldL, heldR, shared, first, second, after⟩ := accounts
      exact ⟨ofLeft, ofRight, heldL, heldR, shared, first, second,
        fun b c hb hc => ih b c (after b c hb hc) rest⟩

/-- Routines side by side that each account for a share account for all shares together. -/
theorem Accounts.all {items : List ι} {routine : ι → Routine ε α} {post : ι → α → Prop}
    {share : ι → M} (each : ∀ item ∈ items,
      (routine item).Accounts handle ledger (share item) (EmptyHanded (post item))) :
    (Routine.all (items.map routine)).Accounts handle ledger (items.map share).sum
      (EmptyHanded (List.Forall₂ post items)) := by
  induction items with
  | nil => exact ⟨rfl, .nil⟩
  | cons item rest ih =>
      obtain ⟨first, others⟩ := List.forall_mem_cons.mp each
      exact ⟨post item, List.Forall₂ post rest, share item, (rest.map share).sum, List.sum_cons,
        first, ih others, fun result results has others => ⟨rfl, .cons has others⟩⟩

/-- When it is known what each routine comes to, it is known of all. -/
theorem Accounts.all_map {items : List ι} {routine : ι → Routine ε α} {result : ι → α}
    {share : ι → M} (each : ∀ item ∈ items,
      (routine item).Accounts handle ledger (share item) (EmptyHanded (· = result item))) :
    (Routine.all (items.map routine)).Accounts handle ledger (items.map share).sum
      (EmptyHanded (· = items.map result)) := by
  refine (Accounts.all each).mono ?_
  rintro results _ ⟨rfl, known⟩
  have same : List.Forall₂ (· = ·) results (items.map result) :=
    List.forall₂_map_right_iff.mpr known.flip
  rw [List.forall₂_eq_eq_eq] at same
  exact ⟨rfl, same⟩

/-- The shares are all the same. -/
theorem Accounts.all_map_same {items : List ι} {routine : ι → Routine ε α} {result : ι → α}
    {share : M} (each : ∀ item ∈ items,
      (routine item).Accounts handle ledger share (EmptyHanded (· = result item))) :
    (Routine.all (items.map routine)).Accounts handle ledger (items.length • share)
      (EmptyHanded (· = items.map result)) := by
  rw [← List.sum_replicate, ← List.map_const']
  exact .all_map each

theorem Accounts.all_zero {items : List ι} {routine : ι → Routine ε α} {post : ι → α → Prop}
    (each : ∀ item ∈ items,
      (routine item).Accounts handle ledger 0 (EmptyHanded (post item))) :
    (Routine.all (items.map routine)).Accounts handle ledger 0
      (EmptyHanded (List.Forall₂ post items)) := by
  have together := Accounts.all each
  rwa [List.sum_map_zero] at together

/-- An effect that the ledger ignores leaves what is held as it is. -/
theorem Accounts.ignored {effect : ε β} (ignores : ledger.Ignores handle effect)
    {rest : β → Routine ε α} {post : α → M → Prop}
    (after : ∀ answer, (rest answer).Accounts handle ledger held post) :
    (call effect rest).Accounts handle ledger held post := by
  intro others state holds
  obtain ⟨answer, next, handled, kept⟩ := ignores state
  refine ⟨fun waits => ?_, fun answer' next' handled' => ?_⟩
  · rw [handled] at waits
    cases waits
  · obtain ⟨rfl, rfl⟩ := Prod.mk.inj (Option.some.inj (handled.symm.trans handled'))
    exact ⟨held, kept _ holds, after answer⟩

section Ignored

variable {p : (β : Type) → ε β → Prop}
  (ignores : ∀ β (effect : ε β), p β effect → ledger.Ignores handle effect)

include ignores

/-- Whoever asks for nothing else, one effect after the other, can hold anything meanwhile. -/
theorem Serially.accounts {routine : Routine ε α} (serially : routine.Serially p) (held : M) :
    routine.Accounts handle ledger held fun _ left => left = held := by
  induction routine with
  | done result => rfl
  | pause rest ih => exact ih serially
  | call effect rest ih =>
      exact .ignored (ignores _ effect serially.1) fun answer => ih answer (serially.2 answer)
  | both left right rest => exact serially.elim

/-- Whoever asks for nothing else needs to hold nothing. -/
theorem Only.accounts {routine : Routine ε α} (only : routine.Only p) :
    routine.Accounts handle ledger 0 (EmptyHanded fun _ => True) := by
  induction routine with
  | done result => exact ⟨rfl, trivial⟩
  | pause rest ih => exact ih only
  | call effect rest ih =>
      exact .ignored (ignores _ effect only.1) fun answer => ih answer (only.2 answer)
  | both left right rest ihl ihr ih =>
      exact ⟨_, _, 0, 0, (add_zero 0).symm, ihl only.1, ihr only.2.1,
        fun b c _ _ => ih b c (only.2.2 b c)⟩

end Ignored

/-- What others hold stays with them through a step. -/
theorem Accounts.step {start last : Routine ε α × σ} {others : M} {post : α → M → Prop}
    (accounts : start.1.Accounts handle ledger held post) (step : Step handle start last)
    (holds : ledger.agrees (held + others) start.2) :
    ∃ left, ledger.agrees (left + others) last.2 ∧
      last.1.Accounts handle ledger left post := by
  induction step generalizing held others with
  | pause rest state => exact ⟨held, holds, accounts⟩
  | call rest handled => exact (accounts others _ holds).2 _ _ handled
  | left right rest _ ih =>
      obtain ⟨ofLeft, ofRight, heldL, heldR, rfl, first, second, after⟩ := accounts
      rw [add_assoc] at holds
      obtain ⟨left, kept, first⟩ := ih first holds
      rw [← add_assoc] at kept
      exact ⟨left + heldR, kept, ofLeft, ofRight, left, heldR, rfl, first, second, after⟩
  | right left rest _ ih =>
      obtain ⟨ofLeft, ofRight, heldL, heldR, rfl, first, second, after⟩ := accounts
      rw [add_comm heldL, add_assoc] at holds
      obtain ⟨right, kept, second⟩ := ih second holds
      rw [← add_assoc, add_comm right] at kept
      exact ⟨heldL + right, kept, ofLeft, ofRight, heldL, right, rfl, first, second, after⟩
  | join b c rest state =>
      obtain ⟨ofLeft, ofRight, heldL, heldR, rfl, ⟨rfl, hb⟩, ⟨rfl, hc⟩, after⟩ := accounts
      rw [add_zero] at holds
      exact ⟨0, holds, after b c hb hc⟩

theorem Accounts.steps {start last : Routine ε α × σ} {others : M} {post : α → M → Prop}
    (accounts : start.1.Accounts handle ledger held post) (steps : Steps handle start last)
    (holds : ledger.agrees (held + others) start.2) :
    ∃ left, ledger.agrees (left + others) last.2 ∧
      last.1.Accounts handle ledger left post := by
  induction steps with
  | refl => exact ⟨held, holds, accounts⟩
  | tail _ step ih =>
      obtain ⟨left, kept, rest⟩ := ih
      exact rest.step step kept

/-- However its parts take turns, a routine that holds all there is ends with a result and with what
is then left. -/
theorem Accounts.of_ends {routine : Routine ε α} {state last : σ} {result : α}
    {post : α → M → Prop} (accounts : routine.Accounts handle ledger held post)
    (holds : ledger.agrees held state) (ends : Ends handle routine state result last) :
    ∃ left, ledger.agrees left last ∧ post result left := by
  rw [← add_zero held] at holds
  obtain ⟨left, kept, ended⟩ := accounts.steps ends holds
  rw [add_zero] at kept
  exact ⟨left, kept, ended⟩

/-- In a turn something moves, unless the routine has ended or is stuck. -/
theorem Accounts.turn_moved (live : ledger.Live) {routine : Routine ε α} {others : M}
    {post : α → M → Prop} {state : σ} (accounts : routine.Accounts handle ledger held post)
    (holds : ledger.agrees (held + others) state) :
    (∃ result, routine = done result) ∨ (turn handle routine state).moved = true ∨
      ledger.stuck held state := by
  induction routine generalizing held others with
  | done result => exact .inl ⟨result, rfl⟩
  | pause rest => exact .inr (.inl rfl)
  | call effect rest =>
      right
      cases handled : handle _ effect state with
      | none => exact .inr ((accounts others state holds).1 handled)
      | some _ =>
          left
          simp only [turn, handled]
  | both left right rest ihl ihr =>
      obtain ⟨ofLeft, ofRight, heldL, heldR, rfl, first, second, -⟩ := accounts
      right
      have holdsL := holds
      rw [add_assoc] at holdsL
      have holdsR := holds
      rw [add_comm heldL, add_assoc] at holdsR
      -- Unless the left part moves, the right one takes its turn in the same state.
      rcases turn_after handle left state with ⟨moved, -⟩ | ⟨-, -, stays⟩
      · exact .inl (moved_left moved right rest)
      rcases ihr second holdsR with ⟨c, rfl⟩ | moved | stuckR
      · obtain ⟨rfl, -⟩ := second
        rcases ihl first holdsL with ⟨b, rfl⟩ | moved | stuckL
        · exact .inl (moved_join b c rest state)
        · exact .inl (moved_left moved _ rest)
        · rw [add_zero]
          exact .inr stuckL
      · left
        rw [← stays] at moved
        exact moved_right left moved rest
      · rcases ihl first holdsL with ⟨b, rfl⟩ | moved | stuckL
        · obtain ⟨rfl, -⟩ := first
          rw [zero_add]
          exact .inr stuckR
        · exact .inl (moved_left moved right rest)
        · exact .inr (live.add heldL heldR state stuckL stuckR)

/-- A routine that accounts for all there is runs to its end. -/
theorem Accounts.run (live : ledger.Live) {routine : Routine ε α} {post : α → M → Prop} {state : σ}
    (accounts : routine.Accounts handle ledger held post) (holds : ledger.agrees held state) :
    ∃ result last left, run handle routine state = some (result, last) ∧
      ledger.agrees left last ∧ post result left := by
  induction routine using (WellFoundedRelation.wf (α := Routine ε α)).induction
    generalizing state held with
  | _ routine ih =>
      rw [← add_zero held] at holds
      obtain ⟨left, kept, rest⟩ := accounts.steps (steps_turn handle routine state) holds
      rw [add_zero] at kept
      rw [Routine.run]
      split
      · rename_i result ended
        rw [eq_done_of_result? ended] at rest
        exact ⟨result, _, left, rfl, kept, rest⟩
      · rename_i ended
        rcases accounts.turn_moved live holds with ⟨result, rfl⟩ | moved | stuck
        · cases ended
        · rw [dif_pos moved]
          exact ih _ (turn_less moved) rest kept
        · rw [add_zero] at holds
          exact (live.free held state holds stuck).elim

end Routine

end FieldCrypt
