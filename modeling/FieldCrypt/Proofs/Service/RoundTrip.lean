import FieldCrypt.Proofs.Context.Alone
import FieldCrypt.Proofs.Provider.Inverse
import FieldCrypt.Proofs.Routine.Invariant
import FieldCrypt.Proofs.Service.Restore
import FieldCrypt.Simulation

/-!
# Round trips

With a cipher outside that marks texts, what a service encrypts is decrypted again to the record it
came from, stamped with the URL of the context. The broker may behave in any way: it only decides
whether a key is created at all and how it is named.
-/

namespace FieldCrypt

variable {σ : Type} {environment : Environment σ} {cipher : CipherId} {inOrder : σ → Prop}

/-- While the outside is in order, a cipher marks texts with the URI of their key and refuses none,
and nothing that is asked of the outside puts it out of order. -/
structure Environment.Marks (environment : Environment σ) (cipher : CipherId)
    (inOrder : σ → Prop) : Prop where
  outcome : ∀ direction key text outside, inOrder outside →
    (environment.transform cipher direction key text outside).1 =
      Reversible.outcome [] direction key text
  send : ∀ call outside, inOrder outside → inOrder (environment.send call outside).2
  draw : ∀ count outside, inOrder outside → inOrder (environment.draw count outside).2
  transform : ∀ other direction key text outside, inOrder outside →
    inOrder (environment.transform other direction key text outside).2

/-- The outside is in order, and the contexts are as they were. -/
def Steady (inOrder : σ → Prop) (contexts : Numbered Context) (_ : Unit) (shared : Shared σ) : Prop :=
  inOrder shared.outside ∧ shared.contexts = contexts

/-- In the simulation a stand-in that marks texts stays one, whatever else is asked for. -/
theorem Simulation.marks (cipher : CipherId) :
    Simulation.environment.Marks cipher fun simulation =>
      ∃ state, simulation.standIn cipher = .reversible state ∧ state.refused = [] where
  outcome direction key text simulation := by
    rintro ⟨state, standIn, unrefused⟩
    simp only [Simulation.environment, standIn, StandIn.transform, Reversible.transform, unrefused]
  send call simulation := id
  draw count simulation := id
  transform other direction key text simulation := by
    rintro ⟨state, standIn, unrefused⟩
    by_cases same : other = cipher
    · subst same
      refine ⟨state.count direction, ?_, ?_⟩
      · simp only [Simulation.environment, standIn, StandIn.transform, Reversible.transform]
        exact Numbered.get_modify_self _ _ _
      · cases direction <;> exact unrefused
    · refine ⟨state, ?_, unrefused⟩
      exact (Numbered.get_modify_of_ne _ same _).trans standIn

namespace Environment.Marks

variable (marks : environment.Marks cipher inOrder)
include marks

theorem step {α : Type} {start last : Routine Effect α × Shared σ}
    (step : Routine.Step environment.handle start last) (ready : inOrder start.2.outside) :
    inOrder last.2.outside := by
  induction step with
  | pause rest shared => exact ready
  | @call _ _ effect _ shared next answer handled =>
      cases effect with
      | send call =>
          obtain ⟨-, rfl⟩ := Prod.mk.inj (Option.some.inj handled)
          exact marks.send call _ ready
      | draw count =>
          obtain ⟨-, rfl⟩ := Prod.mk.inj (Option.some.inj handled)
          exact marks.draw count _ ready
      | transform other direction key text =>
          obtain ⟨-, rfl⟩ := Prod.mk.inj (Option.some.inj handled)
          exact marks.transform other direction key text _ ready
      | await id ticket =>
          simp only [handle] at handled
          split at handled
          · obtain ⟨-, rfl⟩ := Prod.mk.inj (Option.some.inj handled)
            exact ready
          · cases handled
      | _ =>
          obtain ⟨-, rfl⟩ := Prod.mk.inj (Option.some.inj handled)
          exact ready
  | left right rest _ ih => exact ih ready
  | right left rest _ ih => exact ih ready
  | join b c rest shared => exact ready

theorem ends {α : Type} {routine : Routine Effect α} {shared last : Shared σ} {result : α}
    (ends : Routine.Ends environment.handle routine shared result last)
    (ready : inOrder shared.outside) : inOrder last.outside := by
  have kept : ∀ {after : Routine Effect α × Shared σ},
      Routine.Steps environment.handle (routine, shared) after → inOrder after.2.outside := by
    intro after steps
    induction steps with
    | refl => exact ready
    | tail _ step ih => exact marks.step step ih
  exact kept ends

/-- The cipher's answers leave all contexts alone. -/
theorem transform_keeps (contexts : Numbered Context) (direction : Direction) (key : KeyHandle)
    (text : String) :
    ((Provider.outside cipher).transform direction key text).Keeps environment.handle
      (Steady inOrder contexts ()) (· = Reversible.outcome [] direction key text) := by
  rintro shared ⟨ready, same⟩
  exact ⟨_, _, rfl, ⟨marks.transform _ _ _ _ _ ready, same⟩, marks.outcome _ _ _ _ ready⟩

end Environment.Marks

namespace Task

theorem slot?_ofRequest (id : String) (request : TaskRequest) (fieldIndex slotIndex : Nat) :
    (Protected.layout : Layout Task).slot? (ofRequest id request) fieldIndex slotIndex =
      Protected.layout.slot? request fieldIndex slotIndex := by
  match fieldIndex with
  | 0 | 1 | _ + 2 => rfl

theorem blank_ofRequest (id : String) (request : TaskRequest) :
    Protected.layout.blank (ofRequest id request) =
      ofRequest id (Protected.layout.blank request) := by
  obtain ⟨_ | _, _ | _, _, _, _⟩ := request <;> rfl

/-- The task kept for a treated request is the task kept for the request, treated. -/
theorem treats_ofRequest (id : String) {becomes : String → String → Prop}
    {request after : TaskRequest} (treats : Protected.layout.Treats becomes request after) :
    Protected.layout.Treats becomes (ofRequest id request) (ofRequest id after) where
  outside := by rw [blank_ofRequest, blank_ofRequest, treats.outside]
  treated fieldIndex slotIndex text := by
    rw [slot?_ofRequest, slot?_ofRequest]
    exact treats.treated fieldIndex slotIndex text
  kept fieldIndex slotIndex := by
    rw [slot?_ofRequest, slot?_ofRequest]
    exact treats.kept fieldIndex slotIndex

end Task

namespace Service

variable {R : Type} [Protected R] [LawfulProtected R] {service : Service} {context : ContextId}
  {shared last : Shared σ}

/-- The URL of a context after something was encrypted in it: the one it had, and never empty. -/
structure Settled (context : ContextId) (shared last : Shared σ) (uri : KeyUri) : Prop where
  url : (last.context context).keyUrl = some uri
  named : uri.isEmpty = false
  before : ∀ other, (shared.context context).keyUrl = some other → other = uri

/-- What was encrypted well is sealed under the URL of the context. -/
theorem ends_encrypt (marks : environment.Marks cipher inOrder)
    (own : service.provider = .outside cipher) (ready : inOrder shared.outside)
    (named : ∀ uri, (shared.context context).keyUrl = some uri → uri.isEmpty = false)
    {record sealed : R}
    (ends : Routine.Ends environment.handle (service.encrypt context record) shared
      (.ok (), sealed) last) :
    ∃ uri, Settled context shared last uri ∧
      Protected.layout.Treats (Layout.Seals (Reversible.read (.named uri)))
        (Protected.stamp record uri) sealed := by
  obtain ⟨⟨outcome, after⟩, middle, encrypts, reports⟩ := Routine.ends_bind ends
  obtain ⟨same, rfl⟩ := Routine.ends_done reports
  obtain ⟨fine, rfl⟩ := Prod.mk.inj same
  obtain ⟨bound, shared', binds, applies⟩ := Routine.ends_bind encrypts
  cases bound with
  | error error =>
      obtain ⟨failed, -⟩ := Routine.ends_done applies
      obtain ⟨rfl, -⟩ := Prod.mk.inj failed
      cases fine
  | ok uri =>
      obtain ⟨url, full, before⟩ := Client.ends_boundKey binds named
      have ready' := marks.ends binds ready
      have seals (text : String) :
          (service.provider.transform .encrypt (.named uri) text).Upholds environment.handle
            (Steady inOrder shared'.contexts) () fun outcome =>
              ∃ ciphertext, outcome = .ok ciphertext ∧
                Layout.Seals (Reversible.read (.named uri)) text ciphertext := by
        rw [own]
        refine (Routine.keeps_iff_upholds ()).mp ((marks.transform_keeps _ _ _ _).mono ?_)
        rintro outcome rfl
        exact ⟨_, rfl, Reversible.write_ne_empty _ text, Reversible.read_write rfl text⟩
      have upholds := separate.apply_treats (Protected.stamp record uri)
        (Layout.Seals (Reversible.read (.named uri))) fun call _ => seals call.text
      obtain ⟨⟨-, treats⟩, _, -, -, kept⟩ := upholds.of_ends ⟨ready', rfl⟩ applies
      refine ⟨uri, ⟨?_, full, before⟩, treats⟩
      rw [Shared.context, kept]
      exact url

/-- Whenever the outside is in order, every service with the cipher restores what was sealed. -/
theorem restores_of_treats (marks : environment.Marks cipher inOrder)
    (own : service.provider = .outside cipher) (ready : inOrder shared.outside) {uri : KeyUri}
    (named : uri.isEmpty = false) {record sealed : R}
    (seals : Protected.layout.Treats (Layout.Seals (Reversible.read (.named uri)))
      (Protected.stamp record uri) sealed) :
    service.Restores environment shared sealed (Protected.stamp record uri) := by
  have upholds : (service.decrypt sealed).Upholds environment.handle
      (Steady inOrder shared.contexts) () (· = (.ok (), Protected.stamp record uri)) := by
    refine decrypt_upholds named seals ?_
    intro ciphertext text opens
    rw [own, ← opens]
    exact (Routine.keeps_iff_upholds ()).mp (marks.transform_keeps _ _ _ _)
  exact restores_of_upholds upholds ⟨ready, rfl⟩

/-- What was sealed is read back from its JSON and from the text of that, and every service with the
cipher restores the plain record from it whenever the outside is in order. -/
structure Recoverable (environment : Environment σ) (cipher : CipherId) (inOrder : σ → Prop)
    {R : Type} [Protected R] [Wire R] (sealed plain : R) : Prop where
  json : decode? (encode sealed : Json) = some sealed
  text : (Json.parse? (encode sealed : Json).render).bind decode? = some sealed
  restores : ∀ (service : Service) (shared : Shared σ), service.provider = .outside cipher →
    inOrder shared.outside → service.Restores environment shared sealed plain

theorem recoverable_of_treats [Wire R] [LawfulWire R] [PlainWire R]
    (marks : environment.Marks cipher inOrder) {uri : KeyUri} (named : uri.isEmpty = false)
    {record sealed : R}
    (seals : Protected.layout.Treats (Layout.Seals (Reversible.read (.named uri)))
      (Protected.stamp record uri) sealed) :
    Recoverable environment cipher inOrder sealed (Protected.stamp record uri) where
  json := LawfulWire.decode?_encode sealed
  text := decode?_parse?_render sealed
  restores _ _ own ready := restores_of_treats marks own ready named seals

/-- Let a cipher mark texts and refuse none, and let a service with this cipher encrypt a record of
any kind in a context that is unbound or bound to a URI that is not empty. If that ends well, then
the record it ends with can be recovered: read back from its JSON or not, it is decrypted to the
original record with the URL that the context has then. So is the task that is kept for an encrypted
request, to the task kept for the original one. -/
theorem decrypt_encrypt (marks : environment.Marks cipher inOrder)
    (own : service.provider = .outside cipher) (ready : inOrder shared.outside)
    (named : ∀ uri, (shared.context context).keyUrl = some uri → uri.isEmpty = false) :
    (∀ (kind : RecordKind) (record sealed : kind.Record),
      Routine.Ends environment.handle (service.encrypt context record) shared (.ok (), sealed) last →
      inOrder last.outside ∧ ∃ uri, Settled context shared last uri ∧
        Recoverable environment cipher inOrder sealed (Protected.stamp record uri)) ∧
    ∀ (id : String) (request sealed : TaskRequest),
      Routine.Ends environment.handle (service.encrypt context request) shared (.ok (), sealed)
        last →
      inOrder last.outside ∧ ∃ uri, Settled context shared last uri ∧
        Recoverable environment cipher inOrder (Task.ofRequest id sealed)
          (Task.ofRequest id (Protected.stamp request uri)) := by
  constructor
  · intro kind record sealed ends
    obtain ⟨uri, settled, seals⟩ := ends_encrypt marks own ready named ends
    exact ⟨marks.ends ends ready, uri, settled, recoverable_of_treats marks settled.named seals⟩
  · intro id request sealed ends
    obtain ⟨uri, settled, seals⟩ := ends_encrypt marks own ready named ends
    have kept : Protected.layout.Treats (Layout.Seals (Reversible.read (.named uri)))
        (Protected.stamp (Task.ofRequest id request) uri) (Task.ofRequest id sealed) :=
      Task.treats_ofRequest id seals
    exact ⟨marks.ends ends ready, uri, settled, recoverable_of_treats marks settled.named kept⟩

/-- A simulation whose broker names the key that it creates with the sign that marks end with. -/
def marking : Simulation where
  broker := {
    host := "kms"
    script := [.reply { status := 201, keys := [{ uri := some "kms|1" }] }] }
  draws := { source := fun _ _ => 0 }
  standIns := ⟨[.reversible {}]⟩

/-- Somebody encrypts a title and empty notes in an unbound context, and the task kept for the
request is recovered. -/
theorem decrypt_encrypt_task :
    let service : Service := {}
    let shared : Shared Simulation := { outside := marking }
    let request : TaskRequest := { title := some "x", notes := some "", status := some "open" }
    ∃ sealed last, Routine.Ends Simulation.environment.handle (service.encrypt 0 request) shared
        (.ok (), sealed) last ∧
      sealed.title = some "kms|1|78" ∧ ∃ uri, Settled 0 shared last uri ∧
        Recoverable Simulation.environment 0
          (fun simulation => ∃ state, simulation.standIn 0 = .reversible state ∧ state.refused = [])
          (Task.ofRequest "1" sealed) (Task.ofRequest "1" (Protected.stamp request uri)) := by
  intro service shared request
  let first := Routine.turn Simulation.environment.handle (service.encrypt 0 request) shared
  let second := Routine.turn Simulation.environment.handle first.rest first.state
  let sealed : TaskRequest := {
    title := some "kms|1|78", notes := some "", status := some "open"
    encryptionKeyUrl := some ⟨"kms|1"⟩ }
  have ended : second.rest.result? = some (.ok (), sealed) := by
    decide +kernel
  have ends : Routine.Ends Simulation.environment.handle (service.encrypt 0 request) shared
      (.ok (), sealed) second.state := by
    have turns := (Routine.steps_turn Simulation.environment.handle (service.encrypt 0 request)
      shared).trans (Routine.steps_turn _ first.rest first.state)
    rw [Routine.Ends, ← Routine.eq_done_of_result? ended]
    exact turns
  have named : ∀ uri, (shared.context 0).keyUrl = some uri → uri.isEmpty = false := by
    intro uri bound
    cases bound
  have found := (decrypt_encrypt (Simulation.marks 0) rfl ⟨{}, rfl, rfl⟩ named).2 "1" request sealed
    ends
  exact ⟨sealed, second.state, ends, rfl, found.2⟩

end Service

end FieldCrypt
