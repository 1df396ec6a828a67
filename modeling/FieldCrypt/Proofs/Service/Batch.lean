import FieldCrypt.Proofs.Context.Passage
import FieldCrypt.Proofs.Service.Confluence

/-!
# Several records at once

To encrypt or decrypt several records side by side comes to the same as to do it with each of them
alone, when the cipher answers the same question in the same way every time. The records do not
matter to one another, whatever fails. Only the key of the context is got once for all of them, and
nothing else is done when that fails.
-/

namespace FieldCrypt

open Client (creation createdUri)

variable {σ : Type}

/-- While the outside is like this, a cipher has one answer to each question, and neither asking it
nor sending requests to the broker makes the outside any different. -/
structure Environment.Stateless (environment : Environment σ) (cipher : CipherId)
    (answer : Direction → KeyHandle → String → Except CryptoError String) (like : σ → Prop) :
    Prop where
  answers : ∀ direction key text outside, like outside →
    (environment.transform cipher direction key text outside).1 = answer direction key text
  transform : ∀ direction key text outside, like outside →
    like (environment.transform cipher direction key text outside).2
  send : ∀ call outside, like outside → like (environment.send call outside).2

/-- The answer of a stand-in depends on what it refuses, and not on how often it was asked. -/
theorem Simulation.stateless (cipher : CipherId) (refused : List String) :
    Simulation.environment.Stateless cipher (Reversible.outcome refused) fun simulation =>
      ∃ state, simulation.standIn cipher = .reversible state ∧ state.refused = refused where
  answers direction key text simulation := by
    rintro ⟨state, standIn, rfl⟩
    simp only [Simulation.environment, standIn, StandIn.transform, Reversible.transform]
  transform direction key text simulation := by
    rintro ⟨state, standIn, rfl⟩
    refine ⟨state.count direction, ?_, by cases direction <;> rfl⟩
    simp only [Simulation.environment, standIn, StandIn.transform, Reversible.transform]
    exact Numbered.get_modify_self _ _ _
  send call simulation := id

/-- Ciphers were asked since, and nothing else was done. -/
structure Asks (like : σ → Prop) (start now : Shared σ × List Outward) : Prop where
  ready : like now.1.outside
  contexts : now.1.contexts = start.1.contexts
  caches : now.1.caches = start.1.caches
  questions : ∃ questions : List Question, now.2 = start.2 ++ questions.map .inr

theorem Asks.refl {like : σ → Prop} {start : Shared σ × List Outward}
    (ready : like start.1.outside) : Asks like start start where
  ready := ready
  contexts := rfl
  caches := rfl
  questions := ⟨[], (List.append_nil _).symm⟩

theorem Asks.context_eq {like : σ → Prop} {start now : Shared σ × List Outward}
    (asks : Asks like start now) (context : ContextId) :
    now.1.context context = start.1.context context :=
  congrArg (Numbered.get · context) asks.contexts

/-- Who only asks ciphers after that leaves the contexts like that. -/
theorem Context.Passed.asks {like : σ → Prop} {context : ContextId} {url : Option KeyUri}
    {before : Shared σ} {middle last : Shared σ × List Outward}
    (passed : Context.Passed context url before middle.1) (asks : Asks like middle last) :
    Context.Passed context url before last.1 where
  url := by
    rw [asks.context_eq]
    exact passed.url
  free := by
    rw [asks.context_eq]
    exact passed.free
  others other differs := (asks.context_eq other).trans (passed.others other differs)
  caches := asks.caches.trans passed.caches

namespace Protected

variable {R : Type}

/-- What several records come to is what each of them comes to alone. It is reported that all went
well if that is so for each, and the first error in the order of the records otherwise. -/
structure Separately (alone : R → Except RecordError Unit × R) (records : List R)
    (ended : Except RecordError Unit × List R) : Prop where
  each : ended.2 = records.map fun record => (alone record).2
  fine : (∀ record ∈ records, (alone record).1 = .ok ()) → ended.1 = .ok ()
  failed : ∀ (index : Nat) record error, records[index]? = some record →
    (alone record).1 = .error error →
    (∀ earlier < index, ∃ other, records[earlier]? = some other ∧ (alone other).1 = .ok ()) →
    ended.1 = .error error

/-- Outcomes side by side as one. -/
def gathered (outcomes : List (Except RecordError Unit × R)) : Except RecordError Unit × List R :=
  (combined outcomes, outcomes.map Prod.snd)

theorem combined_cons (first : Except RecordError Unit × R)
    (rest : List (Except RecordError Unit × R)) :
    combined (first :: rest) =
      match first.1 with
      | .ok _ => combined rest
      | .error error => .error error := by
  obtain ⟨error | _, _⟩ := first <;> rfl

variable {alone : R → Except RecordError Unit × R}

theorem combined_fine {records : List R} (fine : ∀ record ∈ records, (alone record).1 = .ok ()) :
    combined (records.map alone) = .ok () := by
  induction records with
  | nil => rfl
  | cons record rest ih =>
      obtain ⟨head, others⟩ := List.forall_mem_cons.mp fine
      rw [List.map_cons, combined_cons, head]
      exact ih others

theorem combined_failed {records : List R} {index : Nat} {record : R} {error : RecordError}
    (there : records[index]? = some record) (fails : (alone record).1 = .error error)
    (fine : ∀ earlier < index,
      ∃ other, records[earlier]? = some other ∧ (alone other).1 = .ok ()) :
    combined (records.map alone) = .error error := by
  induction records generalizing index with
  | nil => cases there
  | cons first rest ih =>
      cases index with
      | zero =>
          obtain rfl := Option.some.inj there
          rw [List.map_cons, combined_cons, fails]
      | succ index =>
          obtain ⟨_, head, well⟩ := fine 0 (Nat.succ_pos index)
          obtain rfl := Option.some.inj head
          rw [List.map_cons, combined_cons, well]
          exact ih there fun earlier less => fine (earlier + 1) (Nat.succ_lt_succ less)

theorem separately_gathered (alone : R → Except RecordError Unit × R) (records : List R) :
    Separately alone records (gathered (records.map alone)) where
  each := List.map_map
  fine := combined_fine
  failed _ _ _ there fails fine := combined_failed there fails fine

variable [Protected R]

/-- What decrypting a record comes to. -/
def decrypted (answer : Direction → KeyHandle → String → Except CryptoError String) (record : R) :
    Except RecordError Unit × R :=
  match (keyUrl record).filter fun uri => !uri.isEmpty with
  | some uri => layout.applied (answer .decrypt (.named uri)) record
  | none => (.ok (), record)

/-- What encrypting a record comes to, under the key of this URI. -/
def encrypted (answer : Direction → KeyHandle → String → Except CryptoError String) (uri : KeyUri)
    (record : R) : Except RecordError Unit × R :=
  layout.applied (answer .encrypt (.named uri)) (stamp record uri)

/-- Records are encrypted once there is a key, side by side. -/
def encryptEach (transform : Transform) (context : ContextId) (records : List R) :
    Except RecordError KeyUri → Routine Effect (Except RecordError Unit × List R)
  | .ok _ => Routine.all (records.map (encrypt transform context)) >>= fun outcomes =>
      .done (gathered outcomes)
  | .error error => .done (.error error, records)

theorem encryptAll_eq (transform : Transform) (context : ContextId) {records : List R}
    (several : records ≠ []) :
    encryptAll transform context records =
      Client.boundKey context >>= encryptEach transform context records := by
  cases records with
  | nil => exact (several rfl).elim
  | cons record rest =>
      refine congrArg (Client.boundKey context >>= ·) (funext fun outcome => ?_)
      cases outcome <;> rfl

end Protected

section Asking

open Protected

variable {environment : Environment σ} {cipher : CipherId}
  {answer : Direction → KeyHandle → String → Except CryptoError String} {like : σ → Prop}
  {start : Shared σ × List Outward} {R : Type}

namespace Environment.Stateless

variable (stateless : environment.Stateless cipher answer like)
include stateless

theorem transform_keeps (direction : Direction) (key : KeyHandle) (text : String) :
    ((Provider.outside cipher).transform direction key text).Keeps environment.observer
      (Asks like start) (· = answer direction key text) := by
  rintro ⟨shared, record⟩ ⟨ready, contexts, caches, questions, noted⟩
  have answered := stateless.answers direction key text shared.outside ready
  refine ⟨_, _, rfl, ?_, answered⟩
  refine ⟨stateless.transform direction key text shared.outside ready, contexts, caches, ?_⟩
  refine ⟨questions ++ [⟨cipher, direction, key, text,
    (environment.transform cipher direction key text shared.outside).1⟩], ?_⟩
  rw [List.map_append, ← List.append_assoc, ← noted]
  rfl

theorem apply_keeps (direction : Direction) (key : KeyHandle) (layout : Layout R) (record : R) :
    (layout.apply (Provider.outside cipher).transform direction key record).Keeps
      environment.observer (Asks like start)
      (· = layout.applied (answer direction key) record) := by
  have each (excerpt : Excerpt) (_ : excerpt ∈ layout.takeOut record) :
      ((Provider.outside cipher).transform direction key excerpt.text).Keeps environment.observer
        (Asks like start) (· = answer direction key excerpt.text) :=
    stateless.transform_keeps direction key excerpt.text
  exact .all_map_done each _

variable [Protected R]

theorem decrypt_keeps (record : R) :
    (decrypt (Provider.outside cipher).transform record).Keeps environment.observer
      (Asks like start) (· = decrypted answer record) := by
  unfold decrypt decryptWith decrypted
  generalize (keyUrl record).filter (fun uri => !uri.isEmpty) = key
  cases key with
  | some uri => exact stateless.apply_keeps .decrypt (.named uri) _ record
  | none => rfl

theorem decryptAll_keeps (records : List R) :
    (decryptAll (Provider.outside cipher).transform records).Keeps environment.observer
      (Asks like start) (· = gathered (records.map (decrypted answer))) :=
  .all_map_done (fun record _ => stateless.decrypt_keeps record) gathered

variable {context : ContextId} {uri : KeyUri}

omit stateless in
theorem boundKey_keeps (bound : (start.1.context context).keyUrl = some uri) :
    (Client.boundKey context).Keeps environment.observer (Asks like start) (· = .ok uri) := by
  rw [Client.boundKey, Context.bindOnce_eq]
  rintro ⟨shared, record⟩ asks
  have still : (shared.context context).keyUrl = some uri :=
    (congrArg Context.keyUrl (asks.context_eq context)).trans bound
  have looked := environment.handle_keyUrl still
  exact ⟨some uri, (shared, record), Environment.observer_silent looked rfl record, asks, rfl⟩

theorem encrypt_keeps (bound : (start.1.context context).keyUrl = some uri) (record : R) :
    (encrypt (Provider.outside cipher).transform context record).Keeps environment.observer
      (Asks like start) (· = encrypted answer uri record) := by
  refine (boundKey_keeps bound).bind ?_
  rintro _ rfl
  exact stateless.apply_keeps .encrypt (.named uri) _ _

theorem encryptEach_keeps (bound : (start.1.context context).keyUrl = some uri) (records : List R) :
    (encryptEach (Provider.outside cipher).transform context records (.ok uri)).Keeps
      environment.observer (Asks like start)
      (· = gathered (records.map (encrypted answer uri))) :=
  .all_map_done (fun record _ => stateless.encrypt_keeps bound record) gathered

theorem encryptAll_keeps (bound : (start.1.context context).keyUrl = some uri) (records : List R) :
    (encryptAll (Provider.outside cipher).transform context records).Keeps environment.observer
      (Asks like start) (· = gathered (records.map (encrypted answer uri))) := by
  by_cases several : records = []
  · subst several
    rfl
  · rw [encryptAll_eq _ _ several]
    refine (boundKey_keeps bound).bind ?_
    rintro _ rfl
    exact stateless.encryptEach_keeps bound records

end Environment.Stateless

end Asking

namespace Protected

open Routine (Ends Leads)

variable {environment : Environment σ} {cipher : CipherId}
  {answer : Direction → KeyHandle → String → Except CryptoError String} {like : σ → Prop}
  {R : Type} [Protected R]

/-- Records are encrypted in an unbound context as in one that is bound to the key that is created
for it, with one request for that key. -/
theorem encryptAll_leads (stateless : environment.Stateless cipher answer like) {records : List R}
    {context : ContextId} {shared : Shared σ} (ready : like shared.outside) (several : records ≠ [])
    (unbound : (shared.context context).keyUrl = none)
    (free : (shared.context context).guard.isFree = true) {uri : KeyUri}
    (made : createdUri (environment.send creation shared.outside).1 = .ok uri) :
    Leads environment.observer
      (encryptAll (Provider.outside cipher).transform context records, shared, [])
      (gathered (records.map (encrypted answer uri))) fun last =>
        Context.Passed context (some uri) shared last.1 ∧ ∃ questions : List Question,
          last.2 = .inl (creation, (environment.send creation shared.outside).1) ::
            questions.map .inr := by
  rw [encryptAll_eq _ _ several]
  refine (Context.leads_boundKey unbound free made).bind ?_
  rintro middle ⟨outside, passed, noted⟩
  have ready' : like middle.1.outside := by
    rw [outside]
    exact stateless.send creation shared.outside ready
  refine ((stateless.encryptEach_keeps passed.url records).leads (.refl ready')).mono ?_
  intro last asks
  obtain ⟨questions, asked⟩ := asks.questions
  refine ⟨passed.asks asks, questions, ?_⟩
  rw [asked, noted]
  rfl

/-- Let a cipher have one answer to each question. To decrypt some records, whatever keys they have
or have not, comes to what each of them comes to alone, and so does to encrypt them in a bound
context. In an unbound context whose guard is free, one request for a key decides: all records are
encrypted as in a context that is bound to the key that was created, or the error is reported, with
the records and the context as they were and no cipher asked. While somebody else holds the guard
nobody comes to an end. For no records at all nothing is done. -/
theorem decryptAll_encryptAll_separately (stateless : environment.Stateless cipher answer like)
    (records : List R) (context : ContextId) {shared : Shared σ} (ready : like shared.outside) :
    let transform := (Provider.outside cipher).transform
    let start : Shared σ × List Outward := (shared, [])
    let reply := (environment.send creation shared.outside).1
    (∃ ended, Separately (decrypted answer) records ended ∧
      (∀ record : R, Leads environment.observer (decrypt transform record, start)
        (decrypted answer record) (Asks like start)) ∧
      Leads environment.observer (decryptAll transform records, start) ended (Asks like start)) ∧
    (∀ uri, (shared.context context).keyUrl = some uri →
      ∃ ended, Separately (encrypted answer uri) records ended ∧
        (∀ record : R, Leads environment.observer (encrypt transform context record, start)
          (encrypted answer uri record) (Asks like start)) ∧
        Leads environment.observer (encryptAll transform context records, start) ended
          (Asks like start)) ∧
    ((shared.context context).keyUrl = none → (shared.context context).guard.isFree = true →
      (∀ uri, createdUri reply = .ok uri → records ≠ [] →
        ∃ ended, Separately (encrypted answer uri) records ended ∧
          Leads environment.observer (encryptAll transform context records, start) ended
            fun last => Context.Passed context (some uri) shared last.1 ∧
              ∃ questions : List Question,
                last.2 = .inl (creation, reply) :: questions.map .inr) ∧
      ∀ error, createdUri reply = .error error →
        (∀ record : R, Leads environment.observer (encrypt transform context record, start)
          (.error error, record) fun last =>
            Context.Passed context none shared last.1 ∧ last.2 = [.inl (creation, reply)]) ∧
        (records ≠ [] → Leads environment.observer (encryptAll transform context records, start)
          (.error error, records) fun last =>
            Context.Passed context none shared last.1 ∧ last.2 = [.inl (creation, reply)])) ∧
    ((shared.context context).keyUrl = none → (shared.context context).guard.isFree = false →
      (∀ (record : R) ended last,
        ¬ Ends environment.observer (encrypt transform context record) start ended last) ∧
      (records ≠ [] → ∀ ended last,
        ¬ Ends environment.observer (encryptAll transform context records) start ended last)) ∧
    Leads environment.observer (encryptAll transform context ([] : List R), start) (.ok (), [])
      (· = start) := by
  intro transform start reply
  have begins : Asks like start start := .refl ready
  refine ⟨⟨_, separately_gathered _ records, fun record => ?_, ?_⟩,
    fun uri bound => ⟨_, separately_gathered _ records, fun record => ?_, ?_⟩,
    fun unbound free => ⟨fun uri made several => ⟨_, separately_gathered _ records, ?_⟩,
      fun error made => ⟨fun record => ?_, fun several => ?_⟩⟩,
    fun unbound held => ⟨fun record ended last ends => ?_, fun several ended last ends => ?_⟩, ?_⟩
  · exact (stateless.decrypt_keeps record).leads begins
  · exact (stateless.decryptAll_keeps records).leads begins
  · exact (stateless.encrypt_keeps bound record).leads begins
  · exact (stateless.encryptAll_keeps bound records).leads begins
  · exact encryptAll_leads stateless ready several unbound free made
  · refine Leads.bind (Context.leads_boundKey unbound free made) ?_
    rintro middle ⟨-, passed, noted⟩
    exact Routine.leads_done _ ⟨passed, noted⟩
  · rw [encryptAll_eq _ _ several]
    refine Leads.bind (Context.leads_boundKey unbound free made) ?_
    rintro middle ⟨-, passed, noted⟩
    exact Routine.leads_done _ ⟨passed, noted⟩
  · obtain ⟨_, _, binds, -⟩ := Routine.ends_bind ends
    exact Context.not_ends_boundKey unbound held binds
  · rw [encryptAll_eq _ _ several] at ends
    obtain ⟨_, _, binds, -⟩ := Routine.ends_bind ends
    exact Context.not_ends_boundKey unbound held binds
  · exact Routine.leads_done _ rfl

/-- Of five records one has no key and one a blank one, and one was sealed under another key than it
says. Of two records that are encrypted then, one has a title that the cipher refuses. -/
theorem decryptAll_encryptAll_separately_mixed :
    let shared : Shared Simulation := { outside := {
      broker := {
        host := "kms"
        script := [.reply { status := 201, keys := [{ uri := some "k" }] }] }
      draws := { source := fun _ _ => 0 }
      standIns := ⟨[.reversible { refused := ["secret"] }]⟩ } }
    let record (title : String) (uri : Option KeyUri) : TaskRequest :=
      { title := some title, encryptionKeyUrl := uri }
    let transform := (Provider.outside 0).transform
    (∃ last, Routine.run Simulation.environment.observer
        (decryptAll transform [record "k|78" (some ⟨"k"⟩), record "plain" none,
          record "blank" (some ⟨""⟩), record "k|78" (some ⟨"j"⟩), record "j|79" (some ⟨"j"⟩)])
        (shared, []) =
      some ((.error (.field "title" (.decrypt "not sealed under j")),
        [record "x" (some ⟨"k"⟩), record "plain" none, record "blank" (some ⟨""⟩),
          record "k|78" (some ⟨"j"⟩), record "y" (some ⟨"j"⟩)]), last)) ∧
    ∃ last, Routine.run Simulation.environment.observer
        (encryptAll transform 0 [record "secret" none, record "x" (some ⟨"j"⟩)]) (shared, []) =
      some ((.error (.field "title" (.encrypt "refused: secret")),
        [record "secret" (some ⟨"k"⟩), record "k|78" (some ⟨"k"⟩)]), last) ∧
      Context.Passed 0 (some ⟨"k"⟩) shared last.1 := by
  intro shared record transform
  have stateless := Simulation.stateless 0 ["secret"]
  have ready : ∃ state, shared.outside.standIn 0 = .reversible state ∧
      state.refused = ["secret"] := ⟨_, rfl, rfl⟩
  constructor
  · obtain ⟨⟨⟨outcome, opened⟩, separately, -, leads⟩, -⟩ :=
      decryptAll_encryptAll_separately stateless [record "k|78" (some ⟨"k"⟩), record "plain" none,
        record "blank" (some ⟨""⟩), record "k|78" (some ⟨"j"⟩), record "j|79" (some ⟨"j"⟩)] 0 ready
    obtain ⟨last, ran, -⟩ := leads.run
    have failed : outcome = .error (.field "title" (.decrypt "not sealed under j")) :=
      separately.failed 3 _ _ rfl (by decide +kernel) (by decide +kernel)
    have each : opened = [record "x" (some ⟨"k"⟩), record "plain" none, record "blank" (some ⟨""⟩),
        record "k|78" (some ⟨"j"⟩), record "y" (some ⟨"j"⟩)] :=
      separately.each.trans (by decide +kernel)
    rw [failed, each] at ran
    exact ⟨last, ran⟩
  · obtain ⟨-, -, unbound, -⟩ := decryptAll_encryptAll_separately stateless
      [record "secret" none, record "x" (some ⟨"j"⟩)] 0 ready
    obtain ⟨⟨outcome, sealed⟩, separately, leads⟩ :=
      (unbound rfl rfl).1 ⟨"k"⟩ (by decide +kernel) (List.cons_ne_nil _ _)
    obtain ⟨last, ran, passed, -⟩ := leads.run
    have failed : outcome = .error (.field "title" (.encrypt "refused: secret")) :=
      separately.failed 0 _ _ rfl (by decide +kernel) nofun
    have each : sealed = [record "secret" (some ⟨"k"⟩), record "k|78" (some ⟨"k"⟩)] :=
      separately.each.trans (by decide +kernel)
    rw [failed, each] at ran
    exact ⟨last, ran, passed⟩

end Protected

end FieldCrypt
