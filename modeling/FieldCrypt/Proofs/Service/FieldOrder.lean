import FieldCrypt.Proofs.Record.FieldOrder
import FieldCrypt.Proofs.Service.Batch
import Mathlib.Algebra.BigOperators.Group.Multiset.Basic

/-!
# Fields in any order

A record is encrypted or decrypted with the fields of a separate layout, and then with the same fields
in another order, by a cipher that has one answer to each question. The texts are asked about side by
side, so a record of what goes out is compared up to its order: a ledger keeps account of the questions
that have still to be asked.
-/

namespace FieldCrypt

open Client (creation createdUri)

variable {σ R : Type}

/-- The questions about these texts, with their answers. -/
def Question.about (cipher : CipherId)
    (answer : Direction → KeyHandle → String → Except CryptoError String) (direction : Direction)
    (key : KeyHandle) (texts : List String) : List Question :=
  texts.map fun text => ⟨cipher, direction, key, text, answer direction key text⟩

section Asking

variable {environment : Environment σ} {cipher : CipherId}
  {answer : Direction → KeyHandle → String → Except CryptoError String} {like : σ → Prop}
  {start : Shared σ × List Outward} {total : Multiset Question}

/-- What is held are questions that have still to be asked, of those that there are in total. -/
def asking (like : σ → Prop) (start : Shared σ × List Outward) (total : Multiset Question) :
    Ledger (Multiset Question) (Shared σ × List Outward) where
  agrees held now := Asks like start now ∧
    ∃ asked : List Question, now.2 = start.2 ++ asked.map .inr ∧ held + asked = total
  stuck _ _ := False

theorem asking_live : (asking like start total).Live where
  add _ _ _ stuck _ := stuck
  free _ _ _ stuck := stuck

namespace Environment.Stateless

variable (stateless : environment.Stateless cipher answer like)
include stateless

theorem transform_accounts (direction : Direction) (key : KeyHandle) (text : String) :
    ((Provider.outside cipher).transform direction key text).Accounts environment.observer
      (asking like start total) {⟨cipher, direction, key, text, answer direction key text⟩}
      (Routine.EmptyHanded (· = answer direction key text)) := by
  rintro others ⟨shared, record⟩ ⟨⟨ready, contexts, caches, -⟩, asked, noted, rfl⟩
  have answered := stateless.answers direction key text shared.outside ready
  refine ⟨nofun, fun outcome next handled => ?_⟩
  cases handled
  let question : Question := ⟨cipher, direction, key, text, answer direction key text⟩
  have noted' : record ++ [.inr ⟨cipher, direction, key, text,
      (environment.transform cipher direction key text shared.outside).1⟩] =
      start.2 ++ (asked ++ [question]).map .inr := by
    rw [answered, List.map_append, ← List.append_assoc, ← noted]
    rfl
  refine ⟨0, ⟨⟨stateless.transform direction key text shared.outside ready, contexts, caches,
    asked ++ [question], noted'⟩, asked ++ [question], noted', ?_⟩, rfl, answered⟩
  calc 0 + others + ((asked ++ [question] : List Question) : Multiset Question)
    _ = others + (asked + {question}) := by
          rw [zero_add, ← Multiset.coe_add, Multiset.coe_singleton]
    _ = {question} + others + asked := by
          rw [← add_assoc, add_comm (others + _), ← add_assoc]

/-- Applying a layout asks about each text once, in some order. -/
theorem apply_leads (direction : Direction) (key : KeyHandle) (layout : Layout R) (record : R)
    (ready : like start.1.outside) :
    Routine.Leads environment.observer
      (layout.apply (Provider.outside cipher).transform direction key record, start)
      (layout.applied (answer direction key) record) fun last =>
        last.2.Perm (start.2 ++
          (Question.about cipher answer direction key (layout.texts record)).map .inr) := by
  let total := Question.about cipher answer direction key (layout.texts record)
  have together : (layout.apply (Provider.outside cipher).transform direction key record).Accounts
      environment.observer (asking like start total)
      ((layout.takeOut record).map fun excerpt =>
        ({⟨cipher, direction, key, excerpt.text, answer direction key excerpt.text⟩} :
          Multiset Question)).sum
      (Routine.EmptyHanded (· = layout.applied (answer direction key) record)) := by
    refine (Routine.Accounts.all_map fun excerpt _ =>
      stateless.transform_accounts direction key excerpt.text).bind ?_
    rintro _ _ ⟨rfl, rfl⟩
    exact ⟨rfl, rfl⟩
  have shares : ((layout.takeOut record).map fun excerpt =>
      ({⟨cipher, direction, key, excerpt.text, answer direction key excerpt.text⟩} :
        Multiset Question)).sum = total := by
    rw [← Multiset.sum_map_singleton (total : Multiset Question)]
    simp only [total, Question.about, Layout.texts, List.map_map, Multiset.map_coe,
      Multiset.sum_coe]
    rfl
  rw [shares] at together
  refine (together.leads asking_live ⟨.refl ready, [], by simp, add_zero _⟩).mono ?_
  rintro last ⟨-, asked, noted, all⟩
  rw [zero_add] at all
  rw [noted]
  exact ((Multiset.coe_eq_coe.mp all).map _).append_left _

end Environment.Stateless

end Asking

namespace Layout

variable {layout other : Layout R} {outcome : String → Except CryptoError String} {record : R}

theorem Separate.applied_exact (separate : layout.Separate) :
    layout.Exact record (layout.takeOut record)
      ((layout.takeOut record).map fun call => outcome call.text)
      (layout.applied outcome record) :=
  separate.exact (lists_takeOut layout record) (List.length_map _)

theorem Separate.read_applied (separate : layout.Separate) {field : Field R}
    (member : field ∈ layout.fields) :
    field.read (layout.applied outcome record).2 = (field.read record).map (attempted outcome) :=
  separate.applied_exact.read_eq (lists_takeOut layout record) member

/-- The record is the same in the end. -/
theorem Separate.applied_perm (separate : layout.Separate)
    (perm : layout.fields.Perm other.fields) :
    (layout.applied outcome record).2 = (other.applied outcome record).2 := by
  have separate' := separate.perm perm
  apply eq_of_reads separate.sound separate.apart
  · calc layout.blank (layout.applied outcome record).2
      _ = layout.blank record := separate.applied_exact.outside
      _ = other.blank record := separate.blank_perm perm record
      _ = other.blank (other.applied outcome record).2 := separate'.applied_exact.outside.symm
      _ = layout.blank (other.applied outcome record).2 := (separate.blank_perm perm _).symm
  · intro field member
    rw [separate.read_applied member, separate'.read_applied (perm.mem_iff.mp member)]

/-- The texts that were tried, with what each came to. -/
theorem tried_eq (layout : Layout R) (outcome : String → Except CryptoError String) (record : R) :
    (layout.takeOut record).zip ((layout.takeOut record).map fun call => outcome call.text) =
      (layout.takeOut record).map fun call => (call, outcome call.text) :=
  List.map_prod_left_eq_zip.symm

theorem applied_fine_iff : (layout.applied outcome record).1 = .ok () ↔
    ∀ text ∈ layout.texts record, ∃ result, outcome text = .ok result := by
  change firstFailure _ = .ok () ↔ _
  rw [firstFailure_eq_ok_iff, tried_eq, texts, List.forall_mem_map, List.forall_mem_map]

theorem applied_fine_perm (outcome : String → Except CryptoError String) (record : R)
    (perm : layout.fields.Perm other.fields) :
    (layout.applied outcome record).1 = .ok () ↔ (other.applied outcome record).1 = .ok () := by
  rw [applied_fine_iff, applied_fine_iff]
  simp only [(texts_perm perm record).mem_iff]

/-- A field of the layout still holds a text that was asked about and refused with this fault. -/
def Refused (layout : Layout R) (sent : List Outward) (after : R) (name : String)
    (fault : CryptoError) : Prop :=
  ∃ field ∈ layout.fields, field.name = name ∧ ∃ question : Question,
    .inr question ∈ sent ∧ question.outcome = .error fault ∧ question.text ∈ field.read after

/-- The same is reported, or in both cases a field with a text that was refused. -/
inductive Agree (layout : Layout R) (sent : List Outward) (after : R) :
    Except RecordError Unit → Except RecordError Unit → Prop where
  | same (report : Except RecordError Unit) : Agree layout sent after report report
  | refused {name name' : String} {fault fault' : CryptoError}
      (first : layout.Refused sent after name fault)
      (second : layout.Refused sent after name' fault') :
      Agree layout sent after (.error (.field name fault)) (.error (.field name' fault'))

variable {sent : List Outward}

/-- Each of these texts was asked about, with this outcome. -/
def AskedAbout (outcome : String → Except CryptoError String) (texts : List String)
    (sent : List Outward) : Prop :=
  ∀ text ∈ texts, ∃ question : Question,
    .inr question ∈ sent ∧ question.text = text ∧ question.outcome = outcome text

/-- An error that comes of applying a layout tells of a text that was refused, and is where it was. -/
theorem Separate.refused_of_applied (separate : layout.Separate) {error : RecordError}
    (failed : (layout.applied outcome record).1 = .error error)
    (asked : AskedAbout outcome (layout.texts record) sent) :
    ∃ name fault, error = .field name fault ∧
      layout.Refused sent (layout.applied outcome record).2 name fault := by
  obtain ⟨index, call, fault, there, -, rfl⟩ := exists_of_firstFailure failed
  rw [tried_eq] at there
  obtain ⟨call, member, same⟩ := List.mem_map.mp (List.mem_of_getElem? there)
  obtain ⟨rfl, came⟩ := Prod.mk.inj same
  obtain ⟨named, held, -⟩ := ((lists_takeOut layout record).mem _).mp member
  obtain ⟨field, here, named⟩ := Option.map_eq_some_iff.mp named
  rw [slot?, here, Option.bind_some] at held
  obtain ⟨question, noted, about, answered⟩ := asked _ (List.mem_map_of_mem member)
  refine ⟨_, fault, rfl, field, List.mem_of_getElem? here, named, question, noted,
    answered.trans came, ?_⟩
  rw [about, separate.read_applied (List.mem_of_getElem? here)]
  exact List.mem_map.mpr ⟨_, List.mem_of_getElem? held, attempted_error came⟩

/-- Who is refused in one order is refused in the other one as well. -/
theorem Separate.applied_agree (separate : layout.Separate)
    (perm : layout.fields.Perm other.fields)
    (asked : AskedAbout outcome (layout.texts record) sent) :
    layout.Agree sent (layout.applied outcome record).2 (layout.applied outcome record).1
      (other.applied outcome record).1 := by
  have fine := applied_fine_perm outcome record perm
  cases report : (layout.applied outcome record).1 with
  | ok _ =>
      rw [fine.mp report]
      exact .same _
  | error error =>
      cases report' : (other.applied outcome record).1 with
      | ok _ => cases report.symm.trans (fine.mpr report')
      | error error' =>
          obtain ⟨name, fault, rfl, refused⟩ := separate.refused_of_applied report asked
          have asked' : AskedAbout outcome (other.texts record) sent :=
            fun text member => asked text ((texts_perm perm record).mem_iff.mpr member)
          obtain ⟨name', fault', rfl, field, member, refused'⟩ :=
            (separate.perm perm).refused_of_applied report' asked'
          rw [← separate.applied_perm perm] at refused'
          exact .refused refused ⟨field, perm.mem_iff.mpr member, refused'⟩

/-- Each of the two comes to one end, whatever order its steps are taken in. The record that is left
is the same, what has gone out is the same up to its order, and the reports agree. -/
def SameWork (layout : Layout R) (environment : Environment σ) (shared : Shared σ)
    (first second : Routine Effect (Except RecordError Unit × R)) : Prop :=
  ∃ report report' after sent, layout.Agree sent after report report' ∧
    Routine.Leads environment.observer (first, shared, []) (report, after)
      (fun last => last.2.Perm sent) ∧
    Routine.Leads environment.observer (second, shared, []) (report', after)
      fun last => last.2.Perm sent

variable {environment : Environment σ} {cipher : CipherId}
  {answer : Direction → KeyHandle → String → Except CryptoError String} {like : σ → Prop}
  {shared : Shared σ}

/-- Two routines that come to the same with the same things sent need not be told apart. -/
theorem sameWork_of_leads {first second : Routine Effect (Except RecordError Unit × R)}
    {ended : Except RecordError Unit × R}
    (leads : Routine.Leads environment.observer (first, shared, []) ended (·.2 = sent))
    (leads' : Routine.Leads environment.observer (second, shared, []) ended (·.2 = sent)) :
    layout.SameWork environment shared first second :=
  ⟨ended.1, ended.1, ended.2, sent, .same _, leads.mono fun _ noted => .of_eq noted,
    leads'.mono fun _ noted => .of_eq noted⟩

/-- When it is settled what goes before, either layout is applied from there with the same work. -/
theorem Separate.sameWork_apply (separate : layout.Separate)
    (stateless : environment.Stateless cipher answer like)
    (perm : layout.fields.Perm other.fields) {α : Type} {routine : Routine Effect α} {found : α}
    {before : List Outward} (leads : Routine.Leads environment.observer (routine, shared, []) found
      fun middle => like middle.1.outside ∧ middle.2 = before)
    {direction : Direction} {key : KeyHandle} {record : R}
    {next : Layout R → α → Routine Effect (Except RecordError Unit × R)}
    (onward : ∀ used : Layout R, next used found =
      used.apply (Provider.outside cipher).transform direction key record) :
    layout.SameWork environment shared (routine >>= next layout) (routine >>= next other) := by
  let questions := Question.about cipher answer direction key
  refine ⟨_, _, (layout.applied (answer direction key) record).2,
    before ++ (questions (layout.texts record)).map .inr, separate.applied_agree perm ?_,
    leads.bind ?_, leads.bind ?_⟩
  · intro text member
    refine ⟨⟨cipher, direction, key, text, answer direction key text⟩, ?_, rfl, rfl⟩
    exact List.mem_append_right _ (List.mem_map_of_mem (List.mem_map_of_mem member))
  · rintro middle ⟨ready, rfl⟩
    rw [onward]
    exact stateless.apply_leads direction key layout record ready
  · rintro middle ⟨ready, rfl⟩
    rw [onward, separate.applied_perm perm]
    refine (stateless.apply_leads direction key other record ready).mono fun last asked => ?_
    exact asked.trans ((((texts_perm perm record).symm.map _).map _).append_left _)

end Layout

namespace Protected

variable [Protected R] {environment : Environment σ} {cipher : CipherId}
  {answer : Direction → KeyHandle → String → Except CryptoError String} {like : σ → Prop}
  {layout other : Layout R} {shared : Shared σ}

open Routine (Ends Leads)

theorem decryptWith_sameWork (stateless : environment.Stateless cipher answer like)
    (separate : layout.Separate) (perm : layout.fields.Perm other.fields)
    (ready : like shared.outside) (record : R) :
    layout.SameWork environment shared
      (decryptWith (Provider.outside cipher).transform layout record)
      (decryptWith (Provider.outside cipher).transform other record) := by
  unfold decryptWith
  cases (keyUrl record).filter fun uri => !uri.isEmpty with
  | some uri =>
      let next (used : Layout R) (_ : Unit) :=
        used.apply (Provider.outside cipher).transform .decrypt (.named uri) record
      have onward (used : Layout R) : next used () =
        used.apply (Provider.outside cipher).transform .decrypt (.named uri) record := rfl
      exact separate.sameWork_apply stateless perm (Routine.leads_done () ⟨ready, rfl⟩) onward
  | none => exact Layout.sameWork_of_leads (Routine.leads_done _ rfl) (Routine.leads_done _ rfl)

/-- What is done with the key of a context. -/
def encryptUnder (transform : Transform) (record : R) (layout : Layout R) :
    Except RecordError KeyUri → Routine Effect (Except RecordError Unit × R)
  | .ok uri => layout.apply transform .encrypt (.named uri) (stamp record uri)
  | .error error => .done (.error error, record)

theorem encryptWith_eq (transform : Transform) (layout : Layout R) (context : ContextId)
    (record : R) : encryptWith transform layout context record =
      Client.boundKey context >>= encryptUnder transform record layout := by
  refine congrArg (Client.boundKey context >>= ·) (funext fun outcome => ?_)
  cases outcome <;> rfl

/-- Who does not find the guard of an unbound context held comes to one outcome, and nothing goes out
but what does so every time. -/
theorem exists_leads_boundKey (stateless : environment.Stateless cipher answer like)
    (ready : like shared.outside) {context : ContextId}
    (passes : (shared.context context).keyUrl = none →
      (shared.context context).guard.isFree = true) :
    ∃ outcome sent, Leads environment.observer (Client.boundKey context, shared, []) outcome
      fun middle => like middle.1.outside ∧ middle.2 = sent := by
  cases bound : (shared.context context).keyUrl with
  | some uri =>
      refine ⟨.ok uri, [], (Context.leads_boundKey_bound bound).mono ?_⟩
      rintro _ rfl
      exact ⟨ready, rfl⟩
  | none =>
      refine ⟨_, [.inl (creation, (environment.send creation shared.outside).1)],
        (Context.leads_boundKey bound (passes bound) rfl).mono ?_⟩
      rintro middle ⟨outside, -, noted⟩
      rw [outside]
      exact ⟨stateless.send creation shared.outside ready, noted⟩

theorem encryptWith_sameWork (stateless : environment.Stateless cipher answer like)
    (separate : layout.Separate) (perm : layout.fields.Perm other.fields)
    (ready : like shared.outside) {context : ContextId} (record : R)
    (passes : (shared.context context).keyUrl = none →
      (shared.context context).guard.isFree = true) :
    layout.SameWork environment shared
      (encryptWith (Provider.outside cipher).transform layout context record)
      (encryptWith (Provider.outside cipher).transform other context record) := by
  rw [encryptWith_eq, encryptWith_eq]
  obtain ⟨outcome, sent, leads⟩ := exists_leads_boundKey stateless ready passes
  cases outcome with
  | ok uri =>
      have onward (used : Layout R) :
          encryptUnder (Provider.outside cipher).transform record used (.ok uri) =
            used.apply (Provider.outside cipher).transform .encrypt (.named uri)
              (stamp record uri) := rfl
      exact separate.sameWork_apply stateless perm leads onward
  | error error =>
      apply Layout.sameWork_of_leads
      · exact leads.bind fun _ settled => Routine.leads_done _ settled.2
      · exact leads.bind fun _ settled => Routine.leads_done _ settled.2

/-- Let a cipher have one answer to each question, and let the fields of a separate layout be listed
in another order. To decrypt a record comes to the same with either layout, and so does to encrypt it,
unless somebody else holds the guard of an unbound context, where nobody comes to an end: whatever
order steps are taken in, the same record is left, what is sent to the broker and asked of the cipher
is the same up to its order, and either both succeed or both fail. They fail with the same error, or
else each reports a field that still holds a text with which the cipher has failed. -/
theorem fields_in_any_order (stateless : environment.Stateless cipher answer like)
    (separate : layout.Separate) (perm : layout.fields.Perm other.fields)
    (ready : like shared.outside) (context : ContextId) (record : R) :
    let transform := (Provider.outside cipher).transform
    layout.SameWork environment shared (decryptWith transform layout record)
      (decryptWith transform other record) ∧
    (((shared.context context).keyUrl = none → (shared.context context).guard.isFree = true) →
      layout.SameWork environment shared (encryptWith transform layout context record)
        (encryptWith transform other context record)) ∧
    ((shared.context context).keyUrl = none → (shared.context context).guard.isFree = false →
      ∀ (used : Layout R) ended last,
        ¬ Ends environment.observer (encryptWith transform used context record) (shared, []) ended
          last) := by
  intro transform
  refine ⟨decryptWith_sameWork stateless separate perm ready record,
    encryptWith_sameWork stateless separate perm ready record, ?_⟩
  intro unbound held used ended last ends
  rw [encryptWith_eq] at ends
  obtain ⟨_, _, binds, -⟩ := Routine.ends_bind ends
  exact Context.not_ends_boundKey unbound held binds

/-- Two texts of an activity are refused, and which of them is reported depends on the order of the
fields. Its file is renamed either way. -/
theorem fields_in_any_order_reversed :
    let shared : Shared Simulation := {
      outside := {
        broker := { host := "kms" }
        draws := { source := fun _ _ => 0 }
        standIns := ⟨[.reversible { refused := ["secret", "hidden"] }]⟩ }
      contexts := ⟨[{ keyUrl := some ⟨"k"⟩ }]⟩ }
    let activity : Activity := {
      displayName := some "secret"
      content := some "hidden"
      files := [{ displayName := some "x" }] }
    let after : Activity := { activity with
      files := [{ displayName := some "k|78" }]
      encryptionKeyUrl := some ⟨"k"⟩ }
    let reversed : Layout Activity := ⟨(Protected.layout : Layout Activity).fields.reverse⟩
    let ran (used : Layout Activity) :=
      Routine.run Simulation.environment.observer
        (encryptWith (Provider.outside 0).transform used 0 activity) (shared, [])
    ∃ last last',
      ran Protected.layout =
        some ((.error (.field "displayName" (.encrypt "refused: secret")), after), last) ∧
      ran reversed =
        some ((.error (.field "content" (.encrypt "refused: hidden")), after), last') ∧
      last.2.Perm last'.2 := by
  intro shared activity after reversed ran
  let turned (used : Layout Activity) := (Routine.round Simulation.environment.observer)^[1]
    (encryptWith (Provider.outside 0).transform used 0 activity, shared, [])
  have fails : (turned Protected.layout).1.result? =
      some (.error (.field "displayName" (.encrypt "refused: secret")), after) := by
    decide +kernel
  have fails' : (turned reversed).1.result? =
      some (.error (.field "content" (.encrypt "refused: hidden")), after) := by
    decide +kernel
  have perm : (Protected.layout : Layout Activity).fields.Perm reversed.fields :=
    (List.reverse_perm _).symm
  have ready : ∃ state, shared.outside.standIn 0 = .reversible state ∧
      state.refused = ["secret", "hidden"] := ⟨_, rfl, rfl⟩
  obtain ⟨-, encrypts, -⟩ := fields_in_any_order (Simulation.stateless 0 ["secret", "hidden"])
    Layout.separate_activity perm ready 0 activity
  obtain ⟨report, report', left, sent, -, leads, leads'⟩ := encrypts nofun
  obtain ⟨same, -⟩ := leads.of_ends (Routine.ends_of_rounds fails)
  obtain ⟨same', -⟩ := leads'.of_ends (Routine.ends_of_rounds fails')
  obtain ⟨last, ran, noted⟩ := leads.run
  obtain ⟨last', ran', noted'⟩ := leads'.run
  rw [← same] at ran
  rw [← same'] at ran'
  exact ⟨last, last', ran, ran', noted.trans noted'.symm⟩

end Protected

end FieldCrypt
