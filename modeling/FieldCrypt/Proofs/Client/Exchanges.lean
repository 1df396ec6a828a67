import FieldCrypt.Proofs.Client.Actions
import FieldCrypt.Proofs.Client.OneHop
import FieldCrypt.Proofs.Routine.Notes

/-!
# The exchanges of one client among others

Other callers may use the broker and the caches between any two steps of a client. What the client
itself sends and is answered still is as if it were alone: one hop at most where it resolves a URI,
and one exchange or none for every other action.
-/

namespace FieldCrypt

open Broker

variable {σ : Type} {environment : Environment σ} {notes : Notes Exchange}

/-- The request and what it is answered, if the effect is a request. -/
def Environment.exchanged (environment : Environment σ) :
    (β : Type) → Effect β → Shared σ → List Exchange
  | _, .send call, shared => [(call, (environment.send call shared.outside).1)]
  | _, _, _ => []

namespace Client

theorem exchanges_send {request : Request} {options : Option Options}
    {outcome : Except ClientError Reply}
    (recounts : (send request options).Recounts environment.handle environment.exchanged notes
      outcome) : notes = Notes.own [(⟨request, options⟩, outcome)] := by
  obtain ⟨shared, answer, next, later, handled, rfl, rfl, rfl⟩ := recounts
  obtain ⟨rfl, -⟩ := Prod.mk.inj (Option.some.inj handled)
  rfl

theorem exchanges_fetch {uri : KeyUri} (named : uri.text ≠ "") {options : Option Options}
    {result : Except ClientError KeyMaterial}
    (recounts : (fetch uri options).Recounts environment.handle environment.exchanged notes
      result) : ∃ sent, notes = Notes.own sent ∧ Asked uri.text options sent result := by
  obtain ⟨first, _, later, rfl, asking, onward⟩ := Routine.recounts_bind recounts
  obtain rfl := exchanges_send asking
  cases moved : redirect? first with
  | none =>
      rw [moved] at onward
      obtain ⟨rfl, rfl⟩ := onward
      refine ⟨_, List.append_nil _, .once ?_ (keyOfOutcome_final named first)⟩
      intro target movedTo
      rw [redirect?_of_movedTo movedTo] at moved
      cases moved
  | some target =>
      rw [moved] at onward
      have movedTo := redirect?_eq_some moved
      obtain ⟨second, _, _, rfl, again, ended⟩ := Routine.recounts_bind onward
      obtain rfl := exchanges_send again
      obtain ⟨rfl, rfl⟩ := ended
      exact ⟨[(_, first), (_, second)], rfl,
        .twice movedTo (keyOfOutcome_final movedTo.named second)⟩

/-- What is put into the cache is not sent anywhere. -/
theorem exchanges_fetchInto {cache : CacheId} {uri : KeyUri} (named : uri.text ≠ "")
    {result : Except ClientError KeyMaterial}
    (recounts : (fetchInto cache uri).Recounts environment.handle environment.exchanged notes
      result) : ∃ sent, notes = Notes.own sent ∧ Asked uri.text none sent result := by
  obtain ⟨fetched, _, after, rfl, asking, ended⟩ := Routine.recounts_bind recounts
  obtain ⟨sent, rfl, asked⟩ := exchanges_fetch named asking
  have kept : after = [] ∧ result = fetched := by
    cases fetched with
    | error error => exact ended
    | ok key =>
        obtain ⟨_, _, _, _, -, rfl, rfl, rfl⟩ := ended
        exact ⟨rfl, rfl⟩
  obtain ⟨rfl, rfl⟩ := kept
  exact ⟨sent, List.append_nil _, asked⟩

/-- What its cache had for the URI when the client looked is all that it takes from others. -/
theorem exchanges_resolveKey {client : Client} {uri : KeyUri} {options : Options}
    {result : Except ClientError KeyMaterial}
    (recounts : (client.resolveKey uri options).Recounts environment.handle environment.exchanged
      notes result) :
    ∃ cached sent, notes = Notes.own sent ∧ OneHop cached uri options sent result := by
  unfold resolveKey at recounts
  split at recounts
  · rename_i empty
    obtain ⟨rfl, rfl⟩ := recounts
    exact ⟨none, [], rfl, .missing (by simpa [KeyUri.isEmpty] using empty) rfl⟩
  · rename_i full
    have named : uri.text ≠ "" := by simpa [KeyUri.isEmpty] using full
    split at recounts
    · rename_i id without own
      have alone : options.onBehalfOf = none := by
        rw [sent?_eq] at without
        exact Option.map_eq_none_iff.mp without
      obtain ⟨shared, found, _, _, -, rfl, onward⟩ := recounts
      cases found with
      | some key =>
          obtain ⟨rfl, rfl⟩ := onward
          exact ⟨some key, [], rfl, .hit named alone rfl⟩
      | none =>
          obtain ⟨sent, rfl, asked⟩ := exchanges_fetchInto named onward
          refine ⟨none, sent, rfl, .asked named (fun _ => rfl) ?_⟩
          rw [alone]
          exact asked
    · obtain ⟨sent, rfl, asked⟩ := exchanges_fetch named recounts
      rw [sent?_eq] at asked
      exact ⟨none, sent, rfl, .asked named (fun _ => rfl) asked⟩

/-- An action that does not resolve a URI lacks an argument, or ends with what its one exchange comes
to. -/
theorem Action.exchanges_once {client : Client} {action : Action} (single : ¬ action.Resolves)
    {outcome : Except ClientError action.Answer}
    (recounts : (action.perform client).Recounts environment.handle environment.exchanged notes
      outcome) :
    (∃ argument, outcome = .error (.missing argument)) ∨
      ∃ request replied, action.request = .ok request ∧
        notes = Notes.own [(⟨request, none⟩, replied)] ∧ outcome = action.conclude replied := by
  rw [perform_eq_once client single, once] at recounts
  split at recounts
  · rename_i argument _
    exact .inl ⟨argument, recounts.2⟩
  · rename_i request needs
    obtain ⟨shared, answer, next, later, handled, rfl, rfl, rfl⟩ := recounts
    obtain ⟨rfl, -⟩ := Prod.mk.inj (Option.some.inj handled)
    exact .inr ⟨request, _, needs, rfl, rfl⟩

end Client

end FieldCrypt
