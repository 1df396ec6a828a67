import FieldCrypt.Proofs.Client.Exchanges
import FieldCrypt.Proofs.Client.Named
import FieldCrypt.Proofs.Context.Named
import FieldCrypt.Proofs.Context.Stage

/-!
# Clients find keys with names

Each URI that a client takes from a reply, or goes on with, has passed a check that it is not empty.
The keys that its actions end with therefore have names, and so have the keys that contexts are
bound to. A client that resolves or binds a key reports a missing URI only where the broker did so
in answer to its last request.
-/

namespace FieldCrypt

open Broker

variable {σ α : Type} {environment : Environment σ} {known : Known}

namespace Client

/-- A key that was found has a URI that is not empty. -/
def Finds (outcome : Except ClientError KeyMaterial) : Prop :=
  ∀ key, outcome = .ok key → key.uri.isEmpty = false

theorem Final.finds {asked : String} {outcome : Except ClientError Reply}
    {result : Except ClientError KeyMaterial} (final : Final asked outcome result) :
    Finds result := by
  intro key same
  subst same
  cases final with
  | key found first => simpa [KeyUri.isEmpty] using List.find?_some first

/-- A reply is never found to lack a URI: the one that was asked for stands in. -/
theorem Final.eq_of_missingUri {asked : String} {outcome : Except ClientError Reply}
    (final : Final asked outcome (.error (.key .missingUri))) :
    outcome = .error (.key .missingUri) := by
  cases final
  rfl

theorem OneHop.last_of_missingUri {cached : Option KeyMaterial} {uri : KeyUri} {options : Options}
    {sent : List Exchange} (hop : OneHop cached uri options sent (.error (.key .missingUri))) :
    ∃ call, sent.getLast? = some (call, .error (.key .missingUri)) := by
  cases hop with
  | asked _ _ asked =>
      cases asked with
      | once stays final =>
          rw [final.eq_of_missingUri]
          exact ⟨_, rfl⟩
      | twice moved final =>
          rw [final.eq_of_missingUri]
          exact ⟨_, rfl⟩

theorem keyOfOutcome_finds {asked : KeyUri} (named : asked.isEmpty = false)
    (outcome : Except ClientError Reply) : Finds (keyOfOutcome asked outcome) :=
  (keyOfOutcome_final (by simpa [KeyUri.isEmpty] using named) outcome).finds

theorem redirect?_named {outcome : Except ClientError Reply} {target : String}
    (moved : redirect? outcome = some target) : KeyUri.isEmpty ⟨target⟩ = false := by
  simpa [KeyUri.isEmpty] using (redirect?_eq_some moved).named

theorem send_names (request : Request) (options : Option Options) :
    (send request options).Names environment known fun _ => True := by
  refine Routine.names_call ?_ fun _ _ _ _ => trivial
  trivial

theorem fetch_names {uri : KeyUri} (named : uri.isEmpty = false) (options : Option Options) :
    (fetch uri options).Names environment known Finds := by
  apply (send_names _ options).bind
  rintro first -
  cases moved : redirect? first with
  | none => exact keyOfOutcome_finds named first
  | some target =>
      apply (send_names _ options).bind
      rintro second -
      exact keyOfOutcome_finds (redirect?_named moved) second

theorem fetchInto_names (cache : CacheId) {uri : KeyUri} (named : uri.isEmpty = false) :
    (fetchInto cache uri).Names environment known Finds := by
  apply (fetch_names named none).bind
  rintro (error | key) finds
  · exact finds
  · refine Routine.names_call ?_ fun _ _ _ _ => finds
    exact finds key rfl

/-- Whatever a client is asked to resolve, from its cache or from the broker. -/
theorem resolveKey_names (client : Client) (uri : KeyUri) (options : Options) :
    (client.resolveKey uri options).Names environment known Finds := by
  unfold resolveKey
  split
  · intro key never
    cases never
  · rename_i full
    have named : uri.isEmpty = false := Bool.eq_false_iff.mpr full
    split
    · refine Routine.names_call ?_ fun found after _ held => ?_
      · trivial
      cases found with
      | none => exact fetchInto_names _ named
      | some key =>
          intro key' same
          obtain rfl := Except.ok.inj same
          exact held key rfl
    · exact fetch_names named _

namespace Action

/-- The keys that an action ends with have names. -/
def Finds : (action : Action) → Except ClientError action.Answer → Prop
  | resolveKey .., outcome => Client.Finds outcome
  | bindKey .., outcome => Client.Finds outcome
  | createKeys _, outcome =>
    ∀ keys : List KeyMaterial, outcome = .ok keys → ∀ key ∈ keys, key.uri.isEmpty = false
  | _, _ => True

/-- An action that is to end with one key failed because a key had no URI. -/
def Nameless : (action : Action) → Except ClientError action.Answer → Prop
  | resolveKey .., outcome => outcome = .error (.key .missingUri)
  | bindKey .., outcome => outcome = .error (.key .missingUri)
  | _, _ => False

theorem finds_error (action : Action) (error : ClientError) : action.Finds (.error error) := by
  cases action with
  | resolveKey | bindKey | createKeys =>
      intro key never
      cases never
  | _ => trivial

theorem named_of_request {resourceUri : String} {uri : KeyUri} {request : Request}
    (needs : (bindKey resourceUri uri).request = .ok request) : uri.isEmpty = false := by
  by_contra empty
  rw [Bool.not_eq_false] at empty
  simp only [Action.request, empty, if_true] at needs
  split at needs <;> cases needs

theorem conclude_bindKey (resourceUri : String) (uri : KeyUri)
    (outcome : Except ClientError Reply) :
    (bindKey resourceUri uri).conclude outcome = keyOfOutcome uri (checked outcome) := by
  rw [conclude]
  cases checked outcome <;> rfl

/-- What is read off the outcome of one exchange. -/
theorem conclude_finds {action : Action} (single : ¬ action.Resolves) {request : Request}
    (needs : action.request = .ok request) (outcome : Except ClientError Reply) :
    action.Finds (action.conclude outcome) := by
  cases action with
  | resolveKey uri options => exact (single trivial).elim
  | bindKey resourceUri uri =>
      rw [conclude_bindKey]
      exact keyOfOutcome_finds (named_of_request needs) (checked outcome)
  | createKeys count =>
      intro keys made
      rw [conclude] at made
      cases replied : checked outcome with
      | error error =>
          rw [replied] at made
          cases made
      | ok reply =>
          rw [replied] at made
          exact materials_named made
  | _ => trivial

/-- Whatever is asked of a client, everything stays named. -/
theorem perform_names (client : Client) (action : Action) :
    (action.perform client).Names environment known action.Finds := by
  by_cases resolves : action.Resolves
  · cases action with
    | resolveKey uri options => exact client.resolveKey_names uri options
    | _ => exact resolves.elim
  · rw [perform_eq_once client resolves]
    unfold once
    split
    · exact action.finds_error _
    · rename_i request needs
      refine Routine.names_call ?_ fun outcome _ _ _ => conclude_finds resolves needs outcome
      trivial

theorem checked_eq_error {outcome : Except ClientError Reply} {error : ClientError}
    (other : ∀ failure, error ≠ .broker failure) (failed : checked outcome = .error error) :
    outcome = .error error := by
  cases outcome with
  | error _ => exact failed
  | ok reply =>
      rw [checked] at failed
      split at failed
      · exact (other _ (Except.error.inj failed).symm).elim
      · cases failed

/-- Binding a key fails for want of a URI only if that is the outcome of the request itself. -/
theorem eq_of_conclude_bindKey {resourceUri : String} {uri : KeyUri} {request : Request}
    (needs : (bindKey resourceUri uri).request = .ok request) {replied : Except ClientError Reply}
    (failed : (bindKey resourceUri uri).conclude replied = .error (.key .missingUri)) :
    replied = .error (.key .missingUri) := by
  rw [conclude_bindKey] at failed
  have named : uri.text ≠ "" := by simpa [KeyUri.isEmpty] using named_of_request needs
  have final := keyOfOutcome_final named (checked replied)
  rw [failed] at final
  apply checked_eq_error _ final.eq_of_missingUri
  intro failure never
  cases never

/-- Who reports that a URI is missing was told so in answer to the last request, whatever others did
meanwhile. -/
theorem told_of_nameless {client : Client} {action : Action} {notes : Notes Exchange}
    {outcome : Except ClientError action.Answer}
    (recounts : (action.perform client).Recounts environment.handle environment.exchanged notes
      outcome) (nameless : action.Nameless outcome) :
    ∃ call, notes.getLast? = some ([], call, .error (.key .missingUri)) := by
  cases action with
  | resolveKey uri options =>
      subst nameless
      obtain ⟨cached, sent, rfl, hop⟩ := exchanges_resolveKey recounts
      obtain ⟨call, last⟩ := hop.last_of_missingUri
      refine ⟨call, ?_⟩
      rw [Notes.own, List.getLast?_map, last]
      rfl
  | bindKey resourceUri uri =>
      subst nameless
      rcases exchanges_once id recounts with ⟨argument, never⟩ | ⟨request, replied, needs, rfl, same⟩
      · cases never
      · obtain rfl := eq_of_conclude_bindKey needs same.symm
        exact ⟨_, rfl⟩
  | _ => exact nameless.elim

end Action

end Client

/-- No key could be bound. No text has been looked at. -/
def RecordError.OfBinding : RecordError → Prop
  | client _ | noUnboundKeys => True
  | field .. => False

/-- A key with a name, or the reason why no key could be bound. -/
def Context.Made : KeyOutcome → Prop
  | .ok uri => uri.isEmpty = false
  | .error error => error.OfBinding

namespace Client

open Context (Made)

theorem createKey_names : createKey.Names environment known Made := by
  have keys : (createKeys 1).Names environment known fun outcome =>
      ∀ keys : List KeyMaterial, outcome = .ok keys → ∀ key ∈ keys, key.uri.isEmpty = false :=
    (Action.createKeys 1).perform_names {}
  apply keys.bind
  rintro (error | _ | ⟨key, rest⟩) named
  · trivial
  · trivial
  · exact named _ rfl key List.mem_cons_self

theorem createResolvedKey_names (client : Client) :
    client.createResolvedKey.Names environment known Made := by
  apply createKey_names.bind
  rintro (error | created) made
  · exact made
  · apply (client.resolveKey_names created {}).bind
    rintro (error | key) finds
    · exact made
    · exact finds key rfl

end Client

namespace Context

/-- What goes on with a key for a context, or without one, leaves everything named. When there is a
key, it may rely on the context being bound. -/
structure Continues (environment : Environment σ) (known : Known) (context : ContextId)
    (next : KeyOutcome → Routine Effect α) (post : α → Prop) : Prop where
  failed : ∀ error : RecordError, error.OfBinding →
    (next (.error error)).Names environment known post
  found : ∀ uri after, known ≤ after → uri.isEmpty = false → after.bound context →
    (next (.ok uri)).Names environment after post

variable {context : ContextId} {next : KeyOutcome → Routine Effect α} {post : α → Prop}

theorem Continues.later (continues : Continues environment known context next post) {after : Known}
    (onward : known ≤ after) : Continues environment after context next post where
  failed error binding := (continues.failed error binding).later onward
  found uri later further := continues.found uri later (onward.trans further)

theorem leave_names {outcome : KeyOutcome}
    (rest : (next outcome).Names environment known post) :
    (leave context outcome >>= next).Names environment known post := by
  refine Routine.names_call ?_ fun _ after onward _ => rest.later onward
  trivial

theorem settle_names (continues : Continues environment known context next post)
    {outcome : KeyOutcome} (made : Made outcome) :
    (settle context outcome >>= next).Names environment known post := by
  cases outcome with
  | error error => exact leave_names (continues.failed error made)
  | ok uri =>
      refine Routine.names_call ?_ fun _ after onward bound => ?_
      · exact made
      · exact leave_names (continues.found uri after onward made bound)

variable {create : Routine Effect KeyOutcome}
  (creates : ∀ known, create.Names environment known Made)

include creates

theorem recheck_names (continues : Continues environment known context next post) :
    (recheck context create >>= next).Names environment known post := by
  refine Routine.names_call ?_ fun url after onward tells => ?_
  · trivial
  cases url with
  | some uri => exact leave_names (continues.found uri after onward tells.1 tells.2)
  | none =>
      change ((create >>= settle context) >>= next).Names environment after post
      rw [Routine.bind_assoc]
      apply (creates after).bind
      intro outcome made
      exact settle_names (continues.later onward) made

/-- In the queue and at its head nothing is learnt. -/
theorem queue_names (continues : Continues environment known context next post) :
    (queue context create >>= next).Names environment known post := by
  refine Routine.names_call ?_ fun ticket arrived onward _ => ?_
  · trivial
  refine Routine.names_call ?_ fun _ admitted further _ => ?_
  · trivial
  exact recheck_names creates (continues.later (onward.trans further))

/-- The URL of a context, which is bound first if it is not bound yet. That fails for no context that
is known to be bound. -/
theorem bindOnce_names
    (failed : ¬ known.bound context → ∀ error : RecordError, error.OfBinding →
      (next (.error error)).Names environment known post)
    (found : ∀ uri after, known ≤ after → uri.isEmpty = false → after.bound context →
      (next (.ok uri)).Names environment after post) :
    (bindOnce context create >>= next).Names environment known post := by
  rw [bindOnce_eq]
  refine Routine.names_call ?_ fun url after onward tells => ?_
  · trivial
  cases url with
  | some uri => exact found uri after onward tells.1 tells.2
  | none =>
      have continues : Continues environment known context next post :=
        ⟨failed fun bound => tells (onward context bound), found⟩
      exact queue_names creates (continues.later onward)

/-- A context comes to the URL of a key with a name. -/
theorem bindOnce_names_made : (bindOnce context create).Names environment known Made := by
  rw [← Routine.bind_pure (bindOnce context create)]
  apply bindOnce_names creates
  · exact fun _ error binding => binding
  · exact fun uri _ _ named _ => named

end Context

end FieldCrypt
