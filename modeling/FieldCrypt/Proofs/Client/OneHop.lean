import FieldCrypt.Proofs.Client.Effects
import FieldCrypt.Proofs.Routine.Run

/-!
# One hop and no further

`OneHop` says what a client may send to resolve a URI and what it has to make of the answers:
nothing is sent for an empty URI or a key that its cache holds, a key that has moved is asked for
once more under its new URI, and whatever the last answer is decides. Every run is of this kind,
however the broker behaves.
-/

namespace FieldCrypt

open Broker

/-- A call to the broker and what it came to. -/
abbrev Exchange := Call × Except ClientError Reply

/-- The exchange with the broker, if that is what the effect is. -/
def Effect.exchanges : (β : Type) → Effect β → β → List Exchange
  | _, .send call, outcome => [(call, outcome)]
  | _, _, _ => []

/-- The handler of an environment, with a record of all exchanges with the broker. -/
abbrev Environment.recorder {σ : Type} (environment : Environment σ) :
    Handler Effect (Shared σ × List Exchange) :=
  environment.handle.recording Effect.exchanges

/-- An effect that is no request adds nothing to the record. -/
theorem Environment.recorder_silent {σ β : Type} {environment : Environment σ} {effect : Effect β}
    {shared next : Shared σ} {answer : β}
    (handled : environment.handle _ effect shared = some (answer, next))
    (silent : effect.exchanges _ answer = []) (record : List Exchange) :
    environment.recorder _ effect (shared, record) = some (answer, next, record) :=
  Handler.recording_silent handled silent record

namespace Client

/-- An outcome that says where the key has moved to: a reply, or a failure that was reported. -/
inductive MovedTo : Except ClientError Reply → String → Prop where
  | reply {reply : Reply} {target : String} (code : reply.errorCode = some 301002)
      (there : reply.redirectUri = some target) (named : target ≠ "") : MovedTo (.ok reply) target
  | failure {failure : Failure} {target : String} (code : failure.errorCode = 301002)
      (there : failure.redirectUri = some ⟨target⟩) (named : target ≠ "") :
      MovedTo (.error (.broker failure)) target

theorem MovedTo.named {outcome : Except ClientError Reply} {target : String}
    (moved : MovedTo outcome target) : target ≠ "" := by
  cases moved <;> assumption

/-- What the last outcome comes to, when it was this text that was asked for. -/
inductive Final (asked : String) :
    Except ClientError Reply → Except ClientError KeyMaterial → Prop where
  | failed (error : ClientError) : Final asked (.error error) (.error error)
  | keyless {reply : Reply} (none : reply.key = none) :
      Final asked (.ok reply) (.error (.broker (.ofReply reply)))
  | key {reply : Reply} {entry : KeyEntry} {uri : String} (found : reply.key = some entry)
      (first : ([entry.uri, reply.uri, some asked].filterMap id).find? (· ≠ "") = some uri) :
      Final asked (.ok reply) (.ok ⟨⟨uri⟩, entry.jwk⟩)

/-- The exchanges of a client that asks for a key, and what they come to. -/
inductive Asked (uri : String) (options : Option Options) :
    List Exchange → Except ClientError KeyMaterial → Prop where
  | once {first : Except ClientError Reply} {result : Except ClientError KeyMaterial}
      (stays : ∀ target, ¬ MovedTo first target) (final : Final uri first result) :
      Asked uri options [(⟨.retrieve uri, options⟩, first)] result
  | twice {first second : Except ClientError Reply} {target : String}
      {result : Except ClientError KeyMaterial} (moved : MovedTo first target)
      (final : Final target second result) :
      Asked uri options [(⟨.retrieve uri, options⟩, first), (⟨.retrieve target, options⟩, second)]
        result

/-- The exchanges of a client that resolves a URI, and what they come to, when its cache has this
answer for the URI. -/
inductive OneHop (cached : Option KeyMaterial) (uri : KeyUri) (options : Options) :
    List Exchange → Except ClientError KeyMaterial → Prop where
  | missing {argument : Argument} (empty : uri.text = "") (name : argument.name = "options.uri") :
      OneHop cached uri options [] (.error (.missing argument))
  | hit {key : KeyMaterial} (named : uri.text ≠ "") (alone : options.onBehalfOf = none)
      (found : cached = some key) : OneHop cached uri options [] (.ok key)
  | asked {sent : List Exchange} {result : Except ClientError KeyMaterial} (named : uri.text ≠ "")
      (missed : options.onBehalfOf = none → cached = none)
      (asked : Asked uri.text (options.onBehalfOf.map fun user => { onBehalfOf := some user }) sent
        result) :
      OneHop cached uri options sent result

/-- The answer that the client's cache has for a URI. -/
def cached? {σ : Type} (client : Client) (shared : Shared σ) (uri : KeyUri) : Option KeyMaterial :=
  client.cache.bind fun id => ((shared.cache id).get? uri).1

theorem redirect?_eq_some {outcome : Except ClientError Reply} {target : String}
    (found : redirect? outcome = some target) : MovedTo outcome target := by
  cases outcome with
  | ok reply =>
      simp only [redirect?] at found
      split at found
      · rename_i code
        obtain ⟨there, named⟩ := Option.filter_eq_some_iff.mp found
        refine .reply ?_ there (by simpa using named)
        cases given : reply.errorCode with
        | none =>
            rw [given] at code
            cases code
        | some number =>
            rw [given] at code
            exact congrArg some code
      · cases found
  | error error =>
      cases error with
      | broker failure =>
          simp only [redirect?] at found
          split at found
          · rename_i code
            obtain ⟨there, named⟩ := Option.filter_eq_some_iff.mp found
            obtain ⟨uri, held, rfl⟩ := Option.map_eq_some_iff.mp there
            exact .failure code held (by simpa using named)
          · cases found
      | _ => cases found

theorem redirect?_of_movedTo {outcome : Except ClientError Reply} {target : String}
    (moved : MovedTo outcome target) : redirect? outcome = some target := by
  cases moved with
  | reply code there named => simp [redirect?, code, there, named, Failure.keyMigrated]
  | failure code there named => simp [redirect?, code, there, named, Failure.keyMigrated]

theorem filter_nonempty_eq_find? (text : Option String) :
    text.filter (fun text => !text.isEmpty) = ([text].filterMap id).find? (· ≠ "") := by
  cases text with
  | none => rfl
  | some text => by_cases empty : text = "" <;> simp [Option.filter, empty]

theorem firstNonempty_eq_find? (first second : Option String) :
    KeyEntry.firstNonempty first second = ([first, second].filterMap id).find? (· ≠ "") := by
  rw [KeyEntry.firstNonempty, filter_nonempty_eq_find?, filter_nonempty_eq_find?,
    ← List.find?_append, ← List.filterMap_append]
  rfl

/-- Of three texts, the last of which is there and not empty, one comes first that is. -/
theorem firstNonempty_named (first second : Option String) {last : String} (named : last ≠ "") :
    ∃ text, KeyEntry.firstNonempty first (KeyEntry.firstNonempty second (some last)) = some text ∧
      ([first, second, some last].filterMap id).find? (· ≠ "") = some text := by
  obtain ⟨text, found⟩ : ∃ text,
      ([second, some last].filterMap id).find? (· ≠ "") = some text := by
    apply Option.isSome_iff_exists.mp
    rw [List.find?_isSome]
    exact ⟨last, by simp, by simpa using named⟩
  have kept : (some text).filter (fun text => !text.isEmpty) = some text := by
    have here : text ≠ "" := by simpa using List.find?_some found
    simp [here]
  have split : ([first, second, some last].filterMap id).find? (· ≠ "") =
      (([first].filterMap id).find? (· ≠ "")).or (some text) := by
    rw [← found, ← List.find?_append, ← List.filterMap_append]
    rfl
  rw [firstNonempty_eq_find? second, found, KeyEntry.firstNonempty, kept,
    filter_nonempty_eq_find?, split]
  cases ([first].filterMap id).find? (· ≠ "") with
  | none => exact ⟨text, rfl, rfl⟩
  | some other => exact ⟨other, rfl, rfl⟩

theorem keyOfOutcome_final {asked : KeyUri} (named : asked.text ≠ "")
    (outcome : Except ClientError Reply) :
    Final asked.text outcome (keyOfOutcome asked outcome) := by
  cases outcome with
  | error error => exact .failed error
  | ok reply =>
      cases found : reply.key with
      | none =>
          simp only [keyOfOutcome, keyOf, found]
          exact .keyless found
      | some entry =>
          obtain ⟨uri, held, first⟩ := firstNonempty_named entry.uri reply.uri named
          simp only [keyOfOutcome, keyOf, found, KeyEntry.material?, held, Option.map_some]
          exact .key found first

variable {σ : Type} (environment : Environment σ)

theorem run_send (request : Request) (options : Option Options) (shared : Shared σ)
    (record : List Exchange) :
    ∃ outcome outside,
      Routine.run environment.recorder (send request options) (shared, record) =
        some (outcome, { shared with outside }, record ++ [(⟨request, options⟩, outcome)]) := by
  rw [send, Routine.run_pause, Routine.ask, Routine.run_call rfl, Routine.run_done]
  exact ⟨_, _, rfl⟩

/-- Asking for a key takes one exchange or two. -/
theorem run_fetch {uri : KeyUri} (named : uri.text ≠ "") (options : Option Options)
    (shared : Shared σ) (record : List Exchange) :
    ∃ result last sent,
      Routine.run environment.recorder (fetch uri options) (shared, record) =
        some (result, last, record ++ sent) ∧
      Asked uri.text options sent result := by
  obtain ⟨first, outside, ran⟩ := run_send environment (.retrieve uri.text) options shared record
  rw [fetch, Routine.run_bind, ran, Option.bind_some]
  simp only
  cases moved : redirect? first with
  | none =>
      rw [Routine.pure_eq, Routine.run_done]
      refine ⟨_, _, _, rfl, .once ?_ (keyOfOutcome_final named first)⟩
      intro target movedTo
      rw [redirect?_of_movedTo movedTo] at moved
      cases moved
  | some target =>
      have movedTo := redirect?_eq_some moved
      obtain ⟨second, outside', ran'⟩ := run_send environment (.retrieve target) options
        { shared with outside } (record ++ [(⟨.retrieve uri.text, options⟩, first)])
      simp only
      rw [Routine.run_bind, ran', Option.bind_some, Routine.pure_eq, Routine.run_done,
        List.append_assoc]
      exact ⟨_, _, _, rfl, .twice movedTo (keyOfOutcome_final movedTo.named second)⟩

theorem run_fetchInto (cache : CacheId) {uri : KeyUri} (named : uri.text ≠ "")
    (shared : Shared σ) (record : List Exchange) :
    ∃ result last sent,
      Routine.run environment.recorder (fetchInto cache uri) (shared, record) =
        some (result, last, record ++ sent) ∧
      Asked uri.text none sent result := by
  obtain ⟨result, last, sent, ran, asked⟩ := run_fetch environment named none shared record
  rw [fetchInto, Routine.run_bind, ran, Option.bind_some]
  cases result with
  | error error =>
      simp only
      rw [Routine.pure_eq, Routine.run_done]
      exact ⟨_, _, _, rfl, asked⟩
  | ok key =>
      simp only
      rw [Routine.run_bind, Routine.ask, Routine.run_call rfl, Routine.run_done, Option.bind_some,
        Routine.pure_eq, Routine.run_done]
      simp only [Effect.exchanges, List.append_nil]
      exact ⟨_, _, _, rfl, asked⟩

theorem sent?_eq (options : Options) :
    options.sent? = options.onBehalfOf.map fun user => { onBehalfOf := some user } := by
  obtain ⟨_ | user⟩ := options <;> rfl

theorem run_resolveKey (client : Client) (uri : KeyUri) (options : Options) (shared : Shared σ) :
    ∃ result last sent,
      Routine.run environment.recorder (client.resolveKey uri options) (shared, []) =
        some (result, last, sent) ∧
      OneHop (client.cached? shared uri) uri options sent result := by
  unfold resolveKey
  split
  · rename_i empty
    rw [Routine.pure_eq, Routine.run_done]
    exact ⟨_, _, _, rfl, .missing (by simpa [KeyUri.isEmpty] using empty) rfl⟩
  · rename_i full
    have named : uri.text ≠ "" := by simpa [KeyUri.isEmpty] using full
    split
    · rename_i id without own
      have alone : options.onBehalfOf = none := by
        rw [sent?_eq] at without
        exact Option.map_eq_none_iff.mp without
      have cached : client.cached? shared uri = ((shared.cache id).get? uri).1 := by
        rw [cached?, own, Option.bind_some]
      have looked : environment.recorder _ (.lookup id uri) (shared, []) =
          some (((shared.cache id).get? uri).1,
            shared.setCache id ((shared.cache id).get? uri).2, []) := rfl
      rw [Routine.run_bind, Routine.ask, Routine.run_call looked, Routine.run_done,
        Option.bind_some, cached]
      cases found : ((shared.cache id).get? uri).1 with
      | some key =>
          simp only
          rw [Routine.pure_eq, Routine.run_done]
          exact ⟨_, _, _, rfl, .hit named alone rfl⟩
      | none =>
          obtain ⟨result, last, sent, ran, asked⟩ := run_fetchInto environment id named
            (shared.setCache id ((shared.cache id).get? uri).2) []
          refine ⟨result, last, sent, ran, .asked named (fun _ => rfl) ?_⟩
          rw [alone]
          exact asked
    · rename_i _ _ other
      obtain ⟨result, last, sent, ran, asked⟩ := run_fetch environment named options.sent? shared []
      rw [sent?_eq] at asked
      refine ⟨result, last, sent, ran, .asked named ?_ asked⟩
      intro alone
      cases own : client.cache with
      | none => rw [cached?, own, Option.bind_none]
      | some id =>
          have without : options.sent? = none := by
            rw [sent?_eq, alone]
            rfl
          exact (other id without own).elim

/-- Whatever the broker answers and whatever is in the cache, resolving a URI comes to an end. What
was sent until then, and what it comes to, is one hop at most. A client that acts for somebody else
sends and does nothing besides: it does not look into its cache. -/
theorem resolveKey_oneHop (client : Client) (uri : KeyUri) (options : Options)
    (shared : Shared σ) :
    (∃ result last sent,
      Routine.run environment.handle (client.resolveKey uri options) shared = some (result, last) ∧
      Routine.run environment.recorder (client.resolveKey uri options) (shared, []) =
        some (result, last, sent) ∧
      OneHop (client.cached? shared uri) uri options sent result) ∧
    (options.onBehalfOf ≠ none → (client.resolveKey uri options).Only Effect.IsSend) := by
  refine ⟨?_, client.resolveKey_only_send uri⟩
  obtain ⟨result, last, sent, ran, hop⟩ := run_resolveKey environment client uri options shared
  have plain : (Routine.run environment.recorder (client.resolveKey uri options) (shared, [])).map
      (fun ended => (ended.1, ended.2.1)) =
        Routine.run environment.handle (client.resolveKey uri options) shared :=
    Routine.run_recording _ shared []
  rw [ran] at plain
  exact ⟨result, last, sent, plain.symm, ran, hop⟩

end Client

end FieldCrypt
