import FieldCrypt.Proofs.Broker.Keys

/-!
# What can be told apart

Two brokers have the same tables when the same is found in them, where a list that is not there counts
as an empty one. Such brokers give the same answers, and have the same tables again afterwards. The
count of requests shows in the ids of requests only, and the log shows in nothing.
-/

namespace FieldCrypt

namespace Table

variable {κ α : Type} [DecidableEq κ] {first second : Table κ α}
  (same : ∀ key, first.find? key = second.find? key)
include same

theorem contains_congr (key : κ) : first.contains key = second.contains key := by
  rw [contains, contains, same]

theorem find?_insert_congr (key : κ) (value : α) (other : κ) :
    (first.insert key value).find? other = (second.insert key value).find? other := by
  rw [find?_insert, find?_insert, same]

theorem find?_erase_congr (key other : κ) :
    (first.erase key).find? other = (second.erase key).find? other := by
  rw [find?_erase, find?_erase, same]

theorem find?_modify_congr (key : κ) (change : α → α) (other : κ) :
    (first.modify key change).find? other = (second.modify key change).find? other := by
  rw [find?_modify, find?_modify, same, same]

end Table

namespace Broker

namespace State

/-- The same is found in the tables. -/
structure SameTables (first second : State) : Prop where
  host : first.host = second.host
  keys : ∀ uri, first.keys.find? uri = second.keys.find? uri
  migrations : ∀ uri, first.migrations.find? uri = second.migrations.find? uri
  resources : ∀ uri, first.resources.find? uri = second.resources.find? uri
  authorizations : ∀ uri, first.authorizationsOf uri = second.authorizationsOf uri
  masterKeys : ∀ organization awsKms,
    first.masterKeysOf organization awsKms = second.masterKeysOf organization awsKms

/-- Answers that say the same and leave the same in the tables. -/
inductive SameAnswer : Except Refusal (Reply × State × Draws) →
    Except Refusal (Reply × State × Draws) → Prop where
  | refused (refusal : Refusal) : SameAnswer (.error refusal) (.error refusal)
  | answered (reply : Reply) {first second : State} (same : first.SameTables second)
      (draws : Draws) : SameAnswer (.ok (reply, first, draws)) (.ok (reply, second, draws))

namespace SameTables

variable {first second third : State} (same : first.SameTables second)

theorem refl (state : State) : state.SameTables state :=
  ⟨rfl, fun _ => rfl, fun _ => rfl, fun _ => rfl, fun _ => rfl, fun _ _ => rfl⟩

include same

theorem symm : second.SameTables first where
  host := same.host.symm
  keys uri := (same.keys uri).symm
  migrations uri := (same.migrations uri).symm
  resources uri := (same.resources uri).symm
  authorizations uri := (same.authorizations uri).symm
  masterKeys organization awsKms := (same.masterKeys organization awsKms).symm

theorem trans (other : second.SameTables third) : first.SameTables third where
  host := same.host.trans other.host
  keys uri := (same.keys uri).trans (other.keys uri)
  migrations uri := (same.migrations uri).trans (other.migrations uri)
  resources uri := (same.resources uri).trans (other.resources uri)
  authorizations uri := (same.authorizations uri).trans (other.authorizations uri)
  masterKeys organization awsKms :=
    (same.masterKeys organization awsKms).trans (other.masterKeys organization awsKms)

theorem insertKey (uri : String) (key : KeyEntry) :
    SameTables { first with keys := first.keys.insert uri key }
      { second with keys := second.keys.insert uri key } :=
  { same with keys := Table.find?_insert_congr same.keys uri key }

theorem insertResource (uri : String) (resource : Resource) :
    SameTables { first with resources := first.resources.insert uri resource }
      { second with resources := second.resources.insert uri resource } :=
  { same with resources := Table.find?_insert_congr same.resources uri resource }

theorem modifyResource (uri : String) (change : Resource → Resource) :
    SameTables { first with resources := first.resources.modify uri change }
      { second with resources := second.resources.modify uri change } :=
  { same with resources := Table.find?_modify_congr same.resources uri change }

theorem insertAuthorizations (resourceUri : String) (held : List Authorization) :
    SameTables { first with authorizations := first.authorizations.insert resourceUri held }
      { second with authorizations := second.authorizations.insert resourceUri held } :=
  { same with
    authorizations := fun uri => calc
      _ = if resourceUri = uri then held else first.authorizationsOf uri :=
        authorizationsOf_of_insert rfl uri
      _ = if resourceUri = uri then held else second.authorizationsOf uri := by
        rw [same.authorizations]
      _ = _ := (authorizationsOf_of_insert rfl uri).symm }

theorem insertMasterKeys (organization : String) (awsKms : Bool) (held : List MasterKey) :
    SameTables { first with masterKeys := first.masterKeys.insert (organization, awsKms) held }
      { second with masterKeys := second.masterKeys.insert (organization, awsKms) held } :=
  { same with
    masterKeys := fun other kind => calc
      _ = if (organization, awsKms) = (other, kind) then held else first.masterKeysOf other kind :=
        masterKeysOf_of_insert rfl other kind
      _ = if (organization, awsKms) = (other, kind) then held else second.masterKeysOf other kind := by
        rw [same.masterKeys]
      _ = _ := (masterKeysOf_of_insert rfl other kind).symm }

theorem moveKey (source target : String) :
    (first.moveKey source target).SameTables (second.moveKey source target) :=
  { same with
    keys := fun uri => by
      simp only [State.moveKey, same.keys source]
      cases second.keys.find? source with
      | none => exact same.keys uri
      | some key =>
          exact Table.find?_insert_congr (Table.find?_erase_congr same.keys source) target _ uri
    migrations := Table.find?_insert_congr same.migrations source target }

theorem makeKeys (count : Nat) (draws : Draws) :
    (State.makeKeys count first draws).1 = (State.makeKeys count second draws).1 ∧
      (State.makeKeys count first draws).2.1.SameTables (State.makeKeys count second draws).2.1 ∧
      (State.makeKeys count first draws).2.2 = (State.makeKeys count second draws).2.2 := by
  induction count generalizing first second draws with
  | zero => exact ⟨rfl, same, rfl⟩
  | succ count ih =>
      have made : (first.makeKey draws).1 = (second.makeKey draws).1 := by
        simp only [makeKey, same.host]
      have tables : (first.makeKey draws).2.1.SameTables (second.makeKey draws).2.1 :=
        { same with
          keys := fun uri => by rw [find?_makeKey, find?_makeKey, made, same.keys] }
      obtain ⟨keys, later, rest⟩ := ih tables (first.makeKey draws).2.2
      exact ⟨(congrArg (· :: _) made).trans (congrArg (List.cons _) keys), later, rest⟩

theorem authorize (resourceUri : String) (userIds : List String) :
    (first.authorize resourceUri userIds).2.SameTables
      (second.authorize resourceUri userIds).2 := by
  simp only [State.authorize, same.authorizations]
  exact (same.modifyResource resourceUri _).insertAuthorizations resourceUri _

theorem createKeys (draws : Draws) (request : Request) :
    SameAnswer (.ok (first.createKeys draws request)) (.ok (second.createKeys draws request)) := by
  obtain ⟨keys, tables, draws⟩ := same.makeKeys (request.count.getD 1).toNat draws
  simp only [State.createKeys, keys, draws]
  exact .answered _ tables _

end SameTables

/-- Put a resource there, and authorize users on it. -/
def register (state : State) (resource : Resource) (userIds : List String) : Reply × State :=
  let there : State := { state with resources := state.resources.insert resource.uri resource }
  let (created, next) := there.authorize resource.uri userIds
  ({ status := 201, resource := some ((next.resources.find? resource.uri).getD resource),
     authorizations := created }, next)

namespace SameTables

variable {first second : State} (same : first.SameTables second)
include same

theorem register (resource : Resource) (userIds : List String) (draws : Draws) :
    SameAnswer
      (.ok ((first.register resource userIds).1, (first.register resource userIds).2, draws))
      (.ok ((second.register resource userIds).1, (second.register resource userIds).2, draws)) := by
  have tables := (same.insertResource resource.uri resource).authorize resource.uri userIds
  simp only [State.register]
  rw [tables.resources resource.uri]
  exact .answered _ tables _

theorem createResource (draws : Draws) (request : Request) :
    SameAnswer (.ok (first.createResource draws request))
      (.ok (second.createResource draws request)) := by
  let resource (state : State) : Resource := {
    uri := "kms://" ++ state.host ++ "/resources/" ++ (drawId draws).1, keyUris := request.keyUris }
  have created : resource first = resource second := by simp only [resource, same.host]
  have registered := same.register (resource second) request.userIds (drawId draws).2
  have unfolded (state : State) : state.createResource draws request =
      ((state.register (resource state) request.userIds).1,
        (state.register (resource state) request.userIds).2, (drawId draws).2) := rfl
  rw [unfolded, unfolded, created]
  exact registered

theorem answerAuthorizations (draws : Draws) (request : Request) :
    SameAnswer
      ((first.answerAuthorizations request).map fun (reply, state) => (reply, state, draws))
      ((second.answerAuthorizations request).map fun (reply, state) => (reply, state, draws)) := by
  simp only [State.answerAuthorizations, Table.contains_congr same.resources, same.authorizations]
  split
  · exact .refused _
  · split
    · exact .answered _ (same.authorize _ _) _
    · exact .answered _ same _
    · split
      · exact .refused _
      · exact .answered _ (same.insertAuthorizations _ _) _
    · exact .refused _

theorem answerMasterKeys (draws : Draws) (request : Request) (awsKms : Bool) :
    SameAnswer (first.answerMasterKeys draws request awsKms)
      (second.answerMasterKeys draws request awsKms) := by
  simp only [State.answerMasterKeys, same.masterKeys]
  split
  · exact .answered _ same _
  · exact .answered _ (same.insertMasterKeys _ _ _) _
  · split
    · exact .answered _ (same.insertMasterKeys _ _ _) _
    · exact .refused _
  · exact .answered _ (same.insertMasterKeys _ _ _) _

theorem answerRetrieve (draws : Draws) (uri : String) :
    SameAnswer ((first.answerRetrieve uri).map fun reply => (reply, first, draws))
      ((second.answerRetrieve uri).map fun reply => (reply, second, draws)) := by
  simp only [State.answerRetrieve, same.migrations, same.keys]
  split
  · exact .answered _ same _
  · split
    · exact .answered _ same _
    · exact .refused _

theorem answerBind (draws : Draws) (request : Request) :
    SameAnswer ((first.answerBind request).map fun (reply, state) => (reply, state, draws))
      ((second.answerBind request).map fun (reply, state) => (reply, state, draws)) := by
  simp only [State.answerBind, same.keys]
  split
  · exact .refused _
  · split
    · exact .refused _
    · exact .answered _ ((same.insertKey _ _).modifyResource _ _) _

/-- Brokers with the same tables give the same answer, and have the same tables afterwards. -/
theorem answer (draws : Draws) (request : Request) :
    SameAnswer (first.answer draws request) (second.answer draws request) := by
  unfold State.answer
  split
  · exact same.createKeys draws request
  split
  · exact same.createResource draws request
  split
  · exact same.answerAuthorizations draws request
  split
  · exact same.answerMasterKeys draws request false
  split
  · exact same.answerMasterKeys draws request true
  split
  · exact .answered _ same _
  split
  · exact same.answerRetrieve draws request.uri
  · exact same.answerBind draws request
  · exact .refused _
  · exact .refused _

end SameTables

end State

/-- An outcome without the id of its request. -/
def unnumbered : Except ClientError Reply → Except ClientError Reply
  | .ok reply => .ok { reply with requestId := none }
  | .error (.broker failure) => .error (.broker { failure with requestId := "" })
  | .error error => .error error

/-- Two ways in which a call was dealt with, of which nothing but the id of the request tells the
difference, then or later. -/
structure Alike (first second : Except ClientError Reply × State × Draws) : Prop where
  outcome : unnumbered first.1 = unnumbered second.1
  tables : first.2.1.SameTables second.2.1
  script : first.2.1.script = second.2.1.script
  draws : first.2.2 = second.2.2

theorem Alike.symm {first second : Except ClientError Reply × State × Draws}
    (alike : Alike first second) : Alike second first :=
  ⟨alike.outcome.symm, alike.tables.symm, alike.script.symm, alike.draws.symm⟩

theorem Alike.trans {first second third : Except ClientError Reply × State × Draws}
    (alike : Alike first second) (other : Alike second third) : Alike first third :=
  ⟨alike.outcome.trans other.outcome, alike.tables.trans other.tables,
    alike.script.trans other.script, alike.draws.trans other.draws⟩

/-- Calls to brokers that have the same tables and the same script are dealt with alike. -/
theorem State.SameTables.receive {first second : State} (same : first.SameTables second)
    (script : first.script = second.script) (draws : Draws) (call : Call) :
    Alike (first.receive draws call) (second.receive draws call) := by
  cases scripted : second.script with
  | cons outcome rest =>
      rw [scripted] at script
      rw [receive_scripted script, receive_scripted scripted]
      have left : first.script.tail = second.script.tail := by rw [script, scripted]
      exact ⟨rfl, { same with }, left, rfl⟩
  | nil =>
      rw [scripted] at script
      have left := (unscripted_receive script draws call).trans
        (unscripted_receive scripted draws call).symm
      have noted : (first.noted call).SameTables (second.noted call) := { same with }
      have answers := noted.answer draws call.request
      rw [receive_eq script, receive_eq scripted] at left ⊢
      generalize (first.noted call).answer draws call.request = one at answers left ⊢
      generalize (second.noted call).answer draws call.request = other at answers left ⊢
      cases answers with
      | refused refusal => exact ⟨by cases refusal <;> rfl, noted, left, rfl⟩
      | answered reply tables rest => exact ⟨rfl, tables, left, rfl⟩

/-- Ways of dealing with calls that brokers with the same tables and the same script can be told
apart by in no way but the ids of requests. -/
def Interchangeable (first second : Desk) : Prop :=
  ∀ {one other : State}, one.SameTables other → one.script = other.script → ∀ draws call,
    Alike (first one draws call) (second other draws call)

theorem interchangeable_receive : Interchangeable State.receive State.receive :=
  fun same script draws call => same.receive script draws call

namespace Interchangeable

variable {first second third : Desk} (interchangeable : Interchangeable first second)
include interchangeable

theorem symm : Interchangeable second first :=
  fun same script draws call => (interchangeable same.symm script.symm draws call).symm

theorem trans (other : Interchangeable second third) : Interchangeable first third :=
  fun same script draws call =>
    (interchangeable same script draws call).trans (other (.refl _) rfl draws call)

/-- A course of events has the same outcomes but for the ids, and leaves the same in the tables. -/
theorem course (events : List Event) {one other : State} (same : one.SameTables other)
    (script : one.script = other.script) (draws : Draws) :
    (course first events one draws).1.map unnumbered =
        (course second events other draws).1.map unnumbered ∧
      (course first events one draws).2.1.SameTables (course second events other draws).2.1 := by
  induction events generalizing one other draws with
  | nil => exact ⟨rfl, same⟩
  | cons event later ih =>
      cases event with
      | addKey uri jwk => exact ih (same.insertKey uri _) script draws
      | moveKey source target => exact ih (same.moveKey source target) script draws
      | prepare outcome =>
          have longer : (one.prepare outcome).script = (other.prepare outcome).script :=
            congrArg (· ++ [outcome]) script
          have same : (one.prepare outcome).SameTables (other.prepare outcome) := { same with }
          exact ih same longer draws
      | forgetCalls =>
          have same : one.forgetCalls.SameTables other.forgetCalls := { same with }
          exact ih same script draws
      | receive call =>
          have alike := interchangeable same script draws call
          obtain ⟨outcomes, tables⟩ := ih alike.tables alike.script (first one draws call).2.2
          rw [alike.draws] at outcomes tables
          simp only [course_receive, List.map_cons, alike.outcome, alike.draws]
          exact ⟨congrArg _ outcomes, tables⟩

end Interchangeable

end Broker

end FieldCrypt
