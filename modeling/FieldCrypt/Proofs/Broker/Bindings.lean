import FieldCrypt.Proofs.Broker.Keys

/-!
# Bound keys and the lists of their resources

A key that is bound to a resource is put at the end of the list of that resource. Nothing looks
whether it is listed there already, a key that is moved stays listed under its old URI, and a
resource is created with the list that it is given. These are the only ways in which a key comes to be
missing from the list of its resource, or listed more than once.
-/

namespace FieldCrypt.Broker

namespace State

variable {state next : State} {draws draws' : Draws} {request : Request} {reply : Reply}
  {uri : String} {key : KeyEntry}

/-- The keys that a resource lists, if there is such a resource. -/
def keyUris? (state : State) (uri : String) : Option (List String) :=
  (state.resources.find? uri).map Resource.keyUris

/-- If a key is bound to a resource that is known, the resource lists the URI once. -/
def ListedOnce (state : State) (uri : String) (key : KeyEntry) : Prop :=
  ∀ about ∈ key.resourceUri, ∀ listed ∈ state.keyUris? about, listed.count uri = 1

instance (state : State) (uri : String) (key : KeyEntry) : Decidable (state.ListedOnce uri key) :=
  inferInstanceAs (Decidable (∀ about ∈ key.resourceUri, ∀ listed ∈ state.keyUris? about, _ = _))

/-- Every key that is bound to a known resource is listed there once, under the URI where it is
kept. -/
def KeysListedOnce (state : State) : Prop :=
  ∀ uri key, state.keys.find? uri = some key → state.ListedOnce uri key

/-- After such an answer some key is not listed once: a resource is created to which a key is bound
already that is not given in its list, or given twice, or a key is bound to a resource where it is
listed already. -/
inductive Unlists (state : State) (request : Request) (reply : Reply) : Prop where
  | create {resource : Resource} {uri : String} {key : KeyEntry}
      (made : reply.resource = some resource) (found : state.keys.find? uri = some key)
      (bound : key.resourceUri = some resource.uri) (unlisted : resource.keyUris.count uri ≠ 1)
  | bind {key : KeyEntry} {about : String} {listed : List String}
      (method : request.method = .update) (found : reply.key = some key)
      (bound : key.resourceUri = some about) (known : state.keyUris? about = some listed)
      (again : request.uri ∈ listed)

end State

/-- A key is moved away from the URI under which its resource lists it, or an answer unlists a
key. -/
def Moment.Disturbs (moment : Moment) : Prop :=
  (∃ source target key, moment.event = .moveKey source target ∧
    moment.state.keys.find? source = some key ∧ ¬ moment.state.ListedOnce target key) ∨
  ∃ answer ∈ moment.answer?, moment.state.Unlists answer.1 answer.2

namespace State

variable {state next : State} {draws draws' : Draws} {request : Request} {reply : Reply}
  {uri : String} {key : KeyEntry}

theorem ListedOnce.of_unbound (unbound : key.resourceUri = none) : state.ListedOnce uri key := by
  intro about bound
  rw [unbound] at bound
  cases bound

/-- Where every entry is listed once. -/
theorem keysListedOnce_of_entries
    (all : ∀ entry ∈ state.keys.entries, state.ListedOnce entry.1 entry.2) :
    state.KeysListedOnce :=
  fun _ _ found => all _ (Table.mem_of_lookup found)

/-- What is listed otherwise shows in the list of its resource. -/
theorem KeysListedOnce.count_eq (listed : state.KeysListedOnce) {about : String} {uris : List String}
    (bound : (state.keys.find? uri).bind KeyEntry.resourceUri = some about)
    (known : state.keyUris? about = some uris) : uris.count uri = 1 := by
  obtain ⟨key, found, bound⟩ := Option.bind_eq_some_iff.mp bound
  exact listed uri key found about bound uris known

theorem listedOnce_congr (same : next.keyUris? = state.keyUris?) :
    next.ListedOnce uri key ↔ state.ListedOnce uri key := by
  rw [ListedOnce, same, ListedOnce]

/-- Lists that say nothing else about the keys. -/
theorem KeysListedOnce.congr (listed : state.KeysListedOnce) (keys : next.keys = state.keys)
    (same : next.keyUris? = state.keyUris?) : next.KeysListedOnce := by
  intro uri key found
  rw [keys] at found
  exact (listedOnce_congr same).mpr (listed uri key found)

/-- Where one key is put, it alone matters if the others are listed once. -/
theorem keysListedOnce_of_insert {keys : Table String KeyEntry}
    (changed : next.keys = keys.insert uri key)
    (others : ∀ other held, uri ≠ other → keys.find? other = some held →
      next.ListedOnce other held) : next.KeysListedOnce ↔ next.ListedOnce uri key := by
  constructor
  · intro listed
    apply listed
    rw [changed, Table.find?_insert, if_pos rfl]
  · intro here other held found
    rw [changed, Table.find?_insert] at found
    split at found
    · rename_i same
      obtain rfl := Option.some.inj found
      exact same ▸ here
    · rename_i differ
      exact others other held differ found

theorem keysListedOnce_addKey (listed : state.KeysListedOnce) (uri : String) (jwk : Json) :
    (state.addKey uri jwk).KeysListedOnce := by
  refine (keysListedOnce_of_insert rfl fun other held _ found => ?_).mpr (.of_unbound rfl)
  exact listed other held found

/-- A move is fine if the key is listed under its new URI. -/
theorem keysListedOnce_moveKey (listed : state.KeysListedOnce) (source target : String) :
    (state.moveKey source target).KeysListedOnce ↔
      ∀ key, state.keys.find? source = some key → state.ListedOnce target key := by
  cases found : state.keys.find? source with
  | none =>
      refine iff_of_true (listed.congr ?_ rfl) fun key there => ?_
      · simp only [moveKey, found]
      · cases there
  | some key =>
      have changed : (state.moveKey source target).keys =
          (state.keys.erase source).insert target { key with uri := some target } := by
        simp only [moveKey, found]
      rw [keysListedOnce_of_insert changed]
      · constructor
        · rintro here _ ⟨rfl⟩
          exact here
        · exact fun all => all key rfl
      · intro other held _ there
        rw [Table.find?_erase] at there
        split at there
        · cases there
        · exact listed other held there

theorem not_unlists (plain : reply.resource = none)
    (apart : request.method ≠ .update ∨ reply.key = none) : ¬ state.Unlists request reply := by
  rintro (⟨made⟩ | ⟨method, found⟩)
  · cases plain.symm.trans made
  · rcases apart with other | keyless
    · exact other method
    · cases keyless.symm.trans found

theorem resourceUri_makeKeys {count : Nat} (there : key ∈ (makeKeys count state draws).1) :
    key.resourceUri = none := by
  induction count generalizing state draws with
  | zero => cases there
  | succ count ih =>
      rcases List.mem_cons.mp there with same | later
      · rw [same]
      · exact ih later

theorem keysListedOnce_createKeys (listed : state.KeysListedOnce) (draws : Draws)
    (request : Request) : (state.createKeys draws request).2.1.KeysListedOnce := by
  intro uri key found
  obtain ⟨keys, made⟩ := state.exists_keys_createKeys draws request
  have same : (state.createKeys draws request).2.1.keyUris? = state.keyUris? := by
    rw [made]
    rfl
  rcases find?_makeKeys found with before | ⟨new, -⟩
  · exact (listedOnce_congr same).mpr (listed uri key before)
  · exact .of_unbound (resourceUri_makeKeys new)

theorem keysListedOnce_createResource (listed : state.KeysListedOnce) (draws : Draws)
    (method : request.method = .create) :
    (state.createResource draws request).2.1.KeysListedOnce ↔
      ¬ state.Unlists request (state.createResource draws request).1 := by
  let resource := state.newResource draws request
  have lists (about : String) : (state.createResource draws request).2.1.keyUris? about =
      if resource.uri = about then some resource.keyUris else state.keyUris? about := by
    rw [keyUris?, find?_createResource]
    split <;> rfl
  have made : (state.createResource draws request).1.resource = some resource := by
    rw [createResource_reply]
  constructor
  · rintro all (⟨same, found, bound, unlisted⟩ | ⟨other⟩)
    · obtain rfl := Option.some.inj (made.symm.trans same)
      exact unlisted (all _ _ found _ bound _ (by rw [lists, if_pos rfl]; rfl))
    · cases method.symm.trans other
  · intro fine uri key found about bound uris known
    rw [Option.mem_def, lists] at known
    split at known
    · rename_i same
      obtain rfl := Option.some.inj known
      refine Classical.byContradiction fun unlisted => fine ?_
      exact .create made found (bound.trans (congrArg some same.symm)) unlisted
    · exact listed uri key found about bound uris known

theorem keysListedOnce_bind (listed : state.KeysListedOnce) (method : request.method = .update)
    {about : String}
    (keys : next.keys = state.keys.insert request.uri { key with resourceUri := some about })
    (resources : next.resources = state.resources.modify about fun resource =>
      { resource with keyUris := resource.keyUris ++ [request.uri] }) :
    next.KeysListedOnce ↔
      ¬ state.Unlists request (.ofKey { key with resourceUri := some about }) := by
  have lists (uri : String) : next.keyUris? uri =
      if about = uri then (state.keyUris? uri).map (· ++ [request.uri])
      else state.keyUris? uri := by
    rw [keyUris?, resources, Table.find?_modify]
    split
    · rename_i same
      rw [keyUris?, same, Option.map_map, Option.map_map]
      rfl
    · rfl
  rw [keysListedOnce_of_insert keys]
  · constructor
    · rintro once (⟨made⟩ | ⟨-, same, bound, known, again⟩)
      · cases made
      · obtain rfl := Option.some.inj same
        obtain rfl := Option.some.inj bound
        have counted := once _ rfl _ (by rw [Option.mem_def, lists, if_pos rfl, known]; rfl)
        rw [List.count_append, List.count_singleton_self] at counted
        have there := List.count_pos_iff.mpr again
        omega
    · rintro fine _ ⟨rfl⟩ uris known
      rw [Option.mem_def, lists, if_pos rfl] at known
      obtain ⟨before, was, rfl⟩ := Option.map_eq_some_iff.mp known
      have missing : request.uri ∉ before := fun again => fine (.bind method rfl rfl was again)
      rw [List.count_append, List.count_eq_zero.mpr missing, List.count_singleton_self]
  · -- Another key is counted as before.
    intro other held differ there place bound uris known
    rw [Option.mem_def, lists] at known
    split at known
    · obtain ⟨before, was, rfl⟩ := Option.map_eq_some_iff.mp known
      have absent : [request.uri].count other = 0 := by simp [differ]
      rw [List.count_append, absent, Nat.add_zero]
      exact listed other held there place bound before was
    · exact listed other held there place bound uris known

theorem Answered.keysListedOnce_iff (answered : Answered state draws request reply next draws')
    (listed : state.KeysListedOnce) : next.KeysListedOnce ↔ ¬ state.Unlists request reply := by
  cases answered with
  | createKeys _ method =>
      exact iff_of_true (keysListedOnce_createKeys listed draws request)
        (not_unlists rfl (.inr rfl))
  | createResource _ method => exact keysListedOnce_createResource listed draws method
  | @authorize about =>
      refine iff_of_true (listed.congr rfl (funext fun uri => ?_)) (not_unlists rfl (.inr rfl))
      rw [keyUris?, State.authorize, Table.find?_modify, keyUris?]
      split
      · rename_i same
        rw [same, Option.map_map]
        rfl
      · rfl
  | authorizations | revoke | masterKeys | changeMasterKeys | ping =>
      exact iff_of_true (listed.congr rfl rfl) (not_unlists rfl (.inr rfl))
  | retrieve method found =>
      refine iff_of_true listed (not_unlists ?_ (.inl (by simp [method])))
      rcases answerRetrieve_cases found with ⟨target, rfl⟩ | ⟨key, rfl⟩ <;> rfl
  | bind method => exact keysListedOnce_bind listed method rfl rfl

theorem Unlists.congr (unlists : state.Unlists request reply) (keys : next.keys = state.keys)
    (resources : next.resources = state.resources) {other : Reply}
    (resource : other.resource = reply.resource) (key : other.key = reply.key) :
    next.Unlists request other := by
  cases unlists with
  | create made found bound unlisted =>
      exact .create (resource.trans made) (by rw [keys]; exact found) bound unlisted
  | bind method found bound known again =>
      exact .bind method (key.trans found) bound (by rw [keyUris?, resources]; exact known) again

/-- An event disturbs the lists, or it leaves every key listed once. -/
theorem KeysListedOnce.step (listed : state.KeysListedOnce) (unscripted : state.script = [])
    (draws : Draws) (event : Event) :
    (event.next state draws).1.KeysListedOnce ↔ ¬ (⟨state, draws, event⟩ : Moment).Disturbs := by
  have calm (moment : Moment) (stays : ∀ source target, moment.event ≠ .moveKey source target)
      (silent : moment.answer? = none) : ¬ moment.Disturbs := by
    rintro (⟨source, target, _, moves, -⟩ | ⟨answer, given, -⟩)
    · exact stays source target moves
    · cases silent.symm.trans given
  cases event with
  | addKey uri jwk =>
      exact iff_of_true (keysListedOnce_addKey listed uri jwk)
        (calm _ (fun _ _ same => by cases same) rfl)
  | prepare | forgetCalls =>
      exact iff_of_true (listed.congr rfl rfl) (calm _ (fun _ _ same => by cases same) rfl)
  | moveKey source target =>
      refine (keysListedOnce_moveKey listed source target).trans ⟨fun all => ?_, fun fine => ?_⟩
      · rintro (⟨_, _, key, ⟨⟩, found, unlisted⟩ | ⟨answer, given, -⟩)
        · exact unlisted (all key found)
        · cases given
      · intro key found
        refine Classical.byContradiction fun unlisted => fine ?_
        exact .inl ⟨source, target, key, rfl, found, unlisted⟩
  | receive call =>
      change (state.receive draws call).2.1.KeysListedOnce ↔ _
      rcases answer?_cases unscripted draws call with ⟨reply, rest, answered, given⟩ | ⟨same, silent⟩
      · rw [answered.keysListedOnce_iff (listed.congr rfl rfl)]
        simp only [Moment.Disturbs, given, reduceCtorEq, false_and, exists_false, false_or,
          Option.mem_some_iff, exists_eq_left']
        refine not_congr ⟨fun unlists => unlists.congr ?_ ?_ ?_ ?_,
          fun unlists => unlists.congr ?_ ?_ ?_ ?_⟩
        all_goals rfl
      · rw [same]
        exact iff_of_true (listed.congr rfl rfl) (calm _ (fun _ _ same => by cases same) silent)

theorem keysListedOnce_course {events : List Event} (listed : state.KeysListedOnce)
    (unscripted : state.script = []) (plain : ∀ outcome, .prepare outcome ∉ events) :
    (∀ before, before <+: events →
      (course State.receive before state draws).2.1.KeysListedOnce) ↔
      ∀ moment ∈ moments events state draws, ¬ moment.Disturbs := by
  induction events generalizing state draws with
  | nil =>
      refine iff_of_true (fun before begins => ?_) fun moment there => by cases there
      obtain rfl := List.prefix_nil.mp begins
      exact listed
  | cons event later ih =>
      have still : (event.next state draws).1.script = [] :=
        script_next unscripted (fun outcome same => plain outcome (same ▸ List.mem_cons_self)) draws
      have after (next : (event.next state draws).1.KeysListedOnce) :=
        @ih _ (event.next state draws).2 next still fun outcome there =>
          plain outcome (List.mem_cons_of_mem _ there)
      rw [moments, List.forall_mem_cons, ← listed.step unscripted]
      constructor
      · intro all
        have next := all [event] (List.prefix_append [event] later)
        rw [course_cons] at next
        refine ⟨next, (after next).mp fun before begins => ?_⟩
        have whole := all (event :: before) (List.cons_prefix_cons.mpr ⟨rfl, begins⟩)
        rwa [course_cons] at whole
      · rintro ⟨next, fine⟩ before begins
        rcases List.prefix_cons_iff.mp begins with rfl | ⟨rest, rfl, within⟩
        · exact listed
        · rw [course_cons]
          exact (after next).mpr fine rest within

end State

open State

/-- No outcome is ever prepared for a broker. Then every key that is bound to a known resource is
always listed there exactly once, under the URI where it is kept, as long as none of these happens: a
bound key is moved to a URI that its resource does not list once, a resource is created to which a
key is bound already that its list does not hold once, or a key is bound to a resource that lists it
already. Each of these leaves some key listed otherwise. -/
theorem keys_listed_once_iff {host : String} {events : List Event}
    (plain : ∀ outcome, .prepare outcome ∉ events) (start : Draws) :
    (∀ before, before <+: events →
      (course State.receive before { host } start).2.1.KeysListedOnce) ↔
      ∀ moment ∈ moments events { host } start, ¬ moment.Disturbs := by
  have new : State.KeysListedOnce { host } := fun uri key found => by cases found
  exact keysListedOnce_course new rfl plain

/-- A key is put into the broker, a resource is created, and the key is bound to it. -/
theorem keys_listed_once_bound :
    let key := "kms://kms/keys/a"
    let resource := "kms://kms/resources/00000000000000000000000000000000"
    let events : List Event := [
      .addKey key (.int 1),
      .receive ⟨{ method := .create, uri := Endpoint.resources }, none⟩,
      .receive ⟨{ method := .update, uri := key, resourceUri := some resource }, none⟩]
    let start : Draws := { source := fun _ _ => 0 }
    let state := (course State.receive events { host := "kms" } start).2.1
    (∀ outcome, .prepare outcome ∉ events) ∧
      (state.keys.find? key).bind KeyEntry.resourceUri = some resource ∧
      state.keyUris? resource = some [key] ∧
      (∀ before, before <+: events →
        (course State.receive before { host := "kms" } start).2.1.KeysListedOnce) ∧
      ∀ moment ∈ moments events { host := "kms" } start, ¬ moment.Disturbs := by
  intro key resource events start state
  have plain : ∀ outcome, .prepare outcome ∉ events := by simp [events]
  have counted : ∀ number < 4, ∀ entry ∈
      (course State.receive (events.take number) { host := "kms" } start).2.1.keys.entries,
      (course State.receive (events.take number) { host := "kms" } start).2.1.ListedOnce
        entry.1 entry.2 := by
    decide +kernel
  have all (before : List Event) (begins : before <+: events) :
      (course State.receive before { host := "kms" } start).2.1.KeysListedOnce := by
    have few : before.length < 4 := Nat.lt_succ_of_le begins.length_le
    rw [List.prefix_iff_eq_take.mp begins]
    exact keysListedOnce_of_entries (counted before.length few)
  refine ⟨plain, by decide +kernel, by decide +kernel, all, ?_⟩
  exact (keys_listed_once_iff plain start).mp all

/-- A key is bound twice, bound where the resource was created with it, moved when it was bound, and
bound before the resource is created. Each time it is not listed once afterwards. -/
theorem keys_not_listed_once :
    let key := "kms://kms/keys/a"
    let resource := "kms://kms/resources/00000000000000000000000000000000"
    let create (keyUris : List String) : Event :=
      .receive ⟨{ method := .create, uri := Endpoint.resources, keyUris }, none⟩
    let bind : Event :=
      .receive ⟨{ method := .update, uri := key, resourceUri := some resource }, none⟩
    let add : Event := .addKey key (.int 1)
    let start : Draws := { source := fun _ _ => 0 }
    ∀ events ∈ [[add, create [], bind, bind], [add, create [key], bind],
        [add, create [], bind, .moveKey key "kms://kms/keys/b"], [add, bind, create []]],
      (∀ outcome, .prepare outcome ∉ events) ∧
        ¬ (course State.receive events { host := "kms" } start).2.1.KeysListedOnce := by
  intro key resource create bind add start
  let state (events : List Event) : State :=
    (course State.receive events { host := "kms" } start).2.1
  have unlisted (events : List Event) (uri : String) (uris : List String)
      (bound : ((state events).keys.find? uri).bind KeyEntry.resourceUri = some resource)
      (known : (state events).keyUris? resource = some uris) (otherwise : uris.count uri ≠ 1) :
      ¬ (state events).KeysListedOnce :=
    fun listed => otherwise (listed.count_eq bound known)
  simp only [List.forall_mem_cons, List.not_mem_nil, false_implies, implies_true, and_true]
  refine ⟨⟨by simp [add, create, bind], ?_⟩, ⟨by simp [add, create, bind], ?_⟩,
    ⟨by simp [add, create, bind], ?_⟩, ⟨by simp [add, create, bind], ?_⟩⟩
  · exact unlisted _ key [key, key] (by decide +kernel) (by decide +kernel) (by decide)
  · exact unlisted _ key [key, key] (by decide +kernel) (by decide +kernel) (by decide)
  · exact unlisted _ "kms://kms/keys/b" [key] (by decide +kernel) (by decide +kernel) (by decide)
  · exact unlisted _ key [] (by decide +kernel) (by decide +kernel) (by decide)

end FieldCrypt.Broker
