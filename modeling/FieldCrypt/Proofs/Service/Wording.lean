import FieldCrypt.Proofs.Record.Wording
import FieldCrypt.Service

/-!
# Encryption keeps the shape of records

What a service makes of a record has the JSON form of the record but for the texts that its layout
names, and when it was encrypted, for the URL of the key. This is so whatever the outside answers,
and whether the service reports a success or a failure: nothing appears, vanishes, or moves.
-/

namespace FieldCrypt

open Json (Reworded)

namespace Service

section Gives

variable {R : Type} [Protected R] [LawfulProtected R] [Wire R] [ShownProtected R]

theorem decrypt_reworded (service : Service) (record : R) :
    (service.decrypt record).Gives fun ended =>
      Reworded (Protected.layout : Layout R).Names (encode record) (encode ended.2) := by
  have decrypting : (Protected.decrypt service.provider.transform record).Gives fun ended =>
      Reworded (Protected.layout : Layout R).Names (encode record) (encode ended.2) := by
    unfold Protected.decrypt Protected.decryptWith
    split
    · exact separate.apply_reworded shows _ _ _ record
    · exact .refl _ _
  exact decrypting.bind fun _ reworded => reworded

/-- Either no key was bound and the record is left alone, or it is stamped first. -/
theorem encrypt_reworded (service : Service) (context : ContextId) (record : R) :
    (service.encrypt context record).Gives fun ended =>
      (∃ error, ended = (.error error, record)) ∨
      ∃ uri : KeyUri, Reworded (Protected.layout : Layout R).Names
        ((encode record : Json).put "encryptionKeyUrl" (encode uri)) (encode ended.2) := by
  have encrypting : (Protected.encrypt service.provider.transform context record).Gives
      fun ended => (∃ error, ended = (.error error, record)) ∨
        ∃ uri : KeyUri, Reworded (Protected.layout : Layout R).Names
          ((encode record : Json).put "encryptionKeyUrl" (encode uri)) (encode ended.2) := by
    refine (Routine.gives_true _).bind fun outcome _ => ?_
    cases outcome with
    | error error => exact .inl ⟨error, rfl⟩
    | ok uri =>
        refine (separate.apply_reworded shows service.provider.transform .encrypt (.named uri)
          (Protected.stamp record uri)).mono fun ended reworded => .inr ⟨uri, ?_⟩
        rw [← encode_stamp]
        exact reworded
  refine encrypting.bind ?_
  rintro _ (⟨error, rfl⟩ | reworded)
  · exact .inl ⟨_, rfl⟩
  · exact .inr reworded

end Gives

/-- Records of any kind keep their JSON form, whoever encrypts or decrypts them, however the outside
and everybody else behave, and whatever comes of it. At all places within it there are the same
values, lists of the same length, and objects with the same members, but for texts that were not
empty before at places that the layout names. Encrypting adds the member `encryptionKeyUrl` first or
replaces it, unless it fails before there is a key and leaves the record as it is. -/
theorem wire_shape_kept {σ : Type} (handle : Handler Effect σ) (service : Service)
    (kind : RecordKind) (record : kind.Record) (state last : σ)
    (ended : Except ServiceError Unit × kind.Record) :
    (∀ context, Routine.Ends handle (service.encrypt context record) state ended last →
      (∃ error, ended = (.error error, record)) ∨
      ∃ uri : KeyUri, Reworded (Protected.layout : Layout kind.Record).Names
        ((encode record : Json).put "encryptionKeyUrl" (encode uri)) (encode ended.2)) ∧
    (Routine.Ends handle (service.decrypt record) state ended last →
      Reworded (Protected.layout : Layout kind.Record).Names (encode record) (encode ended.2)) := by
  constructor
  · intro context ends
    exact (service.encrypt_reworded context record).of_ends ends
  · intro ends
    exact (service.decrypt_reworded record).of_ends ends

/-- Of the texts of an activity one cannot be encrypted, and an absent and an empty name stand
between that one and the next. -/
theorem wire_shape_kept_partial :
    let environment : Environment Unit :=
      ⟨fun _ _ => (.error (.transport "offline"), ()), fun _ _ => ([], ()), fun _ _ _ text _ =>
        (if text = "b" then .error (.encrypt "no") else .ok (if text = "a" then "x" else "z"), ())⟩
    let shared : Shared Unit := { outside := (), contexts := ⟨[.resumed ⟨"kms://k"⟩]⟩ }
    let before : Activity := {
      displayName := some "a"
      files := [{ displayName := some "b" }, {}, { displayName := some "" },
        { displayName := some "c" }] }
    let after : Activity := {
      displayName := some "x"
      files := [{ displayName := some "b" }, {}, { displayName := some "" },
        { displayName := some "z" }]
      encryptionKeyUrl := some ⟨"kms://k"⟩ }
    let failure : ServiceError := .record (.field "files[].displayName" (.encrypt "no"))
    let service : Service := {}
    (∃ last, Routine.Ends environment.handle (service.encrypt 0 before) shared
      (.error failure, after) last) ∧
    ∃ uri : KeyUri, Reworded (Protected.layout : Layout Activity).Names
      ((encode before : Json).put "encryptionKeyUrl" (encode uri)) (encode after) := by
  intro environment shared before after failure service
  have turned : (Routine.turn environment.handle (service.encrypt 0 before) shared).rest.result? =
      some (.error failure, after) := by
    decide +kernel
  have ends : Routine.Ends environment.handle (service.encrypt 0 before) shared
      (.error failure, after)
      (Routine.turn environment.handle (service.encrypt 0 before) shared).state := by
    rw [Routine.Ends, ← Routine.eq_done_of_result? turned]
    exact Routine.steps_turn _ _ _
  refine ⟨⟨_, ends⟩, ?_⟩
  rcases (wire_shape_kept environment.handle service .activity before shared _
    (.error failure, after)).1 0 ends with ⟨error, same⟩ | reworded
  · have bound := congrArg (fun ended : _ × Activity => ended.2.encryptionKeyUrl) same
    cases bound
  · exact reworded

end Service

end FieldCrypt
