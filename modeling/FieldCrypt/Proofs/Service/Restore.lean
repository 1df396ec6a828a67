import FieldCrypt.Proofs.Record.Kind
import FieldCrypt.Proofs.Record.Sealing
import FieldCrypt.Service

/-!
# Restoring records

A service that encrypts under the key of a bound context seals the record stamped with that key's
URL. A service whose provider opens those texts under that URL restores the stamped record, whatever
provider, cache and settings it was encrypted with.
-/

namespace FieldCrypt

variable {R σ φ : Type} [Protected R]

namespace Service

/-- Decrypting ends well and with this record, taking turns and under every interleaving. -/
structure Restores (environment : Environment σ) (service : Service) (shared : Shared σ)
    (sealed plain : R) : Prop where
  runs : ∃ last, Routine.run environment.handle (service.decrypt sealed) shared =
    some ((.ok (), plain), last)
  ends : ∀ ended last, Routine.Ends environment.handle (service.decrypt sealed) shared ended last →
    ended = (.ok (), plain)

variable [Preorder φ] {environment : Environment σ} {invariant : φ → Shared σ → Prop} {phase : φ}
  {service : Service} {opens : String → Except CryptoError String}

theorem restores_of_upholds {shared : Shared σ} {sealed plain : R}
    (upholds : (service.decrypt sealed).Upholds environment.handle invariant phase
      (· = (.ok (), plain)))
    (holds : invariant phase shared) : service.Restores environment shared sealed plain where
  runs := by
    obtain ⟨ended, last, ran, rfl⟩ := upholds.run holds
    exact ⟨last, ran⟩
  ends ended last ends := (upholds.of_ends holds ends).1

variable [LawfulProtected R]

/-- A service seals a record under the key of its context when its provider seals texts. -/
theorem encrypt_upholds {context : ContextId} {uri : KeyUri}
    (bound : (Client.boundKey context).Upholds environment.handle invariant phase (· = .ok uri))
    (each : ∀ text, (service.provider.transform .encrypt (.named uri) text).Upholds
      environment.handle invariant phase fun outcome =>
        ∃ ciphertext, outcome = .ok ciphertext ∧ Layout.Seals opens text ciphertext)
    (record : R) :
    (service.encrypt context record).Upholds environment.handle invariant phase fun ended =>
      ended.1 = .ok () ∧
        Protected.layout.Treats (Layout.Seals opens) (Protected.stamp record uri) ended.2 := by
  have sealing : (Protected.encrypt service.provider.transform context record).Upholds
      environment.handle invariant phase fun ended => ended.1 = .ok () ∧
        Protected.layout.Treats (Layout.Seals opens) (Protected.stamp record uri) ended.2 := by
    refine bound.bind ?_
    rintro outcome rfl
    exact separate.apply_treats _ _ fun call _ => each call.text
  refine sealing.bind ?_
  rintro ⟨outcome, sealed⟩ ⟨rfl, treats⟩
  exact ⟨rfl, treats⟩

/-- A sealed record has the URL that its plain record was stamped with. -/
theorem keyUrl_of_treats {becomes : String → String → Prop} {record sealed : R} {uri : KeyUri}
    (treats : Protected.layout.Treats becomes (Protected.stamp record uri) sealed) :
    Protected.keyUrl sealed = some uri :=
  (keyUrl_eq_of_blank treats.outside).trans (keyUrl_stamp record uri)

/-- A service opens a sealed record when its provider opens the texts. -/
theorem decrypt_upholds {record sealed : R} {uri : KeyUri} (named : uri.isEmpty = false)
    (seals : Protected.layout.Treats (Layout.Seals opens) (Protected.stamp record uri) sealed)
    (each : ∀ ciphertext text, opens ciphertext = .ok text →
      (service.provider.transform .decrypt (.named uri) ciphertext).Upholds environment.handle
        invariant phase (· = .ok text)) :
    (service.decrypt sealed).Upholds environment.handle invariant phase
      (· = (.ok (), Protected.stamp record uri)) := by
  have keyed : (Protected.keyUrl sealed).filter (fun uri => !uri.isEmpty) = some uri := by
    rw [keyUrl_of_treats seals, Option.filter_some, named]
    rfl
  have opening : (Protected.decrypt service.provider.transform sealed).Upholds environment.handle
      invariant phase (· = (.ok (), Protected.stamp record uri)) := by
    unfold Protected.decrypt Protected.decryptWith
    rw [keyed]
    exact separate.apply_opens seals each
  refine opening.bind ?_
  rintro ended rfl
  rfl

end Service

end FieldCrypt
