import FieldCrypt.Proofs.Client.Effects

/-!
# Keys have names

Whatever the broker replies, a key that a client hands on has a URI that is not empty: an entry
without one is refused.
-/

namespace FieldCrypt

open Broker

theorem Broker.KeyEntry.material?_named {key : KeyEntry} {otherwise : Option String}
    {material : KeyMaterial} (found : key.material? otherwise = some material) :
    material.uri.isEmpty = false := by
  obtain ⟨uri, first, rfl⟩ := Option.map_eq_some_iff.mp found
  have full : (!uri.isEmpty) = true := by
    rcases Option.or_eq_some_iff.mp first with own | ⟨-, other⟩
    · exact (Option.filter_eq_some_iff.mp own).2
    · exact (Option.filter_eq_some_iff.mp other).2
  rwa [Bool.not_eq_true'] at full

namespace Client

theorem materials_named {keys : List KeyEntry} {found : List KeyMaterial}
    (materials : materials keys = .ok found) : ∀ key ∈ found, key.uri.isEmpty = false := by
  induction keys generalizing found with
  | nil =>
      obtain rfl := Except.ok.inj materials
      exact nofun
  | cons key rest ih =>
      rw [Client.materials, List.mapM_cons, ← Client.materials] at materials
      cases made : key.material? none with
      | none =>
          rw [made] at materials
          cases materials
      | some material =>
          rw [made] at materials
          cases others : Client.materials rest with
          | error error =>
              rw [others] at materials
              cases materials
          | ok later =>
              rw [others] at materials
              obtain rfl := Except.ok.inj materials
              exact List.forall_mem_cons.mpr ⟨KeyEntry.material?_named made, ih others⟩

theorem createKeys_gives (count : UInt32) :
    (createKeys count).Gives fun outcome =>
      ∀ keys, outcome = .ok keys → ∀ key ∈ keys, key.uri.isEmpty = false := by
  refine (Routine.gives_true _).bind ?_
  rintro (error | reply) -
  · exact nofun
  · exact fun keys made => materials_named made

theorem createKey_gives :
    createKey.Gives fun outcome => ∀ uri, outcome = .ok uri → uri.isEmpty = false := by
  refine (createKeys_gives 1).bind ?_
  rintro (error | _ | ⟨key, rest⟩) named
  · exact nofun
  · exact nofun
  · rintro uri made
    obtain rfl := Except.ok.inj made
    exact named _ rfl key List.mem_cons_self

end Client

end FieldCrypt
