import FieldCrypt.Key.Uri
import Mathlib.Data.List.TakeWhile

/-!
# The form of a key URI

The id of a key is read from the URIs `kms://host/keys/id` and from no others, where the host has no
slash and the id is not empty; the id may have slashes. Of such a URI the host is read as well, so
that the two parts make up the whole text again. The one exception is a URI without a host: it has
an id all the same.
-/

namespace FieldCrypt.KeyUri

variable {uri : KeyUri} {chars front rest : List Char} {host id : String}

/-- The URI is `kms://host/keys/id`. -/
structure Locates (uri : KeyUri) (host id : String) : Prop where
  noSlash : '/' ∉ host.toList
  id_ne : id ≠ ""
  text_eq : uri.text = "kms://" ++ host ++ "/keys/" ++ id

theorem nonempty?_eq_some_iff {text : String} :
    nonempty? chars = some text ↔ text ≠ "" ∧ chars = text.toList := by
  unfold nonempty?
  split
  · rename_i empty
    constructor
    · exact nofun
    · rintro ⟨named, rfl⟩
      rw [List.isEmpty_iff, String.toList_eq_nil_iff] at empty
      exact (named empty).elim
  · rename_i full
    rw [Option.some.injEq]
    constructor
    · rintro rfl
      rw [String.toList_ofList]
      refine ⟨fun empty => full ?_, rfl⟩
      have none := congrArg String.toList empty
      rwa [String.toList_ofList, String.toList_empty, ← List.isEmpty_iff] at none
    · rintro ⟨-, rfl⟩
      exact String.ofList_toList

theorem nonempty?_toList (text : String) :
    nonempty? text.toList = if text = "" then none else some text := by
  split
  · rename_i empty
    rw [empty]
    rfl
  · rename_i named
    exact nonempty?_eq_some_iff.mpr ⟨named, rfl⟩

theorem afterScheme?_eq_some_iff :
    uri.afterScheme? = some rest ↔ uri.text.toList = scheme ++ rest := by
  simp only [afterScheme?]
  split
  · rename_i begins
    obtain ⟨tail, whole⟩ := List.isPrefixOf_iff_prefix.mp begins
    rw [← whole, List.drop_left, Option.some.injEq, List.append_cancel_left_eq]
  · rename_i other
    constructor
    · exact nofun
    · intro whole
      rw [whole, List.isPrefixOf_iff_prefix] at other
      exact (other (List.prefix_append scheme rest)).elim

/-- A text is split at its first slash. -/
theorem splitAtSlash_eq_some_iff :
    splitAtSlash chars = (front, some rest) ↔ '/' ∉ front ∧ chars = front ++ '/' :: rest := by
  constructor
  · intro split
    obtain ⟨rfl, found⟩ := Prod.mk.inj split
    have whole := List.takeWhile_append_dropWhile (p := (· ≠ '/')) (l := chars)
    cases behind : chars.dropWhile (· ≠ '/') with
    | nil =>
        rw [behind] at found
        cases found
    | cons c tail =>
        rw [behind] at found whole
        obtain rfl := Option.some.inj found
        have stops : decide (c ≠ '/') = false := by
          have full : chars.dropWhile (· ≠ '/') ≠ [] := by
            rw [behind]
            exact List.cons_ne_nil c tail
          have head := List.head_dropWhile_not (fun c => decide (c ≠ '/')) full
          simpa only [behind, List.head_cons] using head
        obtain rfl : c = '/' := by simpa using stops
        refine ⟨fun there => ?_, whole.symm⟩
        simpa using List.mem_takeWhile_imp there
  · rintro ⟨noSlash, rfl⟩
    have passed : ∀ c ∈ front, decide (c ≠ '/') = true := by
      intro c there
      exact decide_eq_true fun slash => noSlash (slash ▸ there)
    rw [splitAtSlash, List.takeWhile_append_of_pos passed, List.dropWhile_append_of_pos passed]
    simp

theorem Locates.afterScheme?_eq (locates : uri.Locates host id) :
    uri.afterScheme? =
      some (host.toList ++ '/' :: (['k', 'e', 'y', 's'] ++ '/' :: id.toList)) := by
  rw [afterScheme?_eq_some_iff, locates.text_eq]
  simp [scheme]

theorem Locates.host?_eq (locates : uri.Locates host id) :
    uri.host? = if host = "" then none else some host := by
  rw [host?, locates.afterScheme?_eq, Option.bind_eq_bind, Option.bind_some,
    splitAtSlash_eq_some_iff.mpr ⟨locates.noSlash, rfl⟩]
  exact nonempty?_toList host

theorem Locates.keyId?_eq (locates : uri.Locates host id) : uri.keyId? = some id := by
  have path (rest : List Char) : splitAtSlash (host.toList ++ '/' :: rest) =
      (host.toList, some rest) := splitAtSlash_eq_some_iff.mpr ⟨locates.noSlash, rfl⟩
  have segment : splitAtSlash (['k', 'e', 'y', 's'] ++ '/' :: id.toList) =
      (['k', 'e', 'y', 's'], some id.toList) := splitAtSlash_eq_some_iff.mpr ⟨by decide, rfl⟩
  simp only [keyId?, locates.afterScheme?_eq, path, segment, Option.bind_eq_bind,
    Option.bind_some, if_true]
  exact nonempty?_eq_some_iff.mpr ⟨locates.id_ne, rfl⟩

/-- Only a URI of this form has an id. -/
theorem exists_locates (found : uri.keyId? = some id) : ∃ host, uri.Locates host id := by
  simp only [keyId?, Option.bind_eq_bind, Option.bind_eq_some_iff] at found
  obtain ⟨rest, begins, path, behind, found⟩ := found
  split at found
  · rename_i keys
    obtain ⟨chars, last, named⟩ := Option.bind_eq_some_iff.mp found
    obtain ⟨id_ne, rfl⟩ := nonempty?_eq_some_iff.mp named
    obtain ⟨noSlash, first⟩ := splitAtSlash_eq_some_iff.mp (Prod.ext rfl behind)
    obtain ⟨-, second⟩ := splitAtSlash_eq_some_iff.mp (Prod.ext keys last)
    refine ⟨String.ofList (splitAtSlash rest).1, ?_, id_ne, ?_⟩
    · rwa [String.toList_ofList]
    · apply String.toList_injective
      calc
        uri.text.toList = scheme ++ rest := afterScheme?_eq_some_iff.mp begins
        _ = scheme ++ ((splitAtSlash rest).1 ++ '/' :: path) := congrArg (scheme ++ ·) first
        _ = _ := by simp [scheme, second]
  · cases found

theorem Locates.host_unique {other : String} (locates : uri.Locates host id)
    (found : uri.host? = some other) : other = host := by
  rw [locates.host?_eq] at found
  split at found
  · cases found
  · exact (Option.some.inj found).symm

/-- An id is read from a URI exactly if the URI is `kms://host/keys/id` for some host without a slash
and an id that is not empty. The host of such a URI is read as well unless it is empty, and the parts
that are read, put in their places, give the URI back. -/
theorem keyId?_grammar (uri : KeyUri) :
    (∀ id, uri.keyId? = some id ↔ ∃ host, uri.Locates host id) ∧
    (∀ host id, uri.Locates host id → uri.host? = if host = "" then none else some host) ∧
    ∀ host id, uri.host? = some host → uri.keyId? = some id →
      "kms://" ++ host ++ "/keys/" ++ id = uri.text := by
  refine ⟨fun id => ⟨exists_locates, fun ⟨_, locates⟩ => locates.keyId?_eq⟩, ?_, ?_⟩
  · intro host id locates
    exact locates.host?_eq
  · intro host id hostRead idRead
    obtain ⟨own, locates⟩ := exists_locates idRead
    rw [locates.host_unique hostRead, locates.text_eq]

/-- All that follows the second slash is the id. -/
theorem keyId?_grammar_slashes :
    let uri : KeyUri := ⟨"kms://h/keys/a/keys//"⟩
    uri.Locates "h" "a/keys//" ∧ uri.host? = some "h" ∧ uri.keyId? = some "a/keys//" ∧
      "kms://" ++ "h" ++ "/keys/" ++ "a/keys//" = uri.text := by
  intro uri
  have locates : uri.Locates "h" "a/keys//" := ⟨by decide, by decide, by decide⟩
  obtain ⟨reads, hosts, joins⟩ := keyId?_grammar uri
  have host := hosts _ _ locates
  have id := (reads _).mpr ⟨_, locates⟩
  exact ⟨locates, host, id, joins _ _ host id⟩

/-- A URI without a host has an id too. -/
theorem keyId?_without_host :
    ¬ ∀ (uri : KeyUri) (id : String),
      uri.keyId? = some id ↔ ∃ host, host ≠ "" ∧ uri.Locates host id := by
  intro exact_grammar
  have read : (⟨"kms:///keys/a"⟩ : KeyUri).keyId? = some "a" := by decide
  have nothing : (⟨"kms:///keys/a"⟩ : KeyUri).host? = none := by decide
  obtain ⟨host, named, locates⟩ := (exact_grammar _ _).mp read
  rw [locates.host?_eq, if_neg named] at nothing
  cases nothing

end FieldCrypt.KeyUri
