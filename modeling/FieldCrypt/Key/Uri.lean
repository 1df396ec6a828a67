import FieldCrypt.Json.Wire

/-!
# Key URIs

A key is named by a URI that the broker issues, usually `kms://host/keys/id`. Any text is accepted;
the parts are read off on demand.
-/

namespace FieldCrypt

/-- The name of a key. The broker may move a key and answer with another URI for it. -/
structure KeyUri where
  text : String
  deriving DecidableEq, Repr, Inhabited

namespace KeyUri

/-- The scheme that the broker's own URIs begin with. -/
def scheme : List Char := ['k', 'm', 's', ':', '/', '/']

def isEmpty (uri : KeyUri) : Bool := uri.text.isEmpty

/-- What follows the scheme. -/
def afterScheme? (uri : KeyUri) : Option (List Char) :=
  let chars := uri.text.toList
  if scheme.isPrefixOf chars then some (chars.drop scheme.length) else none

/-- A text up to its first slash, and what follows that slash if there is one. -/
def splitAtSlash (chars : List Char) : List Char × Option (List Char) :=
  (chars.takeWhile (· ≠ '/'),
    match chars.dropWhile (· ≠ '/') with
    | [] => none
    | _ :: rest => some rest)

/-- A text unless it is empty. -/
def nonempty? (chars : List Char) : Option String :=
  if chars.isEmpty then none else some (String.ofList chars)

/-- The host of a `kms://` URI. -/
def host? (uri : KeyUri) : Option String := do
  let rest ← uri.afterScheme?
  nonempty? (splitAtSlash rest).1

/-- The id of a `kms://host/keys/id` URI: everything behind the segment `keys`. -/
def keyId? (uri : KeyUri) : Option String := do
  let rest ← uri.afterScheme?
  let path ← (splitAtSlash rest).2
  let (segment, id) := splitAtSlash path
  if segment = ['k', 'e', 'y', 's'] then nonempty? (← id) else none

/-- The URI as it shows in a report about a value that holds it. -/
def describe (uri : KeyUri) : String := "KeyUri(" ++ uri.text ++ ")"

/-- A sorted list without its repetitions. -/
def dropRepeats : List KeyUri → List KeyUri
  | first :: second :: rest =>
    if first = second then dropRepeats (second :: rest) else first :: dropRepeats (second :: rest)
  | short => short

/-- The different URIs of a list in increasing order of their code points, which is the order of
their encoded bytes. -/
def sortedDistinct (uris : List KeyUri) : List KeyUri :=
  dropRepeats (uris.mergeSort fun a b => !(b.text < a.text))

instance : Wire KeyUri where
  encode uri := .str uri.text
  decode? json := (decode? json).map KeyUri.mk

end KeyUri

end FieldCrypt
