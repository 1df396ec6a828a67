import FieldCrypt.Key.Uri

/-!
# Encryption contexts

A context stands for one resource and holds the URL of the key that all of the resource's fields are
encrypted under. It is unbound at first. A guard sees to it that one caller at a time creates its
key: callers draw tickets and are served in the order of their tickets.
-/

namespace FieldCrypt

/-- A guard that is free when every ticket was served. -/
structure Guard where
  issued : Nat := 0
  serving : Nat := 0
  deriving DecidableEq, Repr, Inhabited

namespace Guard

/-- Draw the next ticket. -/
def arrive (guard : Guard) : Nat × Guard :=
  (guard.issued, { guard with issued := guard.issued + 1 })

/-- Whether the holder of a ticket may go on. -/
def admits (guard : Guard) (ticket : Nat) : Bool := guard.serving = ticket

/-- Serve the next ticket, drawn already or not. -/
def release (guard : Guard) : Guard := { guard with serving := guard.serving + 1 }

/-- Nobody holds the guard or waits for it. -/
def isFree (guard : Guard) : Bool := guard.issued = guard.serving

end Guard

/-- The key URL of one resource, and the guard of its creation. -/
structure Context where
  keyUrl : Option KeyUri := none
  guard : Guard := {}
  deriving DecidableEq, Repr, Inhabited

namespace Context

/-- A context for a resource that has a key already. An empty URI names no key. -/
def resumed (uri : KeyUri) : Context := { keyUrl := if uri.isEmpty then none else some uri }

def isBound (context : Context) : Bool := context.keyUrl.isSome

/-- The context as it shows in a report about a value that holds it. -/
def describe (context : Context) : String :=
  let url := match context.keyUrl with
    | some uri => "Some(" ++ uri.describe ++ ")"
    | none => "None"
  "EncryptionContext \x7b encryption_key_url: " ++ url ++ " \x7d"

end Context

end FieldCrypt
