import FieldCrypt.Json.Basic
import FieldCrypt.Text.Hex

/-!
# Compact JSON text

Values are written without blanks. In strings only the quote, the backslash and the characters below
the blank are escaped. A double always shows a point or an exponent, so that reading it gives a
double again.
-/

namespace FieldCrypt

namespace Binary64

/-- A double in decimal. The digits stand in positional form while the point falls at most sixteen
places right of the first digit and at most four zeros stand between the two on its left; otherwise
the first digit is followed by the point and a power of ten that shows its sign. -/
def render (x : Binary64) : String :=
  let sign := if x.negative then "-" else ""
  if x.mantissa = 0 then sign ++ "0.0"
  else
    let (significand, scale) := x.shortest
    let digits := Nat.toDigits 10 significand
    let point : Int := (digits.length : Int) + scale
    let text := String.ofList
    let zeros (n : Int) := text (List.replicate n.toNat '0')
    let body :=
      if 0 ≤ scale ∧ point ≤ 16 then text digits ++ zeros scale ++ ".0"
      else if 0 < point ∧ point ≤ 16 then
        text (digits.take point.toNat) ++ "." ++ text (digits.drop point.toNat)
      else if -5 < point ∧ point ≤ 0 then "0." ++ zeros (-point) ++ text digits
      else
        let fraction := if digits.length = 1 then "" else "." ++ text (digits.drop 1)
        let mark := if point ≤ 0 then "e" else "e+"
        text (digits.take 1) ++ fraction ++ mark ++ toString (point - 1)
    sign ++ body

end Binary64

namespace Json

/-- A character inside a string literal. -/
def escapeChar (c : Char) : List Char :=
  match c with
  | '"' => ['\\', '"']
  | '\\' => ['\\', '\\']
  | '\x08' => ['\\', 'b']
  | '\x0c' => ['\\', 'f']
  | '\n' => ['\\', 'n']
  | '\r' => ['\\', 'r']
  | '\t' => ['\\', 't']
  | c =>
    if c.toNat < 32 then
      ['\\', 'u', '0', '0', Hex.digit (c.toNat / 16), Hex.digit (c.toNat % 16)]
    else [c]

/-- A string literal with its quotes. -/
def quote (text : String) : String :=
  "\"" ++ String.ofList (text.toList.flatMap escapeChar) ++ "\""

mutual

/-- The compact text of a value. -/
def render : Json → String
  | .null => "null"
  | .bool true => "true"
  | .bool false => "false"
  | .int value => toString value
  | .real value => value.render
  | .str value => quote value
  | .arr items => "[" ++ ",".intercalate (renderItems items) ++ "]"
  | .obj members => "\x7b" ++ ",".intercalate (renderMembers members) ++ "\x7d"

/-- The texts of the elements of an array. -/
def renderItems : List Json → List String
  | [] => []
  | item :: rest => render item :: renderItems rest

/-- The texts of the members of an object. -/
def renderMembers : List (String × Json) → List String
  | [] => []
  | (name, value) :: rest => (quote name ++ ":" ++ render value) :: renderMembers rest

end

end Json

end FieldCrypt
