import FieldCrypt.Json.Basic
import FieldCrypt.Json.Decimal

/-!
# Reading JSON text

`Json.parse?` reads one value with nothing but blanks around it. Of the members of one name in an
object the last counts. A number without point and exponent is an integer while it fits 64 bits,
signed or unsigned; all other numbers are doubles.
-/

namespace FieldCrypt.Json

/-- The characters without the blanks they begin with. -/
def skipBlanks (text : List Char) : List Char :=
  text.dropWhile fun c => c = ' ' || c = '\n' || c = '\r' || c = '\t'

/-- The value of a hexadecimal digit. -/
def hexValue? (c : Char) : Option Nat :=
  if '0' ≤ c ∧ c ≤ '9' then some (c.toNat - 48)
  else if 'a' ≤ c ∧ c ≤ 'f' then some (c.toNat - 87)
  else if 'A' ≤ c ∧ c ≤ 'F' then some (c.toNat - 55)
  else none

/-- The number that four digits of a `\u` escape write down, and what follows them. -/
def unit? : List Char → Option (Nat × List Char)
  | a :: b :: c :: d :: rest => do
    let a ← hexValue? a
    let b ← hexValue? b
    let c ← hexValue? c
    let d ← hexValue? d
    return (((a * 16 + b) * 16 + c) * 16 + d, rest)
  | _ => none

/-- The character of a `\u` escape, the `\u` already read. Characters beyond the first plane are
written as two escapes; half of such a pair is no character. -/
def escapedChar? (text : List Char) : Option (Char × List Char) := do
  let (high, rest) ← unit? text
  if 0xD800 ≤ high ∧ high < 0xDC00 then
    match rest with
    | '\\' :: 'u' :: rest =>
      let (low, rest) ← unit? rest
      if 0xDC00 ≤ low ∧ low < 0xE000 then
        return (Char.ofNat (0x10000 + (high - 0xD800) * 0x400 + (low - 0xDC00)), rest)
      else none
    | _ => none
  else if 0xDC00 ≤ high ∧ high < 0xE000 then none
  else return (Char.ofNat high, rest)

/-- The character of a one-letter escape. -/
def shortEscape? : Char → Option Char
  | '"' => some '"'
  | '\\' => some '\\'
  | '/' => some '/'
  | 'b' => some '\x08'
  | 'f' => some '\x0c'
  | 'n' => some '\n'
  | 'r' => some '\r'
  | 't' => some '\t'
  | _ => none

/-- Read a string literal up to its closing quote, the characters before it held in reverse. -/
def stringTail? : (fuel : Nat) → (held : List Char) → List Char → Option (String × List Char)
  | 0, _, _ => none
  | _ + 1, _, [] => none
  | _ + 1, held, '"' :: rest => some (String.ofList held.reverse, rest)
  | fuel + 1, held, '\\' :: 'u' :: rest => do
    let (c, rest) ← escapedChar? rest
    stringTail? fuel (c :: held) rest
  | fuel + 1, held, '\\' :: c :: rest => do
    let c ← shortEscape? c
    stringTail? fuel (c :: held) rest
  | fuel + 1, held, c :: rest =>
    if c.toNat < 32 ∨ c = '\\' then none else stringTail? fuel (c :: held) rest

/-- The number that decimal digits write down. -/
def digitsValue (digits : List Char) : Nat :=
  digits.foldl (fun value c => value * 10 + (c.toNat - 48)) 0

/-- A run of digits, and what follows it. -/
def digitRun (text : List Char) : List Char × List Char :=
  (text.takeWhile Char.isDigit, text.dropWhile Char.isDigit)

/-- The power of ten after a mantissa: absent, or a sign and at least one digit behind an `e`. -/
def power? (text : List Char) : Option (Option Int × List Char) :=
  let signed (isNegative : Bool) (rest : List Char) : Option (Option Int × List Char) :=
    let (digits, rest) := digitRun rest
    let size : Int := digitsValue digits
    if digits.isEmpty then none else some (some (if isNegative then -size else size), rest)
  match text with
  | c :: rest =>
    if c = 'e' ∨ c = 'E' then
      match rest with
      | '-' :: rest => signed true rest
      | '+' :: rest => signed false rest
      | rest => signed false rest
    else some (none, text)
  | [] => some (none, [])

/-- The least integer that is kept as one, `-2 ^ 63`. -/
def leastInt : Int := -0x8000000000000000

/-- The greatest integer that is kept as one, `2 ^ 64 - 1`. -/
def greatestInt : Int := 0xffffffffffffffff

/-- The value of a number given by its parts. A minus sign before zero is kept by a double only. -/
def numberValue? (isNegative : Bool) (whole : List Char) (fraction : Option (List Char))
    (power : Option Int) : Option Json :=
  let magnitude := digitsValue whole
  let value : Int := if isNegative then -(magnitude : Int) else magnitude
  if fraction.isNone ∧ power.isNone ∧ ¬(isNegative ∧ magnitude = 0) ∧
      leastInt ≤ value ∧ value ≤ greatestInt then some (.int value)
  else
    let decimal := Decimal.ofDigits isNegative whole (fraction.getD []) (power.getD 0)
    decimal.toBinary64?.map .real

/-- Read a number. Leading zeros are refused, and a point needs a digit on both sides. -/
def number? (text : List Char) : Option (Json × List Char) := do
  let (isNegative, text) := match text with
    | '-' :: rest => (true, rest)
    | _ => (false, text)
  let (whole, rest) := digitRun text
  if whole.isEmpty ∨ (whole.head? = some '0' ∧ 1 < whole.length) then none
  let (fraction, rest) ← match rest with
    | '.' :: rest =>
      let (digits, rest) := digitRun rest
      if digits.isEmpty then none else some (some digits, rest)
    | _ => some (none, rest)
  let (power, rest) ← power? rest
  let value ← numberValue? isNegative whole fraction power
  return (value, rest)

/-- The text after a word it begins with. -/
def after? (word text : List Char) : Option (List Char) :=
  if word.isPrefixOf text then some (text.drop word.length) else none

mutual

/-- Read a value that begins at the first character. -/
def value? : (fuel : Nat) → List Char → Option (Json × List Char)
  | 0, _ => none
  | fuel + 1, text =>
    match text with
    | '"' :: rest => do
      let (text, rest) ← stringTail? (rest.length + 1) [] rest
      return (.str text, rest)
    | '[' :: rest =>
      match skipBlanks rest with
      | ']' :: rest => some (.arr [], rest)
      | rest => do
        let (items, rest) ← items? fuel rest
        return (.arr items, rest)
    | '\x7b' :: rest =>
      match skipBlanks rest with
      | '\x7d' :: rest => some (.obj [], rest)
      | rest => do
        let (members, rest) ← members? fuel rest
        return (ofMembers members, rest)
    | 't' :: rest => (after? ['r', 'u', 'e'] rest).map (.bool true, ·)
    | 'f' :: rest => (after? ['a', 'l', 's', 'e'] rest).map (.bool false, ·)
    | 'n' :: rest => (after? ['u', 'l', 'l'] rest).map (.null, ·)
    | text => number? text

/-- Read the elements of an array, its opening bracket already read, up to the closing one. -/
def items? : (fuel : Nat) → List Char → Option (List Json × List Char)
  | 0, _ => none
  | fuel + 1, text => do
    let (item, rest) ← value? fuel text
    match skipBlanks rest with
    | ',' :: rest =>
      let (items, rest) ← items? fuel (skipBlanks rest)
      return (item :: items, rest)
    | ']' :: rest => return ([item], rest)
    | _ => none

/-- Read the members of an object, its opening brace already read, up to the closing one. -/
def members? : (fuel : Nat) → List Char → Option (List (String × Json) × List Char)
  | 0, _ => none
  | fuel + 1, text =>
    match text with
    | '"' :: rest => do
      let (name, rest) ← stringTail? (rest.length + 1) [] rest
      match skipBlanks rest with
      | ':' :: rest =>
        let (value, rest) ← value? fuel (skipBlanks rest)
        match skipBlanks rest with
        | ',' :: rest =>
          let (members, rest) ← members? fuel (skipBlanks rest)
          return ((name, value) :: members, rest)
        | '\x7d' :: rest => return ([(name, value)], rest)
        | _ => none
      | _ => none
    | _ => none

end

/-- The value that a text writes down. Every step of the reader takes a character or goes down into
an element, so twice the length of the text bounds the depth of its recursion. -/
def parse? (text : String) : Option Json :=
  let text := skipBlanks text.toList
  match value? (2 * text.length + 2) text with
  | some (value, rest) => if (skipBlanks rest).isEmpty then some value else none
  | none => none

end FieldCrypt.Json
