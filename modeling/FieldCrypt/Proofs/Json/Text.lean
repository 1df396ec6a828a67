import FieldCrypt.Json.Parser
import FieldCrypt.Json.Printer
import FieldCrypt.Proofs.Json.Members

/-!
# JSON text is read as it was written

The reader gives back every plain value from its compact text: digits as the integer, escapes as the
characters they stand for, and elements and members one after another. A number is the only value
whose end shows in what follows it, so what may follow a value is fixed beforehand.
-/

namespace FieldCrypt.Json

/-- No doubles, integers of 64 bits, and the members of objects in order. -/
inductive Plain : Json → Prop where
  | null : Plain .null
  | bool (value : Bool) : Plain (.bool value)
  | int {value : Int} (least : leastInt ≤ value) (greatest : value ≤ greatestInt) :
      Plain (.int value)
  | str (text : String) : Plain (.str text)
  | arr {items : List Json} (each : ∀ item ∈ items, Plain item) : Plain (.arr items)
  | obj {members : List (String × Json)} (each : ∀ member ∈ members, Plain member.2)
      (sorted : Sorted members) : Plain (.obj members)

/-- What can come after a value: nothing that would go on with a number. -/
def Follows (rest : List Char) : Prop :=
  ∀ c ∈ rest.head?, c.isDigit = false ∧ c ≠ '.' ∧ c ≠ 'e' ∧ c ≠ 'E'

theorem hexValue?_digit : ∀ n : Fin 16, hexValue? (Hex.digit n.val) = some n.val := by
  decide

theorem escapedChar?_control {c : Char} (control : c.toNat < 32) (rest : List Char) :
    escapedChar? ('0' :: '0' :: Hex.digit (c.toNat / 16) :: Hex.digit (c.toNat % 16) :: rest) =
      some (c, rest) := by
  have high := hexValue?_digit ⟨c.toNat / 16, by omega⟩
  have low := hexValue?_digit ⟨c.toNat % 16, by omega⟩
  have whole : ((0 * 16 + 0) * 16 + c.toNat / 16) * 16 + c.toNat % 16 = c.toNat := by omega
  have zero : hexValue? '0' = some 0 := rfl
  have unit : unit? ('0' :: '0' :: Hex.digit (c.toNat / 16) :: Hex.digit (c.toNat % 16) :: rest) =
      some (c.toNat, rest) := by
    simp only [unit?, zero, high, low, Option.bind_eq_bind, Option.bind_some, Option.pure_def, whole]
  simp only [escapedChar?, unit, Option.bind_eq_bind, Option.bind_some, Option.pure_def]
  rw [if_neg (by omega), if_neg (by omega), Char.ofNat_toNat]

/-- An escaped character is read as the character. -/
theorem stringTail?_escapeChar (fuel : Nat) (held : List Char) (c : Char) (rest : List Char) :
    stringTail? (fuel + 1) held (escapeChar c ++ rest) = stringTail? fuel (c :: held) rest := by
  unfold escapeChar
  split
  case h_8 quote backslash _ _ _ _ _ =>
    split
    · rename_i control
      simp only [List.cons_append, List.nil_append, stringTail?, escapedChar?_control control,
        Option.bind_eq_bind, Option.bind_some]
    · rename_i shows
      rw [List.singleton_append, stringTail?]
      · exact if_neg (not_or.mpr ⟨shows, backslash⟩)
      · exact quote
      · exact fun _ same => (backslash same).elim
      · exact fun _ _ same => (backslash same).elim
  all_goals rfl

theorem stringTail?_quoted (chars : List Char) {fuel : Nat} (enough : chars.length < fuel)
    (held rest : List Char) :
    stringTail? fuel held (chars.flatMap escapeChar ++ '"' :: rest) =
      some (String.ofList (held.reverse ++ chars), rest) := by
  induction chars generalizing fuel held with
  | nil =>
      obtain ⟨fuel, rfl⟩ : ∃ less, fuel = less + 1 := ⟨fuel - 1, by omega⟩
      rw [List.flatMap_nil, List.nil_append, stringTail?, List.append_nil]
  | cons c chars ih =>
      obtain ⟨fuel, rfl⟩ : ∃ less, fuel = less + 1 := ⟨fuel - 1, by omega⟩
      rw [List.flatMap_cons, List.append_assoc, stringTail?_escapeChar,
        ih (Nat.lt_of_succ_lt_succ enough), List.reverse_cons, List.append_assoc,
        List.singleton_append]

theorem toList_quote (text : String) :
    (quote text).toList = '"' :: (text.toList.flatMap escapeChar ++ ['"']) := by
  simp [quote]

/-- A string literal is read from behind its first quote. -/
theorem stringTail?_quote (text : String) (rest : List Char) :
    let tail := text.toList.flatMap escapeChar ++ '"' :: rest
    stringTail? (tail.length + 1) [] tail = some (text, rest) := by
  have shorter : text.toList.length ≤ (text.toList.flatMap escapeChar).length := by
    induction text.toList with
    | nil => exact Nat.le_refl 0
    | cons c chars ih =>
        have some : 1 ≤ (escapeChar c).length := by
          unfold escapeChar
          split
          case h_8 => split <;> exact Nat.succ_pos _
          all_goals exact Nat.succ_pos _
        rw [List.flatMap_cons, List.length_append, List.length_cons]
        omega
  intro tail
  have enough : text.toList.length < tail.length + 1 := by
    rw [List.length_append]
    omega
  rw [stringTail?_quoted _ enough, List.reverse_nil, List.nil_append, String.ofList_toList]

theorem digitsValue_toDigits (n : Nat) : digitsValue (Nat.toDigits 10 n) = n := by
  have fold : digitsValue (Nat.toDigits 10 n) = Nat.ofDigitChars 10 (Nat.toDigits 10 n) 0 := by
    simp only [digitsValue, Nat.ofDigitChars_eq_foldl, Nat.mul_comm]
    rfl
  rw [fold, Nat.ofDigitChars_ten_toDigits]

theorem isDigit_toDigits (n : Nat) : ∀ c ∈ Nat.toDigits 10 n, c.isDigit = true :=
  fun _ there => Nat.isDigit_of_mem_toDigits (by decide) (by decide) there

/-- Only zero is written with a zero in front. -/
theorem head_toDigits_ne {n : Nat} (positive : 0 < n) :
    (Nat.toDigits 10 n).head? ≠ some '0' := by
  induction n using Nat.strongRecOn with
  | ind n ih =>
      rw [Nat.toDigits_eq_if (by decide)]
      split
      · rename_i small
        have digits : ∀ m : Fin 10, 0 < m.val → [Nat.digitChar m.val].head? ≠ some '0' := by decide
        exact digits ⟨n, small⟩ positive
      · rename_i large
        rw [List.head?_append_of_ne_nil _ Nat.toDigits_ne_nil]
        exact ih (n / 10) (by omega) (by omega)

theorem not_leadingZero (n : Nat) :
    ¬((Nat.toDigits 10 n).isEmpty ∨
      (Nat.toDigits 10 n).head? = some '0' ∧ 1 < (Nat.toDigits 10 n).length) := by
  rintro (empty | ⟨zero, long⟩)
  · exact Nat.toDigits_ne_nil (List.isEmpty_iff.mp empty)
  · rcases Nat.eq_zero_or_pos n with rfl | positive
    · exact absurd long (by decide)
    · exact head_toDigits_ne positive zero

theorem digitRun_append {digits rest : List Char} (all : ∀ c ∈ digits, c.isDigit = true)
    (follows : Follows rest) : digitRun (digits ++ rest) = (digits, rest) := by
  have stop : rest.takeWhile Char.isDigit = [] ∧ rest.dropWhile Char.isDigit = rest := by
    cases rest with
    | nil => exact ⟨rfl, rfl⟩
    | cons c rest =>
        have ends : c.isDigit = false := (follows c rfl).1
        simp [ends]
  rw [digitRun, List.takeWhile_append_of_pos all, List.dropWhile_append_of_pos all, stop.1, stop.2,
    List.append_nil]

theorem power?_of_follows {rest : List Char} (follows : Follows rest) :
    power? rest = some (none, rest) := by
  cases rest with
  | nil => rfl
  | cons c rest =>
      obtain ⟨-, -, lower, upper⟩ := follows c rfl
      simp only [power?]
      rw [if_neg (not_or.mpr ⟨lower, upper⟩)]

theorem number?_minus_digits (n : Nat) {rest : List Char} (follows : Follows rest) :
    number? ('-' :: (Nat.toDigits 10 n ++ rest)) =
      (numberValue? true (Nat.toDigits 10 n) none none).map (·, rest) := by
  have run := digitRun_append (isDigit_toDigits n) follows
  simp only [number?, run]
  rw [if_neg (not_leadingZero n)]
  split
  · exact ((follows '.' rfl).2.1 rfl).elim
  · simp only [Option.bind_eq_bind, Option.bind_some, power?_of_follows follows, Option.pure_def]
    cases numberValue? true (Nat.toDigits 10 n) none none <;> rfl

theorem number?_digits (n : Nat) {rest : List Char} (follows : Follows rest) :
    number? (Nat.toDigits 10 n ++ rest) =
      (numberValue? false (Nat.toDigits 10 n) none none).map (·, rest) := by
  have run := digitRun_append (isDigit_toDigits n) follows
  rw [number?]
  · simp only [run]
    rw [if_neg (not_leadingZero n)]
    split
    · exact ((follows '.' rfl).2.1 rfl).elim
    · simp only [Option.bind_eq_bind, Option.bind_some, power?_of_follows follows, Option.pure_def]
      cases numberValue? false (Nat.toDigits 10 n) none none <;> rfl
  · intro tail signed
    obtain ⟨d, ds, digits⟩ := List.exists_cons_of_ne_nil (Nat.toDigits_ne_nil (b := 10) (n := n))
    rw [digits] at signed
    have sign : '-' ∈ Nat.toDigits 10 n := by
      rw [digits, ← (List.cons.inj signed).1]
      exact List.mem_cons_self
    exact absurd (isDigit_toDigits n _ sign) (by decide)

theorem toList_toString (value : Int) :
    (∃ n : Nat, value = n ∧ (toString value).toList = Nat.toDigits 10 n) ∨
      ∃ n : Nat, value = -(n + 1 : Nat) ∧
        (toString value).toList = '-' :: Nat.toDigits 10 (n + 1) := by
  cases value with
  | ofNat n => exact .inl ⟨n, rfl, Nat.toList_repr⟩
  | negSucc n =>
      refine .inr ⟨n, rfl, ?_⟩
      have text : toString (Int.negSucc n) = "-" ++ Nat.repr (n + 1) := rfl
      rw [text, String.toList_append, Nat.toList_repr]
      rfl

/-- An integer is read from its text. -/
theorem number?_toString {value : Int} (least : leastInt ≤ value) (greatest : value ≤ greatestInt)
    {rest : List Char} (follows : Follows rest) :
    number? ((toString value).toList ++ rest) = some (.int value, rest) := by
  rcases toList_toString value with ⟨n, rfl, text⟩ | ⟨n, rfl, text⟩
  · rw [text, number?_digits n follows, numberValue?, digitsValue_toDigits, if_pos]
    · rfl
    · exact ⟨rfl, rfl, fun minus => Bool.false_ne_true minus.1, least, greatest⟩
  · rw [text, List.cons_append, number?_minus_digits (n + 1) follows, numberValue?,
      digitsValue_toDigits, if_pos]
    · rfl
    · exact ⟨rfl, rfl, fun minus => Nat.succ_ne_zero n minus.2, least, greatest⟩

/-- The texts of the elements of an array, with commas between them. -/
def itemsText (items : List Json) : List Char :=
  [','].intercalate (items.map fun item => item.render.toList)

/-- The texts of the members of an object, with commas between them. -/
def membersText (members : List (String × Json)) : List Char :=
  [','].intercalate
    (members.map fun member => (quote member.1).toList ++ ':' :: member.2.render.toList)

theorem toList_render_arr (items : List Json) :
    (render (.arr items)).toList = '[' :: (itemsText items ++ [']']) := by
  have texts : renderItems items = items.map render := by
    induction items with
    | nil => rfl
    | cons item rest ih => rw [renderItems, ih, List.map_cons]
  rw [render, texts]
  simp [itemsText, Function.comp_def]

theorem toList_render_obj (members : List (String × Json)) :
    (render (.obj members)).toList = '\x7b' :: (membersText members ++ ['\x7d']) := by
  have texts : renderMembers members =
      members.map fun member => quote member.1 ++ ":" ++ member.2.render := by
    induction members with
    | nil => rfl
    | cons member rest ih => rw [renderMembers, ih, List.map_cons]
  rw [render, texts]
  simp [membersText, Function.comp_def]

/-- The text begins with a character that is no blank and closes nothing. -/
def Starts (text : List Char) : Prop :=
  ∃ c tail, text = c :: tail ∧ c ∉ [' ', '\n', '\r', '\t', ']', '\x7d']

theorem Starts.append {text : List Char} (starts : Starts text) (rest : List Char) :
    Starts (text ++ rest) := by
  obtain ⟨c, tail, rfl, begins⟩ := starts
  exact ⟨c, tail ++ rest, rfl, begins⟩

theorem skipBlanks_of_starts {text : List Char} (starts : Starts text) : skipBlanks text = text := by
  obtain ⟨c, tail, rfl, begins⟩ := starts
  simp only [List.mem_cons, List.not_mem_nil, not_or] at begins
  simp [skipBlanks, begins]

theorem not_mem_of_isDigit {chars : List Char} (none : chars.all (fun c => !c.isDigit) = true)
    {d : Char} (digit : d.isDigit = true) : d ∉ chars := by
  intro mem
  have other := List.all_eq_true.mp none d mem
  rw [digit] at other
  cases other

theorem starts_toString (value : Int) : Starts (toString value).toList := by
  rcases toList_toString value with ⟨n, -, text⟩ | ⟨n, -, text⟩
  · obtain ⟨d, ds, digits⟩ := List.exists_cons_of_ne_nil (Nat.toDigits_ne_nil (b := 10) (n := n))
    refine ⟨d, ds, text.trans digits, ?_⟩
    have digit : d.isDigit = true := isDigit_toDigits n d (digits ▸ List.mem_cons_self)
    exact not_mem_of_isDigit (by decide) digit
  · exact ⟨'-', _, text, by decide⟩

theorem Plain.starts {json : Json} (plain : Plain json) : Starts json.render.toList := by
  cases plain with
  | null => exact ⟨'n', _, rfl, by decide⟩
  | bool value => cases value <;> exact ⟨_, _, rfl, by decide⟩
  | int least greatest => exact starts_toString _
  | str text => exact ⟨'"', _, toList_quote text, by decide⟩
  | arr each => exact ⟨'[', _, toList_render_arr _, by decide⟩
  | obj each sorted => exact ⟨'\x7b', _, toList_render_obj _, by decide⟩

theorem follows_cons {c : Char} (closes : c ∈ [',', ']', '\x7d']) (rest : List Char) :
    Follows (c :: rest) := by
  rintro other ⟨⟩
  revert closes
  simp only [List.mem_cons, List.not_mem_nil, or_false]
  rintro (rfl | rfl | rfl) <;> decide

/-- The value is read from its text when the fuel is at least twice the length of the text. -/
def Reads (json : Json) : Prop :=
  ∀ fuel rest, Follows rest → 2 * json.render.toList.length ≤ fuel →
    value? fuel (json.render.toList ++ rest) = some (json, rest)

theorem itemsText_singleton (item : Json) : itemsText [item] = item.render.toList := by
  simp [itemsText]

theorem itemsText_cons_cons (first second : Json) (items : List Json) :
    itemsText (first :: second :: items) =
      first.render.toList ++ ',' :: itemsText (second :: items) := by
  simp [itemsText]

theorem starts_itemsText {first : Json} (plain : Plain first) (items : List Json) :
    Starts (itemsText (first :: items)) := by
  cases items with
  | nil => rw [itemsText_singleton]; exact plain.starts
  | cons second more => rw [itemsText_cons_cons]; exact plain.starts.append _

theorem items?_itemsText (first : Json) (items : List Json)
    (each : ∀ item ∈ first :: items, Plain item ∧ Reads item) {fuel : Nat}
    (enough : 2 * (itemsText (first :: items)).length < fuel) (rest : List Char) :
    items? fuel (itemsText (first :: items) ++ ']' :: rest) = some (first :: items, rest) := by
  obtain ⟨fuel, rfl⟩ : ∃ less, fuel = less + 1 := ⟨fuel - 1, by omega⟩
  induction items generalizing first fuel with
  | nil =>
      obtain ⟨-, reads⟩ := each first List.mem_cons_self
      rw [itemsText_singleton] at enough ⊢
      rw [items?, reads fuel _ (follows_cons (by decide) rest) (by omega)]
      rfl
  | cons second more ih =>
      obtain ⟨⟨-, reads⟩, others⟩ := List.forall_mem_cons.mp each
      obtain ⟨plain, -⟩ := others second List.mem_cons_self
      rw [itemsText_cons_cons] at enough ⊢
      rw [List.length_append, List.length_cons] at enough
      obtain ⟨fuel, rfl⟩ : ∃ less, fuel = less + 1 := ⟨fuel - 1, by omega⟩
      have tail := ih second others fuel (by omega)
      have starts := (starts_itemsText plain more).append (']' :: rest)
      rw [List.append_assoc, List.cons_append, items?,
        reads _ _ (follows_cons (by decide) _) (by omega)]
      change ((items? (fuel + 1) (skipBlanks (itemsText (second :: more) ++ ']' :: rest))).bind
        fun found => some (first :: found.1, found.2)) = some (first :: second :: more, rest)
      rw [skipBlanks_of_starts starts, tail]
      rfl

theorem membersText_singleton (member : String × Json) :
    membersText [member] = (quote member.1).toList ++ ':' :: member.2.render.toList := by
  simp [membersText]

theorem membersText_cons_cons (first second : String × Json) (members : List (String × Json)) :
    membersText (first :: second :: members) =
      (quote first.1).toList ++ ':' :: (first.2.render.toList ++
        ',' :: membersText (second :: members)) := by
  simp [membersText]

theorem starts_membersText (first : String × Json) (members : List (String × Json)) :
    Starts (membersText (first :: members)) := by
  cases members with
  | nil => exact ⟨'"', _, by rw [membersText_singleton, toList_quote]; rfl, by decide⟩
  | cons second more => exact ⟨'"', _, by rw [membersText_cons_cons, toList_quote]; rfl, by decide⟩

theorem members?_last {member : String × Json} (plain : Plain member.2) (reads : Reads member.2)
    {fuel : Nat} (enough : 2 * member.2.render.toList.length ≤ fuel) (rest : List Char) :
    members? (fuel + 1)
        ((quote member.1).toList ++ ':' :: (member.2.render.toList ++ '\x7d' :: rest)) =
      some ([member], rest) := by
  have name := stringTail?_quote member.1 (':' :: (member.2.render.toList ++ '\x7d' :: rest))
  simp only at name
  rw [toList_quote, List.cons_append, List.append_assoc, List.singleton_append, members?, name]
  change (value? fuel (skipBlanks (member.2.render.toList ++ '\x7d' :: rest))).bind _ = _
  rw [skipBlanks_of_starts (plain.starts.append _), reads fuel _ (follows_cons (by decide) _) enough]
  rfl

theorem members?_next {member : String × Json} (plain : Plain member.2) (reads : Reads member.2)
    {fuel : Nat} (enough : 2 * member.2.render.toList.length ≤ fuel) {rest : List Char}
    (starts : Starts rest) :
    members? (fuel + 1) ((quote member.1).toList ++ ':' :: (member.2.render.toList ++ ',' :: rest)) =
      (members? fuel rest).bind fun found => some (member :: found.1, found.2) := by
  have name := stringTail?_quote member.1 (':' :: (member.2.render.toList ++ ',' :: rest))
  simp only at name
  rw [toList_quote, List.cons_append, List.append_assoc, List.singleton_append, members?, name]
  change (value? fuel (skipBlanks (member.2.render.toList ++ ',' :: rest))).bind _ = _
  rw [skipBlanks_of_starts (plain.starts.append _), reads fuel _ (follows_cons (by decide) _) enough]
  change (members? fuel (skipBlanks rest)).bind _ = _
  rw [skipBlanks_of_starts starts]
  rfl

theorem members?_membersText (first : String × Json) (members : List (String × Json))
    (each : ∀ member ∈ first :: members, Plain member.2 ∧ Reads member.2) {fuel : Nat}
    (enough : 2 * (membersText (first :: members)).length < fuel) (rest : List Char) :
    members? fuel (membersText (first :: members) ++ '\x7d' :: rest) =
      some (first :: members, rest) := by
  obtain ⟨fuel, rfl⟩ : ∃ less, fuel = less + 1 := ⟨fuel - 1, by omega⟩
  induction members generalizing first fuel with
  | nil =>
      obtain ⟨plain, reads⟩ := each first List.mem_cons_self
      rw [membersText_singleton] at enough ⊢
      rw [List.length_append, List.length_cons] at enough
      rw [List.append_assoc, List.cons_append]
      exact members?_last plain reads (by omega) rest
  | cons second more ih =>
      obtain ⟨⟨plain, reads⟩, others⟩ := List.forall_mem_cons.mp each
      rw [membersText_cons_cons] at enough ⊢
      rw [List.length_append, List.length_cons, List.length_append, List.length_cons] at enough
      obtain ⟨fuel, rfl⟩ : ∃ less, fuel = less + 1 := ⟨fuel - 1, by omega⟩
      rw [List.append_assoc, List.cons_append, List.append_assoc, List.cons_append,
        members?_next plain reads (by omega) ((starts_membersText second more).append _),
        ih second others fuel (by omega)]
      rfl

/-- A text that begins neither like a word, a string, an array nor an object is read as a number. -/
theorem value?_number (fuel : Nat) {c : Char} (tail : List Char)
    (numeric : c = '-' ∨ c.isDigit = true) :
    value? (fuel + 1) (c :: tail) = number? (c :: tail) := by
  have other : c ∉ ['"', '[', '\x7b', 't', 'f', 'n'] := by
    rcases numeric with rfl | digit
    · decide
    · exact not_mem_of_isDigit (by decide) digit
  simp only [List.mem_cons, List.not_mem_nil, or_false, not_or] at other
  obtain ⟨quote, bracket, brace, t, f, n⟩ := other
  rw [value?]
  · exact fun _ same => quote (List.cons.inj same).1
  · exact fun _ same => bracket (List.cons.inj same).1
  · exact fun _ same => brace (List.cons.inj same).1
  · exact fun _ same => t (List.cons.inj same).1
  · exact fun _ same => f (List.cons.inj same).1
  · exact fun _ same => n (List.cons.inj same).1

theorem value?_toString (fuel : Nat) (value : Int) (rest : List Char) :
    value? (fuel + 1) ((toString value).toList ++ rest) =
      number? ((toString value).toList ++ rest) := by
  rcases toList_toString value with ⟨n, -, text⟩ | ⟨n, -, text⟩
  · obtain ⟨d, ds, digits⟩ := List.exists_cons_of_ne_nil (Nat.toDigits_ne_nil (b := 10) (n := n))
    have digit : d.isDigit = true := isDigit_toDigits n d (digits ▸ List.mem_cons_self)
    rw [text, digits]
    exact value?_number fuel _ (.inr digit)
  · rw [text]
    exact value?_number fuel _ (.inl rfl)

theorem value?_arr {fuel : Nat} {text : List Char} (starts : Starts text) :
    value? (fuel + 1) ('[' :: text) =
      (items? fuel text).bind fun found => some (.arr found.1, found.2) := by
  rw [value?, skipBlanks_of_starts starts]
  obtain ⟨c, tail, rfl, begins⟩ := starts
  split
  · rename_i same
    rw [(List.cons.inj same).1] at begins
    exact absurd begins (by decide)
  · rfl

theorem value?_obj {fuel : Nat} {text : List Char} (starts : Starts text) :
    value? (fuel + 1) ('\x7b' :: text) =
      (members? fuel text).bind fun found => some (ofMembers found.1, found.2) := by
  rw [value?, skipBlanks_of_starts starts]
  obtain ⟨c, tail, rfl, begins⟩ := starts
  split
  · rename_i same
    rw [(List.cons.inj same).1] at begins
    exact absurd begins (by decide)
  · rfl

theorem Plain.exists_fuel {json : Json} (plain : Plain json) {fuel : Nat}
    (enough : 2 * json.render.toList.length ≤ fuel) : ∃ less, fuel = less + 1 := by
  obtain ⟨c, tail, text, -⟩ := plain.starts
  rw [text, List.length_cons] at enough
  exact ⟨fuel - 1, by omega⟩

/-- Every plain value is read from its text. -/
theorem Plain.reads {json : Json} (plain : Plain json) : Reads json := by
  induction plain with
  | null =>
      intro fuel rest _ enough
      obtain ⟨fuel, rfl⟩ := Plain.null.exists_fuel enough
      rfl
  | bool value =>
      intro fuel rest _ enough
      obtain ⟨fuel, rfl⟩ := (Plain.bool value).exists_fuel enough
      cases value <;> rfl
  | int least greatest =>
      intro fuel rest follows enough
      obtain ⟨fuel, rfl⟩ := (Plain.int least greatest).exists_fuel enough
      rw [render, value?_toString]
      exact number?_toString least greatest follows
  | str text =>
      intro fuel rest _ enough
      obtain ⟨fuel, rfl⟩ := (Plain.str text).exists_fuel enough
      have tail := stringTail?_quote text rest
      simp only at tail
      rw [render, toList_quote, List.cons_append, List.append_assoc, List.singleton_append, value?,
        tail]
      rfl
  | @arr items each ih =>
      intro fuel rest _ enough
      obtain ⟨fuel, rfl⟩ := (Plain.arr each).exists_fuel enough
      rw [toList_render_arr, List.length_cons, List.length_append] at enough
      rw [toList_render_arr, List.cons_append, List.append_assoc, List.singleton_append]
      cases items with
      | nil => rfl
      | cons first items =>
          have plain := each first List.mem_cons_self
          rw [value?_arr ((starts_itemsText plain items).append _), items?_itemsText first items
            (fun item there => ⟨each item there, ih item there⟩) (by omega)]
          rfl
  | @obj members each sorted ih =>
      intro fuel rest _ enough
      obtain ⟨fuel, rfl⟩ := (Plain.obj each sorted).exists_fuel enough
      rw [toList_render_obj, List.length_cons, List.length_append] at enough
      rw [toList_render_obj, List.cons_append, List.append_assoc, List.singleton_append]
      cases members with
      | nil => rfl
      | cons first members =>
          rw [value?_obj ((starts_membersText first members).append _), members?_membersText first
            members (fun member there => ⟨each member there, ih member there⟩) (by omega),
            Option.bind_some, sorted.ofMembers_eq]

/-- The text of a plain value is read as the value. -/
theorem Plain.parse?_render {json : Json} (plain : Plain json) : parse? json.render = some json := by
  have follows : Follows [] := by
    rintro c ⟨⟩
  have read := plain.reads (2 * json.render.toList.length + 2) [] follows (by omega)
  rw [List.append_nil] at read
  simp only [parse?, skipBlanks_of_starts plain.starts, read]
  rfl

end FieldCrypt.Json
