/-
JSON values, and reading them (the JSON library, part 2).

`Value.write` writes a value without blanks, in the order of its members, and
`parse` reads every text of the JSON grammar: blanks, all escapes, numbers with
fractions and exponents.  A number is read as it is written, as a `Decimal`.

* `parse_write` — what is written is read back;
* `write_injective` — so different values are written differently;
* `Value.noControl_write` — on one line, without control characters;
* `parse_dumps` — an array of texts is read back with blanks as well.
-/
import ShellgeiOnlineJudge.Json

namespace Json

open Utf8

/-- `mantissa * 10 ^ exponent` -/
structure Decimal where
  mantissa : ℤ
  exponent : ℤ
  deriving DecidableEq

/-- A JSON value; an object keeps the order of its members. -/
inductive Value
  | null
  | bool (b : Bool)
  | number (n : Decimal)
  | string (text : Text)
  | array (items : List Value)
  | object (members : List (Text × Value))

/-- An integer. -/
abbrev Value.int (n : ℤ) : Value := .number ⟨n, 0⟩

/-! ### Writing -/

/-- The literal of a number, with an exponent where it is not zero. -/
def Decimal.write (d : Decimal) : Text :=
  if d.exponent = 0 then Json.int d.mantissa
  else Json.int d.mantissa ++ 'e' :: Json.int d.exponent

/-- The text of an array whose items are written already. -/
def array (items : List Text) : Text := '[' :: ([','].intercalate items ++ [']'])

mutual

/-- The text of a value, without blanks. -/
def Value.write : Value → Text
  | .null => Json.null
  | .bool b => Json.bool b
  | .number d => d.write
  | .string text => Json.string text
  | .array items => Json.array (writeItems items)
  | .object members => Json.object (writeMembers members)
termination_by structural v => v

/-- The texts of the items. -/
def writeItems : List Value → List Text
  | [] => []
  | v :: rest => v.write :: writeItems rest
termination_by structural l => l

/-- The members with the texts of their values. -/
def writeMembers : List (Text × Value) → List (Text × Text)
  | [] => []
  | m :: rest => writeMember m :: writeMembers rest
termination_by structural l => l

/-- A member with the text of its value. -/
def writeMember : Text × Value → Text × Text
  | (key, v) => (key, v.write)
termination_by structural m => m

end

/-! ### Reading -/

/-- The four characters that may stand between tokens. -/
def isBlank (c : Char) : Bool := c = ' ' || c = '\n' || c = '\r' || c = '\t'

/-- The text after the blanks before a token. -/
def skip (text : Text) : Text := text.dropWhile isBlank

/-- The value of a hexadecimal digit. -/
def hexValue (c : Char) : Option ℕ :=
  if '0' ≤ c ∧ c ≤ '9' then some (c.toNat - 0x30)
  else if 'a' ≤ c ∧ c ≤ 'f' then some (c.toNat - 0x57)
  else if 'A' ≤ c ∧ c ≤ 'F' then some (c.toNat - 0x37)
  else none

/-- The number of four hexadecimal digits. -/
def hex4 : Text → Option (ℕ × Text)
  | a :: b :: c :: d :: rest => do
    let a ← hexValue a
    let b ← hexValue b
    let c ← hexValue c
    let d ← hexValue d
    return (((a * 16 + b) * 16 + c) * 16 + d, rest)
  | _ => none

/-- What follows `\u`: a code unit, or two that are one character.  A surrogate
without its other half is refused. -/
def unicodeEscape (text : Text) : Option (Char × Text) := do
  let (unit, rest) ← hex4 text
  if 0xD800 ≤ unit ∧ unit < 0xDC00 then
    match rest with
    | '\\' :: 'u' :: rest =>
      let (low, rest) ← hex4 rest
      if 0xDC00 ≤ low ∧ low < 0xE000 then
        return (Char.ofNat (0x10000 + (unit - 0xD800) * 0x400 + (low - 0xDC00)), rest)
      else none
    | _ => none
  else if 0xDC00 ≤ unit ∧ unit < 0xE000 then none
  else return (Char.ofNat unit, rest)

/-- The character of an escape of one letter. -/
def simpleEscape (c : Char) : Option Char :=
  if c = quote ∨ c = '\\' ∨ c = '/' then some c
  else if c = 'b' then some (Char.ofNat 8)
  else if c = 'f' then some (Char.ofNat 12)
  else if c = 'n' then some '\n'
  else if c = 'r' then some '\r'
  else if c = 't' then some '\t'
  else none

/-- The character that starts a text between quotes. -/
def parseChar : Text → Option (Char × Text)
  | [] => none
  | c :: rest =>
    if c = '\\' then
      match rest with
      | [] => none
      | e :: rest => if e = 'u' then unicodeEscape rest else (simpleEscape e).map (·, rest)
    else if c.toNat < 0x20 then none
    else some (c, rest)

/-- The rest of a string, behind its opening quote. -/
def parseChars : ℕ → Text → Option (Text × Text)
  | 0, _ => none
  | fuel + 1, text =>
    match text with
    | [] => none
    | c :: rest =>
      if c = quote then some ([], rest)
      else do
        let (d, rest) ← parseChar text
        let (chars, rest) ← parseChars fuel rest
        return (d :: chars, rest)

/-- At least one digit. -/
def parseDigits (text : Text) : Option (Text × Text) :=
  let digits := text.takeWhile Char.isDigit
  if digits = [] then none else some (digits, text.dropWhile Char.isDigit)

/-- A minus sign or nothing. -/
def parseSign : Text → ℤ × Text
  | '-' :: rest => (-1, rest)
  | text => (1, text)

/-- The sign of an exponent may be a plus. -/
def parseExponentSign : Text → ℤ × Text
  | '+' :: rest => (1, rest)
  | text => parseSign text

/-- A point with digits or nothing. -/
def parseFraction : Text → Option (Text × Text)
  | '.' :: rest => parseDigits rest
  | text => some ([], text)

/-- An exponent or nothing. -/
def parseExponent : Text → Option (ℤ × Text)
  | [] => some (0, [])
  | c :: rest =>
    if c = 'e' ∨ c = 'E' then do
      let (sign, rest) := parseExponentSign rest
      let (digits, rest) ← parseDigits rest
      return (sign * Nat.ofDigitChars 10 digits 0, rest)
    else some (0, c :: rest)

/-- A number without a superfluous zero before it. -/
def parseNumber (text : Text) : Option (Decimal × Text) := do
  let (sign, rest) := parseSign text
  let (whole, rest) ← parseDigits rest
  if whole.head? = some '0' ∧ whole ≠ ['0'] then none
  else
    let (fraction, rest) ← parseFraction rest
    let (exponent, rest) ← parseExponent rest
    return (⟨sign * Nat.ofDigitChars 10 (whole ++ fraction) 0, exponent - fraction.length⟩, rest)

/-- One of the three names, or a number. -/
def parseScalar (text : Text) : Option (Value × Text) :=
  match text with
  | 'n' :: 'u' :: 'l' :: 'l' :: rest => some (.null, rest)
  | 't' :: 'r' :: 'u' :: 'e' :: rest => some (.bool true, rest)
  | 'f' :: 'a' :: 'l' :: 's' :: 'e' :: rest => some (.bool false, rest)
  | text => (parseNumber text).map fun r => (.number r.1, r.2)

/-- The key of a member and its colon. -/
def parseKey (text : Text) : Option (Text × Text) :=
  match skip text with
  | [] => none
  | c :: rest =>
    if c = quote then do
      let (key, rest) ← parseChars (rest.length + 1) rest
      match skip rest with
      | ':' :: rest => return (key, rest)
      | _ => none
    else none

mutual

/-- A value; every step into it takes one of the fuel. -/
def parseValue : ℕ → Text → Option (Value × Text)
  | 0, _ => none
  | fuel + 1, text =>
    match skip text with
    | [] => none
    | c :: rest =>
      if c = quote then
        (parseChars (rest.length + 1) rest).map fun r => (.string r.1, r.2)
      else if c = '[' then
        match skip rest with
        | ']' :: rest => some (.array [], rest)
        | rest => (parseItems fuel rest).map fun r => (.array r.1, r.2)
      else if c = '\x7b' then
        match skip rest with
        | '\x7d' :: rest => some (.object [], rest)
        | rest => (parseMembers fuel rest).map fun r => (.object r.1, r.2)
      else parseScalar (c :: rest)
termination_by structural n => n

/-- The items of an array, to its end. -/
def parseItems : ℕ → Text → Option (List Value × Text)
  | 0, _ => none
  | fuel + 1, text => do
    let (v, rest) ← parseValue fuel text
    match skip rest with
    | ',' :: rest => (parseItems fuel rest).map fun r => (v :: r.1, r.2)
    | ']' :: rest => return ([v], rest)
    | _ => none
termination_by structural n => n

/-- The members of an object, to its end. -/
def parseMembers : ℕ → Text → Option (List (Text × Value) × Text)
  | 0, _ => none
  | fuel + 1, text => do
    let (key, rest) ← parseKey text
    let (v, rest) ← parseValue fuel rest
    match skip rest with
    | ',' :: rest => (parseMembers fuel rest).map fun r => ((key, v) :: r.1, r.2)
    | '\x7d' :: rest => return ([(key, v)], rest)
    | _ => none
termination_by structural n => n

end

/-- The value that a text is. -/
def parse (text : Text) : Option Value := do
  let (v, rest) ← parseValue (text.length + 1) text
  if skip rest = [] then some v else none

/-! ### Strings -/

/-- A character that is written inside a string is read back. -/
theorem parseChar_escape (c : Char) (text : Text) :
    parseChar (escape c ++ text) = some (c, text) := by
  -- every other character is read as it is
  have hcontrol : ∀ {d : Char}, ¬ d.toNat < 0x20 → d ≠ '\\' →
      parseChar (d :: text) = some (d, text) := by
    intro d hd hback
    rw [parseChar.eq_def]
    show (if d = '\\' then _ else if d.toNat < 0x20 then none else some (d, text)) = _
    rw [if_neg hback, if_neg hd]
  unfold escape
  split_ifs with h1 h2 h3 h4 h5 h6 h7 h8
  · subst h1
    rfl
  · subst h2
    rfl
  · subst h3
    rfl
  · subst h4
    rfl
  · subst h5
    rfl
  · have hc : Char.ofNat 8 = c := by rw [← h6, Char.ofNat_toNat]
    subst hc
    rfl
  · have hc : Char.ofNat 12 = c := by rw [← h7, Char.ofNat_toNat]
    subst hc
    rfl
  · -- a control character is written by its code
    have hhex : ∀ n < 16, hexValue (Nat.digitChar n) = some n := by decide
    have hhigh := hhex (c.toNat / 16) (by omega)
    have hlow := hhex (c.toNat % 16) (by omega)
    have hzero : hexValue '0' = some 0 := by decide
    have hcode : ((0 * 16 + 0) * 16 + c.toNat / 16) * 16 + c.toNat % 16 = c.toNat := by omega
    have hunit : hex4 ('0' :: '0' :: Nat.digitChar (c.toNat / 16) :: Nat.digitChar (c.toNat % 16) ::
        text) = some (c.toNat, text) := by
      rw [hex4, hzero, hhigh, hlow]
      show some (((0 * 16 + 0) * 16 + c.toNat / 16) * 16 + c.toNat % 16, text) = _
      rw [hcode]
    show unicodeEscape ('0' :: '0' :: Nat.digitChar (c.toNat / 16) ::
      Nat.digitChar (c.toNat % 16) :: text) = _
    rw [unicodeEscape, hunit]
    show (if 0xD800 ≤ c.toNat ∧ c.toNat < 0xDC00 then _
      else if 0xDC00 ≤ c.toNat ∧ c.toNat < 0xE000 then none
      else some (Char.ofNat c.toNat, text)) = _
    rw [if_neg (by omega), if_neg (by omega), Char.ofNat_toNat]
  · exact hcontrol h8 h2

theorem escape_head (c : Char) : ∃ d rest, escape c = d :: rest ∧ d ≠ quote := by
  have hback : '\\' ≠ quote := by decide
  unfold escape
  split_ifs with h1 h2 h3 h4 h5 h6 h7 h8
  · exact ⟨_, _, rfl, hback⟩
  · exact ⟨_, _, rfl, hback⟩
  · exact ⟨_, _, rfl, hback⟩
  · exact ⟨_, _, rfl, hback⟩
  · exact ⟨_, _, rfl, hback⟩
  · exact ⟨_, _, rfl, hback⟩
  · exact ⟨_, _, rfl, hback⟩
  · exact ⟨_, _, rfl, hback⟩
  · exact ⟨_, _, rfl, h1⟩

theorem parseChars_flatMap (value rest : Text) (fuel : ℕ) (hfuel : value.length < fuel) :
    parseChars fuel (value.flatMap escape ++ quote :: rest) = some (value, rest) := by
  induction value generalizing fuel with
  | nil =>
    obtain ⟨fuel, rfl⟩ : ∃ n, fuel = n + 1 := ⟨fuel - 1, by simp at hfuel; omega⟩
    rw [List.flatMap_nil, List.nil_append, parseChars, if_pos rfl]
  | cons c value ih =>
    rw [List.length_cons] at hfuel
    obtain ⟨fuel, rfl⟩ : ∃ n, fuel = n + 1 := ⟨fuel - 1, by omega⟩
    obtain ⟨d, tail, hhead, hd⟩ := escape_head c
    have hchar := parseChar_escape c (value.flatMap escape ++ quote :: rest)
    rw [List.flatMap_cons, List.append_assoc]
    rw [hhead, List.cons_append] at hchar ⊢
    rw [parseChars, if_neg hd, hchar]
    show (do
      let (chars, rest) ← parseChars fuel (value.flatMap escape ++ quote :: rest)
      return (c :: chars, rest)) = _
    rw [ih fuel (by omega)]
    rfl

theorem length_le_flatMap (value : Text) : value.length ≤ (value.flatMap escape).length := by
  induction value with
  | nil => exact Nat.le_refl 0
  | cons c value ih =>
    obtain ⟨d, tail, hhead, -⟩ := escape_head c
    rw [List.flatMap_cons, List.length_append, hhead, List.length_cons, List.length_cons]
    omega

/-- A string, behind its opening quote. -/
theorem parseChars_string (value rest : Text) :
    let text := value.flatMap escape ++ quote :: rest
    parseChars (text.length + 1) text = some (value, rest) := by
  refine parseChars_flatMap value rest _ ?_
  have := length_le_flatMap value
  rw [List.length_append]
  omega

/-! ### Numbers -/

/-- The text does not go on with a character of `p`. -/
def Stops (p : Char → Bool) (text : Text) : Prop := ∀ c, text.head? = some c → p c = false

theorem takeWhile_of_stops {p : Char → Bool} {front rest : Text} (hfront : ∀ c ∈ front, p c = true)
    (hrest : Stops p rest) :
    (front ++ rest).takeWhile p = front ∧ (front ++ rest).dropWhile p = rest := by
  have hstop : rest.takeWhile p = [] ∧ rest.dropWhile p = rest := by
    cases rest with
    | nil => exact ⟨rfl, rfl⟩
    | cons c rest =>
      have hc := hrest c rfl
      exact ⟨List.takeWhile_cons_of_neg (by simp [hc]), List.dropWhile_cons_of_neg (by simp [hc])⟩
  rw [List.takeWhile_append_of_pos hfront, List.dropWhile_append_of_pos hfront, hstop.1, hstop.2,
    List.append_nil]
  exact ⟨rfl, rfl⟩

theorem parseDigits_append {front rest : Text} (hne : front ≠ [])
    (hfront : ∀ c ∈ front, c.isDigit = true) (hrest : Stops Char.isDigit rest) :
    parseDigits (front ++ rest) = some (front, rest) := by
  obtain ⟨htake, hdrop⟩ := takeWhile_of_stops hfront hrest
  rw [parseDigits, htake, hdrop, if_neg hne]

theorem isDigit_of_mem_digits {n : ℤ} {c : Char} (hc : c ∈ digits n) : c.isDigit = true :=
  Nat.isDigit_of_mem_toDigits (by decide) (by decide) hc

/-- Only zero starts with a zero. -/
theorem toDigits_head (n : ℕ) (h : (Nat.toDigits 10 n).head? = some '0') : n = 0 := by
  induction n using Nat.strongRecOn with
  | ind n ih =>
    by_cases hlt : n < 10
    · have hzero : ∀ k < 10, k.digitChar = '0' → k = 0 := by decide
      rw [Nat.toDigits_of_lt_base hlt] at h
      exact hzero n hlt (Option.some.inj h)
    · rw [Nat.toDigits_of_base_le (by decide) (by omega),
        List.head?_append_of_ne_nil _ Nat.toDigits_ne_nil] at h
      have := ih (n / 10) (by omega) h
      omega

theorem digits_head {n : ℤ} (h : (digits n).head? = some '0') : digits n = ['0'] := by
  have hzero := toDigits_head n.natAbs h
  rw [digits, hzero]
  exact Nat.toDigits_zero 10

theorem parseSign_int (n : ℤ) (rest : Text) :
    ∃ sign : ℤ, parseSign (int n ++ rest) = (sign, digits n ++ rest) ∧ sign * n.natAbs = n := by
  by_cases hn : n < 0
  · refine ⟨-1, ?_, by omega⟩
    rw [int, if_pos hn]
    rfl
  · refine ⟨1, ?_, by omega⟩
    rw [int, if_neg hn]
    have hne : ∀ tail, digits n ++ rest ≠ '-' :: tail := by
      intro tail heq
      cases hd : digits n with
      | nil => exact Nat.toDigits_ne_nil hd
      | cons c front =>
        have hc : c.isDigit = true :=
          isDigit_of_mem_digits (n := n) (by rw [hd]; exact List.mem_cons_self)
        rw [hd, List.cons_append] at heq
        obtain ⟨rfl, -⟩ := List.cons.inj heq
        exact absurd hc (by decide)
    rw [parseSign]
    intro tail heq
    exact hne tail heq

theorem ofDigitChars_digits (n : ℤ) : Nat.ofDigitChars 10 (digits n) 0 = n.natAbs :=
  Nat.ofDigitChars_ten_toDigits

/-- The characters that may go on a number. -/
def isNumberChar (c : Char) : Bool := c.isDigit || c = '.' || c = 'e' || c = 'E'

theorem parseFraction_of_stops {rest : Text} (h : ∀ c, rest.head? = some c → c ≠ '.') :
    parseFraction rest = some ([], rest) := by
  rw [parseFraction]
  intro tail heq
  subst heq
  exact h '.' rfl rfl

theorem parseExponent_of_stops {rest : Text} (h : Stops isNumberChar rest) :
    parseExponent rest = some (0, rest) := by
  cases rest with
  | nil => rfl
  | cons c rest =>
    have hc := h c rfl
    rw [parseExponent, if_neg]
    rintro (rfl | rfl)
    · exact absurd hc (by decide)
    · exact absurd hc (by decide)

theorem stops_isDigit {rest : Text} (h : Stops isNumberChar rest) : Stops Char.isDigit rest := by
  intro c hc
  have hnot := h c hc
  rw [isNumberChar, Bool.or_assoc, Bool.or_assoc, Bool.or_eq_false_iff] at hnot
  exact hnot.1

theorem parseExponent_int (n : ℤ) {rest : Text} (h : Stops isNumberChar rest) :
    parseExponent ('e' :: (int n ++ rest)) = some (n, rest) := by
  obtain ⟨sign, hsign, hvalue⟩ := parseSign_int n rest
  have hplus : ∀ tail, int n ++ rest ≠ '+' :: tail := by
    intro tail heq
    rw [heq] at hsign
    -- a plus is neither the sign of an integer nor one of its digits
    have hdigits : '+' :: tail = digits n ++ rest := (Prod.mk.inj hsign).2
    cases hd : digits n with
    | nil => exact Nat.toDigits_ne_nil hd
    | cons c front =>
      have hc : c.isDigit = true :=
        isDigit_of_mem_digits (n := n) (by rw [hd]; exact List.mem_cons_self)
      rw [hd, List.cons_append] at hdigits
      obtain ⟨rfl, -⟩ := List.cons.inj hdigits
      exact absurd hc (by decide)
  have hparse : parseDigits (digits n ++ rest) = some (digits n, rest) :=
    parseDigits_append Nat.toDigits_ne_nil (fun c hc => isDigit_of_mem_digits hc) (stops_isDigit h)
  have hexponent : parseExponentSign (int n ++ rest) = (sign, digits n ++ rest) := by
    rw [parseExponentSign]
    · exact hsign
    · exact fun tail heq => hplus tail heq
  rw [parseExponent, if_pos (.inl rfl), hexponent]
  show (parseDigits (digits n ++ rest)).bind _ = _
  rw [hparse]
  show some (sign * (Nat.ofDigitChars 10 (digits n) 0 : ℤ), rest) = some (n, rest)
  rw [ofDigitChars_digits, hvalue]

theorem parseNumber_write (d : Decimal) {rest : Text} (h : Stops isNumberChar rest) :
    parseNumber (d.write ++ rest) = some (d, rest) := by
  obtain ⟨m, e⟩ := d
  -- what comes behind the digits of the mantissa
  obtain ⟨tail, htext, hdot, hstop, hexponent⟩ : ∃ tail,
      Decimal.write ⟨m, e⟩ ++ rest = int m ++ tail ∧ (∀ c, tail.head? = some c → c ≠ '.') ∧
        Stops Char.isDigit tail ∧ parseExponent tail = some (e, rest) := by
    by_cases he : e = 0
    · subst he
      refine ⟨rest, by rw [Decimal.write, if_pos rfl], ?_, stops_isDigit h,
        parseExponent_of_stops h⟩
      rintro c hc rfl
      exact absurd (h '.' hc) (by decide)
    · refine ⟨'e' :: (int e ++ rest), ?_, ?_, ?_, parseExponent_int e h⟩
      · rw [Decimal.write, if_neg he, List.append_assoc, List.cons_append]
      · intro c hc
        obtain rfl := Option.some.inj hc
        decide
      · intro c hc
        obtain rfl := Option.some.inj hc
        decide
  obtain ⟨sign, hsign, hvalue⟩ := parseSign_int m tail
  have hparse : parseDigits (digits m ++ tail) = some (digits m, tail) :=
    parseDigits_append Nat.toDigits_ne_nil (fun c hc => isDigit_of_mem_digits hc) hstop
  have hzero : ¬ ((digits m).head? = some '0' ∧ digits m ≠ ['0']) :=
    fun hc => hc.2 (digits_head hc.1)
  rw [htext, parseNumber, hsign]
  show ((parseDigits (digits m ++ tail)).bind _) = _
  rw [hparse]
  show (if (digits m).head? = some '0' ∧ digits m ≠ ['0'] then none
    else (parseFraction tail).bind _) = _
  rw [if_neg hzero, parseFraction_of_stops hdot]
  show (parseExponent tail).bind _ = _
  rw [hexponent]
  show some ((⟨sign * (Nat.ofDigitChars 10 (digits m ++ []) 0 : ℤ), e - (0 : ℕ)⟩ : Decimal),
    rest) = _
  rw [List.append_nil, ofDigitChars_digits, hvalue]
  show some ((⟨m, e - 0⟩ : Decimal), rest) = _
  rw [Int.sub_zero]

/-! ### Values -/

/-- What follows a value inside a text. -/
def Ends (rest : Text) : Prop :=
  ∀ c, rest.head? = some c → c = ',' ∨ c = ']' ∨ c = '\x7d'

theorem Ends.stops {rest : Text} (h : Ends rest) : Stops isNumberChar rest := by
  intro c hc
  rcases h c hc with rfl | rfl | rfl
  · decide
  · decide
  · decide

theorem ends_cons {c : Char} (rest : Text) (h : c = ',' ∨ c = ']' ∨ c = '\x7d') :
    Ends (c :: rest) := by
  intro d hd
  obtain rfl := Option.some.inj hd
  exact h

theorem skip_cons {c : Char} (rest : Text) (h : isBlank c = false) : skip (c :: rest) = c :: rest :=
  List.dropWhile_cons_of_neg (by simp [h])

/-- A written number starts with a sign or a digit. -/
theorem Decimal.write_head (d : Decimal) :
    ∃ c rest, d.write = c :: rest ∧ (c = '-' ∨ c.isDigit = true) := by
  have hint : ∀ n : ℤ, ∃ c rest, int n = c :: rest ∧ (c = '-' ∨ c.isDigit = true) := by
    intro n
    by_cases hn : n < 0
    · exact ⟨'-', digits n, by rw [int, if_pos hn], .inl rfl⟩
    · cases hd : digits n with
      | nil => exact absurd hd Nat.toDigits_ne_nil
      | cons c front =>
        refine ⟨c, front, by rw [int, if_neg hn, hd], .inr ?_⟩
        exact isDigit_of_mem_digits (n := n) (by rw [hd]; exact List.mem_cons_self)
  obtain ⟨c, rest, heq, hc⟩ := hint d.mantissa
  by_cases he : d.exponent = 0
  · exact ⟨c, rest, by rw [Decimal.write, if_pos he, heq], hc⟩
  · exact ⟨c, _, by rw [Decimal.write, if_neg he, heq, List.cons_append], hc⟩

/-- The characters that start no value. -/
theorem sign_or_digit {c : Char} (h : c = '-' ∨ c.isDigit = true) :
    isBlank c = false ∧ c ≠ ']' ∧ c ≠ '\x7d' ∧ c ≠ quote ∧ c ≠ '[' ∧ c ≠ '\x7b' ∧ c ≠ 'n' ∧
      c ≠ 't' ∧ c ≠ 'f' := by
  rcases h with rfl | h
  · decide
  · have hnot : ∀ d : Char, d.isDigit = false → c ≠ d := by
      rintro d hd rfl
      rw [h] at hd
      cases hd
    refine ⟨?_, hnot _ (by decide), hnot _ (by decide), hnot _ (by decide), hnot _ (by decide),
      hnot _ (by decide), hnot _ (by decide), hnot _ (by decide), hnot _ (by decide)⟩
    have h1 := hnot ' ' (by decide)
    have h2 := hnot '\n' (by decide)
    have h3 := hnot '\r' (by decide)
    have h4 := hnot '\t' (by decide)
    simp [isBlank, h1, h2, h3, h4]

theorem parseScalar_number (d : Decimal) {rest : Text} (h : Stops isNumberChar rest) :
    parseScalar (d.write ++ rest) = some (.number d, rest) := by
  have hparse := parseNumber_write d h
  obtain ⟨c, tail, heq, hc⟩ := d.write_head
  obtain ⟨-, -, -, -, -, -, hn, ht, hf⟩ := sign_or_digit hc
  rw [heq, List.cons_append] at hparse ⊢
  rw [parseScalar.eq_def]
  split
  next rest' heq => exact absurd (List.cons.inj heq).1 hn
  next rest' heq => exact absurd (List.cons.inj heq).1 ht
  next rest' heq => exact absurd (List.cons.inj heq).1 hf
  next =>
    rw [hparse]
    rfl

theorem Value.write_head (v : Value) :
    ∃ c rest, v.write = c :: rest ∧ isBlank c = false ∧ c ≠ ']' ∧ c ≠ '\x7d' := by
  cases v with
  | null => exact ⟨_, _, rfl, by decide, by decide, by decide⟩
  | bool b => cases b <;> exact ⟨_, _, rfl, by decide, by decide, by decide⟩
  | number d =>
    obtain ⟨c, rest, heq, hc⟩ := d.write_head
    obtain ⟨hblank, hbracket, hbrace, -⟩ := sign_or_digit hc
    exact ⟨c, rest, heq, hblank, hbracket, hbrace⟩
  | string text => exact ⟨_, _, rfl, by decide, by decide, by decide⟩
  | array items => exact ⟨_, _, rfl, by decide, by decide, by decide⟩
  | object members => exact ⟨_, _, rfl, by decide, by decide, by decide⟩

theorem parseKey_string (key rest : Text) :
    parseKey (string key ++ ':' :: rest) = some (key, rest) := by
  have htext : string key ++ ':' :: rest =
      quote :: (key.flatMap escape ++ quote :: ':' :: rest) := by
    rw [string, List.cons_append, List.append_assoc]
    rfl
  rw [htext, parseKey, skip_cons _ (by decide)]
  show (if quote = quote then (parseChars _ _).bind _ else none) = _
  rw [if_pos rfl, parseChars_string]
  rfl

/-- The items of an array, as they are written. -/
def itemsText (items : List Value) : Text := [','].intercalate (writeItems items)

/-- The members of an object, as they are written. -/
def membersText (members : List (Text × Value)) : Text :=
  [','].intercalate ((writeMembers members).map fun m => member m.1 m.2)

theorem itemsText_singleton (v : Value) : itemsText [v] = v.write := List.intercalate_singleton

theorem itemsText_cons (v w : Value) (items : List Value) :
    itemsText (v :: w :: items) = v.write ++ ',' :: itemsText (w :: items) := by
  rw [itemsText, itemsText, writeItems, writeItems, List.intercalate_cons_cons, List.append_assoc]
  rfl

theorem membersText_singleton (m : Text × Value) :
    membersText [m] = string m.1 ++ ':' :: m.2.write := by
  obtain ⟨key, v⟩ := m
  show [','].intercalate [member key v.write] = _
  rw [List.intercalate_singleton, member]

theorem membersText_cons (m k : Text × Value) (members : List (Text × Value)) :
    membersText (m :: k :: members) =
      string m.1 ++ ':' :: (m.2.write ++ ',' :: membersText (k :: members)) := by
  obtain ⟨key, v⟩ := m
  rw [membersText, membersText, writeMembers, writeMembers, List.map_cons, List.map_cons,
    List.intercalate_cons_cons]
  show member key v.write ++ [','] ++ _ = _
  simp only [member, List.append_assoc, List.cons_append, List.nil_append]

/-- What the parser makes of a written value, with enough fuel. -/
def Reads (fuel : ℕ) : Prop :=
  ∀ v rest, v.write.length ≤ fuel → Ends rest → parseValue fuel (v.write ++ rest) = some (v, rest)

theorem parseItems_write {fuel : ℕ} (hfuel : ∀ n < fuel, Reads n) (v : Value) (items : List Value)
    (rest : Text) (hlen : (itemsText (v :: items)).length < fuel) :
    parseItems fuel (itemsText (v :: items) ++ ']' :: rest) = some (v :: items, rest) := by
  induction items generalizing v fuel with
  | nil =>
    obtain ⟨fuel, rfl⟩ : ∃ n, fuel = n + 1 := ⟨fuel - 1, by omega⟩
    rw [itemsText_singleton] at hlen ⊢
    rw [parseItems, hfuel fuel (by omega) v _ (by omega) (ends_cons _ (.inr (.inl rfl)))]
    simp only [Option.bind_eq_bind, Option.bind_some]
    rw [skip_cons _ (by decide)]
    rfl
  | cons w items ih =>
    obtain ⟨fuel, rfl⟩ : ∃ n, fuel = n + 1 := ⟨fuel - 1, by omega⟩
    rw [itemsText_cons, List.length_append, List.length_cons] at hlen
    have htail := @ih fuel (fun n hn => hfuel n (by omega)) w (by omega)
    rw [itemsText_cons, List.append_assoc, List.cons_append, parseItems,
      hfuel fuel (by omega) v _ (by omega) (ends_cons _ (.inl rfl))]
    simp only [Option.bind_eq_bind, Option.bind_some]
    rw [skip_cons _ (by decide)]
    show (parseItems fuel (itemsText (w :: items) ++ ']' :: rest)).map _ = _
    rw [htail]
    rfl

theorem parseMembers_write {fuel : ℕ} (hfuel : ∀ n < fuel, Reads n) (m : Text × Value)
    (members : List (Text × Value)) (rest : Text)
    (hlen : (membersText (m :: members)).length < fuel) :
    parseMembers fuel (membersText (m :: members) ++ '\x7d' :: rest) =
      some (m :: members, rest) := by
  induction members generalizing m fuel with
  | nil =>
    obtain ⟨fuel, rfl⟩ : ∃ n, fuel = n + 1 := ⟨fuel - 1, by omega⟩
    rw [membersText_singleton, List.length_append, List.length_cons] at hlen
    rw [membersText_singleton, List.append_assoc, List.cons_append, parseMembers, parseKey_string]
    show (parseValue fuel (m.2.write ++ '\x7d' :: rest)).bind _ = _
    rw [hfuel fuel (by omega) m.2 _ (by omega) (ends_cons _ (.inr (.inr rfl)))]
    simp only [Option.bind_some]
    rw [skip_cons _ (by decide)]
    rfl
  -- one member, a comma, and the rest of the members
  | cons k members ih =>
    obtain ⟨fuel, rfl⟩ : ∃ n, fuel = n + 1 := ⟨fuel - 1, by omega⟩
    rw [membersText_cons, List.length_append, List.length_cons, List.length_append,
      List.length_cons] at hlen
    have htail := @ih fuel (fun n hn => hfuel n (by omega)) k (by omega)
    rw [membersText_cons, List.append_assoc, List.cons_append, List.append_assoc, List.cons_append,
      parseMembers, parseKey_string]
    show (parseValue fuel (m.2.write ++ ',' :: (membersText (k :: members) ++ '\x7d' :: rest))).bind
      _ = _
    rw [hfuel fuel (by omega) m.2 _ (by omega) (ends_cons _ (.inl rfl))]
    simp only [Option.bind_some]
    rw [skip_cons _ (by decide)]
    show (parseMembers fuel (membersText (k :: members) ++ '\x7d' :: rest)).map _ = _
    rw [htail]
    rfl

/-- A text that goes on with a value or a key does not go on with a bracket. -/
theorem itemsText_head (v : Value) (items : List Value) :
    ∃ c rest, itemsText (v :: items) = c :: rest ∧ isBlank c = false ∧ c ≠ ']' := by
  obtain ⟨c, rest, heq, hblank, hbracket, -⟩ := v.write_head
  cases items with
  | nil => exact ⟨c, rest, by rw [itemsText_singleton, heq], hblank, hbracket⟩
  | cons w items => exact ⟨c, _, by rw [itemsText_cons, heq, List.cons_append], hblank, hbracket⟩

theorem membersText_head (m : Text × Value) (members : List (Text × Value)) :
    ∃ rest, membersText (m :: members) = quote :: rest := by
  cases members with
  | nil => exact ⟨_, by rw [membersText_singleton, string, List.cons_append]⟩
  | cons k members => exact ⟨_, by rw [membersText_cons, string, List.cons_append]⟩

theorem skip_write (v : Value) (rest : Text) : skip (v.write ++ rest) = v.write ++ rest := by
  obtain ⟨c, tail, hhead, hblank, -⟩ := v.write_head
  rw [hhead, List.cons_append, skip_cons _ hblank]

/-- A value that does not start like a string, an array or an object. -/
theorem parseValue_scalar {v : Value} {rest : Text} {fuel : ℕ} {c : Char} {tail : Text}
    (hhead : v.write = c :: tail) (hquote : c ≠ quote) (hbracket : c ≠ '[') (hbrace : c ≠ '\x7b')
    (hparse : parseScalar (v.write ++ rest) = some (v, rest)) :
    parseValue (fuel + 1) (v.write ++ rest) = some (v, rest) := by
  rw [parseValue, skip_write]
  rw [hhead, List.cons_append] at hparse ⊢
  show (if c = quote then _ else if c = '[' then _ else if c = '\x7b' then _
    else parseScalar (c :: (tail ++ rest))) = _
  rw [if_neg hquote, if_neg hbracket, if_neg hbrace, hparse]

theorem parseValue_string {text rest : Text} {fuel : ℕ} :
    parseValue (fuel + 1) ((Value.string text).write ++ rest) = some (.string text, rest) := by
  have htext : (Value.string text).write ++ rest =
      quote :: (text.flatMap escape ++ quote :: rest) := by
    show string text ++ rest = _
    rw [string, List.cons_append, List.append_assoc]
    rfl
  rw [parseValue, skip_write, htext]
  show (if quote = quote then (parseChars _ _).map _ else _) = _
  rw [if_pos rfl, parseChars_string]
  rfl

section Steps

variable {fuel : ℕ} {c : Char} {key text tail rest after : Text} {v : Value}

theorem parseValue_noItems (h : skip text = ']' :: rest) :
    parseValue (fuel + 1) ('[' :: text) = some (.array [], rest) := by
  rw [parseValue, skip_cons _ (by decide)]
  show (match skip text with
    | ']' :: rest => some (Value.array [], rest)
    | rest => (parseItems fuel rest).map
      fun r : List Value × Text => (Value.array r.1, r.2)) = _
  rw [h]
  rfl

theorem parseValue_items (h : skip text = c :: tail) (hc : c ≠ ']') :
    parseValue (fuel + 1) ('[' :: text) =
      (parseItems fuel (skip text)).map fun r => (.array r.1, r.2) := by
  rw [parseValue, skip_cons _ (by decide)]
  show (match skip text with
    | ']' :: rest => some (Value.array [], rest)
    | rest => (parseItems fuel rest).map
      fun r : List Value × Text => (Value.array r.1, r.2)) = _
  rw [h]
  split
  next rest' heq => exact absurd (List.cons.inj heq).1 hc
  next => rfl

theorem parseValue_noMembers (h : skip text = '\x7d' :: rest) :
    parseValue (fuel + 1) ('\x7b' :: text) = some (.object [], rest) := by
  rw [parseValue, skip_cons _ (by decide)]
  show (match skip text with
    | '\x7d' :: rest => some (Value.object [], rest)
    | rest => (parseMembers fuel rest).map
      fun r : List (Text × Value) × Text => (Value.object r.1, r.2)) = _
  rw [h]
  rfl

theorem parseValue_members (h : skip text = c :: tail) (hc : c ≠ '\x7d') :
    parseValue (fuel + 1) ('\x7b' :: text) =
      (parseMembers fuel (skip text)).map fun r => (.object r.1, r.2) := by
  rw [parseValue, skip_cons _ (by decide)]
  show (match skip text with
    | '\x7d' :: rest => some (Value.object [], rest)
    | rest => (parseMembers fuel rest).map
      fun r : List (Text × Value) × Text => (Value.object r.1, r.2)) = _
  rw [h]
  split
  next rest' heq => exact absurd (List.cons.inj heq).1 hc
  next => rfl

theorem parseMembers_none (hkey : parseKey text = some (key, tail))
    (hvalue : parseValue fuel tail = none) : parseMembers (fuel + 1) text = none := by
  rw [parseMembers, hkey]
  show (parseValue fuel tail).bind _ = _
  rw [hvalue]
  rfl

theorem parseMembers_last (hkey : parseKey text = some (key, tail))
    (hvalue : parseValue fuel tail = some (v, rest)) (h : skip rest = '\x7d' :: after) :
    parseMembers (fuel + 1) text = some ([(key, v)], after) := by
  rw [parseMembers, hkey]
  show (parseValue fuel tail).bind _ = _
  rw [hvalue]
  simp only [Option.bind_some, h]
  rfl

theorem parseMembers_next (hkey : parseKey text = some (key, tail))
    (hvalue : parseValue fuel tail = some (v, rest)) (h : skip rest = ',' :: after) :
    parseMembers (fuel + 1) text =
      (parseMembers fuel after).map fun r => ((key, v) :: r.1, r.2) := by
  rw [parseMembers, hkey]
  show (parseValue fuel tail).bind _ = _
  rw [hvalue]
  simp only [Option.bind_some, h]

end Steps

/-- An array, when the fuel is enough for its items. -/
theorem parseValue_array {fuel : ℕ} (hfuel : ∀ n < fuel, Reads n) {items : List Value}
    {rest : Text} (hlen : (Value.array items).write.length ≤ fuel + 1) :
    parseValue (fuel + 1) ((Value.array items).write ++ rest) = some (.array items, rest) := by
  have htext : (Value.array items).write ++ rest = '[' :: (itemsText items ++ ']' :: rest) := by
    show array (writeItems items) ++ rest = _
    rw [array, List.cons_append, List.append_assoc]
    rfl
  have hlen : (itemsText items).length + 2 ≤ fuel + 1 := by
    have hlen : (array (writeItems items)).length ≤ fuel + 1 := hlen
    rwa [array, List.length_cons, List.length_append] at hlen
  rw [parseValue, skip_write, htext]
  show (match skip (itemsText items ++ ']' :: rest) with
    | ']' :: rest => some (Value.array [], rest)
    | rest => (parseItems fuel rest).map
      fun r : List Value × Text => (Value.array r.1, r.2)) = _
  cases items with
  | nil => rfl
  | cons v items =>
    -- the first item does not start with the bracket that closes an empty array
    obtain ⟨c, tail, heq, hblank, hbracket⟩ := itemsText_head v items
    have hitems := parseItems_write hfuel v items rest
      (show (itemsText (v :: items)).length < fuel by omega)
    rw [heq, List.cons_append] at hitems ⊢
    rw [skip_cons _ hblank]
    split
    next rest' heq' => exact absurd (List.cons.inj heq').1 hbracket
    next =>
      rw [hitems]
      rfl

/-- An object, when the fuel is enough for its members. -/
theorem parseValue_object {fuel : ℕ} (hfuel : ∀ n < fuel, Reads n)
    {members : List (Text × Value)} {rest : Text}
    (hlen : (Value.object members).write.length ≤ fuel + 1) :
    parseValue (fuel + 1) ((Value.object members).write ++ rest) =
      some (.object members, rest) := by
  have htext : (Value.object members).write ++ rest =
      '\x7b' :: (membersText members ++ '\x7d' :: rest) := by
    show object (writeMembers members) ++ rest = _
    rw [object, List.cons_append, List.append_assoc]
    rfl
  have hlen : (membersText members).length + 2 ≤ fuel + 1 := by
    have hlen : (object (writeMembers members)).length ≤ fuel + 1 := hlen
    rwa [object, List.length_cons, List.length_append] at hlen
  rw [parseValue, skip_write, htext]
  show (match skip (membersText members ++ '\x7d' :: rest) with
    | '\x7d' :: rest => some (Value.object [], rest)
    | rest => (parseMembers fuel rest).map
      fun r : List (Text × Value) × Text => (Value.object r.1, r.2)) = _
  cases members with
  | nil => rfl
  | cons m members =>
    -- the first key starts with a quote
    obtain ⟨tail, heq⟩ := membersText_head m members
    have hmembers := parseMembers_write hfuel m members rest
      (show (membersText (m :: members)).length < fuel by omega)
    rw [heq, List.cons_append] at hmembers ⊢
    rw [skip_cons _ (by decide)]
    split
    next rest' heq' => exact absurd (List.cons.inj heq').1 (by decide)
    next =>
      rw [hmembers]
      rfl

theorem reads (fuel : ℕ) : Reads fuel := by
  induction fuel using Nat.strongRecOn with
  | ind fuel ih =>
    intro v rest hlen hrest
    -- a value has a first character, so there is fuel for it
    obtain ⟨c, tail, hhead, -, -⟩ := v.write_head
    obtain ⟨fuel, rfl⟩ : ∃ n, fuel = n + 1 := ⟨fuel - 1, by
      rw [hhead, List.length_cons] at hlen
      omega⟩
    have hfuel : ∀ n < fuel, Reads n := fun n hn => ih n (by omega)
    cases v with
    | null => exact parseValue_scalar rfl (by decide) (by decide) (by decide) rfl
    | bool b =>
      cases b with
      | true => exact parseValue_scalar rfl (by decide) (by decide) (by decide) rfl
      | false => exact parseValue_scalar rfl (by decide) (by decide) (by decide) rfl
    | number d =>
      obtain ⟨c, tail, heq, hc⟩ := d.write_head
      obtain ⟨-, -, -, hquote, hbracket, hbrace, -⟩ := sign_or_digit hc
      exact parseValue_scalar heq hquote hbracket hbrace (parseScalar_number d hrest.stops)
    | string text => exact parseValue_string
    | array items => exact parseValue_array hfuel hlen
    | object members => exact parseValue_object hfuel hlen

/-- **What is written is read back.** -/
theorem parse_write (v : Value) : parse v.write = some v := by
  have hread := reads (v.write.length + 1) v [] (by omega) (by
    intro c hc
    cases hc)
  rw [List.append_nil] at hread
  rw [parse, hread]
  rfl

theorem write_injective {v w : Value} (h : v.write = w.write) : v = w := by
  have hv := parse_write v
  rw [h, parse_write] at hv
  exact (Option.some.inj hv).symm

/-! ### Control characters -/

/-- No control characters are in the text. -/
def NoControl (text : Text) : Prop := ∀ c ∈ text, 0x20 ≤ c.toNat

instance (text : Text) : Decidable (NoControl text) :=
  List.decidableBAll (fun c : Char => 0x20 ≤ c.toNat) text

theorem NoControl.append {a b : Text} (ha : NoControl a) (hb : NoControl b) : NoControl (a ++ b) :=
  List.forall_mem_append.2 ⟨ha, hb⟩

theorem NoControl.cons {c : Char} {text : Text} (hc : 0x20 ≤ c.toNat) (h : NoControl text) :
    NoControl (c :: text) :=
  List.forall_mem_cons.2 ⟨hc, h⟩

theorem noControl_escape (c : Char) : NoControl (escape c) := by
  have hhex : ∀ n : ℕ, n < 16 → 0x20 ≤ (Nat.digitChar n).toNat := by decide
  unfold escape
  split_ifs with hquote hback hline hreturn htab hbackspace hfeed hcontrol
  · decide
  · decide
  · decide
  · decide
  · decide
  · decide
  · decide
  · -- two of the characters are hexadecimal digits
    have hhigh := hhex (c.toNat / 16) (by omega)
    have hlow := hhex (c.toNat % 16) (by omega)
    simp only [NoControl, List.forall_mem_cons, List.not_mem_nil, false_implies, implies_true,
      and_true]
    exact ⟨by decide, by decide, by decide, by decide, hhigh, hlow⟩
  · intro d hd
    rw [List.mem_singleton] at hd
    rw [hd]
    omega

theorem noControl_string (text : Text) : NoControl (string text) := by
  refine NoControl.cons (by decide) (NoControl.append ?_ (NoControl.cons (by decide) ?_))
  · intro c hc
    obtain ⟨d, -, hd⟩ := List.mem_flatMap.1 hc
    exact noControl_escape d c hd
  · intro c hc
    cases hc

theorem noControl_int (n : ℤ) : NoControl (int n) := by
  have hdigits : NoControl (digits n) := by
    intro c hc
    have hdigit := isDigit_of_mem_digits hc
    simp only [Char.isDigit, Bool.and_eq_true, decide_eq_true_eq] at hdigit
    have hle : 48 ≤ c.val.toNat := hdigit.1
    show 0x20 ≤ c.val.toNat
    omega
  rw [int]
  split
  · exact NoControl.cons (by decide) hdigits
  · exact hdigits

theorem Decimal.noControl_write (d : Decimal) : NoControl d.write := by
  rw [write]
  split
  · exact noControl_int _
  · exact NoControl.append (noControl_int _) (NoControl.cons (by decide) (noControl_int _))

theorem noControl_intercalate {parts : List Text} (h : ∀ part ∈ parts, NoControl part) :
    NoControl ([','].intercalate parts) := by
  induction parts with
  | nil =>
    intro c hc
    cases hc
  | cons part rest ih =>
    obtain ⟨hpart, hrest⟩ := List.forall_mem_cons.1 h
    cases rest with
    | nil =>
      rw [List.intercalate_singleton]
      exact hpart
    | cons next rest =>
      rw [List.intercalate_cons_cons, List.append_assoc]
      exact hpart.append (NoControl.cons (by decide) (ih hrest))

theorem noControl_array {items : List Text} (h : ∀ item ∈ items, NoControl item) :
    NoControl (array items) :=
  NoControl.cons (by decide) ((noControl_intercalate h).append (by decide))

theorem noControl_object {members : List (Text × Text)}
    (h : ∀ m ∈ members, NoControl m.2) : NoControl (object members) := by
  refine NoControl.cons (by decide) (NoControl.append (noControl_intercalate ?_) (by decide))
  intro part hpart
  obtain ⟨m, hm, rfl⟩ := List.mem_map.1 hpart
  exact (noControl_string m.1).append (NoControl.cons (by decide) (h m hm))

mutual

/-- What is written has no control characters. -/
theorem Value.noControl_write : (v : Value) → NoControl v.write
  | .null => by decide
  | .bool true => by decide
  | .bool false => by decide
  | .number d => d.noControl_write
  | .string text => noControl_string text
  | .array items => noControl_array (noControl_writeItems items)
  | .object members => noControl_object (noControl_writeMembers members)
termination_by structural v => v

theorem noControl_writeItems : (items : List Value) → ∀ item ∈ writeItems items, NoControl item
  | [] => fun _ h => by cases h
  | v :: rest => List.forall_mem_cons.2 ⟨v.noControl_write, noControl_writeItems rest⟩
termination_by structural l => l

theorem noControl_writeMembers :
    (members : List (Text × Value)) → ∀ m ∈ writeMembers members, NoControl m.2
  | [] => fun _ h => by cases h
  | m :: rest => List.forall_mem_cons.2 ⟨noControl_writeMember m, noControl_writeMembers rest⟩
termination_by structural l => l

theorem noControl_writeMember : (m : Text × Value) → NoControl (writeMember m).2
  | (_, v) => v.noControl_write
termination_by structural m => m

end

/-! ### Arrays of texts with blanks -/

/-- The items, with a blank behind each comma. -/
def spaced (items : List Text) : Text := [',', ' '].intercalate (items.map string)

/-- An array of texts, with a blank behind each comma. -/
def dumps (items : List Text) : Text := '[' :: (spaced items ++ [']'])

theorem spaced_cons (item other : Text) (items : List Text) :
    spaced (item :: other :: items) = string item ++ ',' :: ' ' :: spaced (other :: items) := by
  rw [spaced, spaced, List.map_cons, List.map_cons, List.intercalate_cons_cons, List.append_assoc]
  rfl

theorem spaced_singleton (item : Text) : spaced [item] = string item := List.intercalate_singleton

theorem length_spaced (items : List Text) : items.length ≤ (spaced items).length := by
  induction items with
  | nil => exact Nat.zero_le _
  | cons item items ih =>
    have hstring : 1 ≤ (string item).length := by
      rw [string, List.length_cons]
      omega
    cases items with
    | nil =>
      rw [spaced_singleton]
      exact hstring
    | cons other items =>
      rw [spaced_cons]
      simp only [List.length_append, List.length_cons] at ih ⊢
      omega

theorem spaced_head (item : Text) (items : List Text) :
    ∃ tail, spaced (item :: items) = string item ++ tail := by
  cases items with
  | nil => exact ⟨[], by rw [spaced_singleton, List.append_nil]⟩
  | cons other items => exact ⟨_, spaced_cons item other items⟩

/-- Blanks in front of a value do not count. -/
theorem parseValue_skip {fuel : ℕ} {text text' : Text} (h : skip text = skip text') :
    parseValue fuel text = parseValue fuel text' := by
  cases fuel with
  | zero => rfl
  | succ fuel => rw [parseValue, parseValue, h]

theorem skip_string (item rest : Text) : skip (string item ++ rest) = string item ++ rest :=
  skip_write (.string item) rest

theorem skip_blank (text : Text) : skip (' ' :: text) = skip text := by
  rw [skip, skip, List.dropWhile_cons_of_pos (by decide)]

theorem parseItems_spaced (item : Text) (items : List Text) (rest : Text) {fuel : ℕ}
    (hfuel : items.length + 1 < fuel) {text : Text}
    (htext : skip text = spaced (item :: items) ++ ']' :: rest) :
    parseItems fuel text = some ((item :: items).map Value.string, rest) := by
  induction items generalizing item fuel text with
  | nil =>
    obtain ⟨fuel, rfl⟩ : ∃ n, fuel = n + 2 := ⟨fuel - 2, by
      rw [List.length_nil] at hfuel
      omega⟩
    rw [spaced_singleton] at htext
    rw [parseItems, parseValue_skip (htext.trans (skip_string item (']' :: rest)).symm),
      show string item ++ ']' :: rest = (Value.string item).write ++ ']' :: rest from rfl,
      parseValue_string]
    simp only [Option.bind_eq_bind, Option.bind_some]
    rw [skip_cons _ (by decide)]
    rfl
  | cons other items ih =>
    obtain ⟨fuel, rfl⟩ : ∃ n, fuel = n + 2 := ⟨fuel - 2, by
      rw [List.length_cons] at hfuel
      omega⟩
    rw [List.length_cons] at hfuel
    have hbody : string item ++ ',' :: ' ' :: (spaced (other :: items) ++ ']' :: rest) =
        (Value.string item).write ++
          ',' :: ' ' :: (spaced (other :: items) ++ ']' :: rest) := rfl
    obtain ⟨tail, htail⟩ := spaced_head other items
    -- the blank behind the comma is skipped
    have hskip : skip (' ' :: (spaced (other :: items) ++ ']' :: rest)) =
        spaced (other :: items) ++ ']' :: rest := by
      rw [skip_blank, htail, List.append_assoc, skip_string]
    rw [spaced_cons, List.append_assoc, List.cons_append, List.cons_append] at htext
    rw [parseItems, parseValue_skip (htext.trans (skip_string item _).symm), hbody,
      parseValue_string]
    simp only [Option.bind_eq_bind, Option.bind_some]
    rw [skip_cons _ (by decide)]
    show (parseItems (fuel + 1) (' ' :: (spaced (other :: items) ++ ']' :: rest))).map _ = _
    rw [ih other (by omega) hskip]
    rfl

/-- An array with blanks, when the fuel is enough for its items. -/
theorem parseValue_dumps {items : List Text} {fuel : ℕ} (hfuel : items.length < fuel) :
    parseValue (fuel + 1) (dumps items) = some (.array (items.map Value.string), []) := by
  rw [parseValue, dumps, skip_cons _ (by decide)]
  show (match skip (spaced items ++ [']']) with
    | ']' :: rest => some (Value.array [], rest)
    | rest => (parseItems fuel rest).map
      fun r : List Value × Text => (Value.array r.1, r.2)) = _
  cases items with
  | nil => rfl
  | cons item items =>
    obtain ⟨tail, htail⟩ := spaced_head item items
    have hskip : skip (spaced (item :: items) ++ [']']) = spaced (item :: items) ++ [']'] := by
      rw [htail, List.append_assoc, skip_string]
    have hitems := parseItems_spaced item items [] hfuel hskip
    rw [hskip]
    split
    next rest heq =>
      -- an item starts with a quote
      rw [htail, string] at heq
      exact absurd (List.cons.inj heq).1 (by decide)
    next =>
      rw [hitems]
      rfl

/-- What is written with blanks is read back. -/
theorem parse_dumps (items : List Text) :
    parse (dumps items) = some (.array (items.map Value.string)) := by
  have hlength := length_spaced items
  rw [parse, parseValue_dumps]
  · rfl
  · rw [dumps, List.length_cons, List.length_append, List.length_singleton]
    omega

end Json
