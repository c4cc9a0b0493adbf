/-
String literals of Python between double quotes (a library).

A string of Python is a list of code points, surrogates among them.

* `read_pointsString` — what JSON writes of code points, Python reads back.
-/
import ShellgeiOnlineJudge.JsonPoints

namespace PythonLiteral

open Utf8 (Text)
open Json Utf16

/-- The digits of an escape sequence, in the base `base`. -/
def number (base : ℕ) (digits : Text) : Option ℕ :=
  digits.foldlM (fun n c => do
    let digit ← hexValue c
    if digit < base then some (n * base + digit) else none) 0

/-- `\xhh`, `\uhhhh` and `\Uhhhhhhhh`, behind the letter -/
def readHex (count : ℕ) (text : Text) : Option (List ℕ × Text) := do
  let n ← if count ≤ text.length then number 16 (text.take count) else none
  if n < 0x110000 then some ([n], text.drop count) else none

/-- `[0-7]` -/
def isOctal (c : Char) : Bool := '0' ≤ c && c ≤ '7'

/-- One to three octal digits -/
def readOctal (text : Text) : Option (List ℕ × Text) := do
  let digits := (text.take 3).takeWhile isOctal
  let n ← number 8 digits
  some ([n], text.drop digits.length)

/-- The letters of `\a`, `\b`, `\f`, `\n`, `\r`, `\t` and `\v` -/
def letters : List (Char × ℕ) :=
  [('a', 7), ('b', 8), ('f', 12), ('n', 10), ('r', 13), ('t', 9), ('v', 11)]

/-- An escape sequence, behind its backslash; names of characters are left out. -/
def readEscape : Text → Option (List ℕ × Text)
  | [] => none
  | c :: rest =>
    if c = '\n' then some ([], rest)
    else if c = '\\' ∨ c = '\'' ∨ c = '"' then some ([c.toNat], rest)
    else if c = 'u' then readHex 4 rest
    else if c = 'x' then readHex 2 rest
    else if c = 'U' then readHex 8 rest
    else if c = 'N' then none
    else if isOctal c then readOctal (c :: rest)
    else match letters.lookup c with
      | some n => some ([n], rest)
      -- an unknown sequence stays as it is
      | none => some (['\\'.toNat, c.toNat], rest)

/-- The character or escape sequence that starts with `c` -/
def readPoint (c : Char) (rest : Text) : Option (List ℕ × Text) :=
  if c = '\\' then readEscape rest else some ([c.toNat], rest)

/-- The rest of a literal, behind its opening quote -/
def readChars : ℕ → Text → Option (List ℕ × Text)
  | 0, _ => none
  | fuel + 1, text =>
    match text with
    | [] => none
    | c :: rest =>
      if c = '"' then some ([], rest)
      else if c = '\n' ∨ c = '\r' then none
      else do
        let (points, rest) ← readPoint c rest
        let (others, rest) ← readChars fuel rest
        return (points ++ others, rest)

/-- The literal that a text starts with, and the text behind it -/
def read : Text → Option (List ℕ × Text)
  | '"' :: rest => readChars (rest.length + 1) rest
  | _ => none

/-! ### What JSON writes -/

theorem number_hexDigits {n : ℕ} (hn : n < 0x10000) : number 16 (hexDigits n) = some n := by
  have hhex : ∀ n < 16, hexValue (Nat.digitChar n) = some n := by decide
  have hdigit : ∀ m digit : ℕ, digit < 16 → ((hexValue (Nat.digitChar digit)).bind fun digit =>
      if digit < 16 then some (m * 16 + digit) else none) = some (m * 16 + digit) := by
    intro m digit hlt
    rw [hhex digit hlt, Option.bind_some, if_pos hlt]
  have hvalue : (((0 * 16 + n / 0x1000) * 16 + n / 0x100 % 16) * 16 + n / 0x10 % 16) * 16 + n % 16 =
      n := by
    omega
  rw [number, hexDigits]
  simp only [List.map_cons, List.map_nil, List.foldlM_cons, List.foldlM_nil, Option.bind_eq_bind]
  rw [hdigit _ _ (by omega), Option.bind_some, hdigit _ _ (by omega), Option.bind_some,
    hdigit _ _ (by omega), Option.bind_some, hdigit _ _ (by omega), Option.bind_some, hvalue]
  rfl

theorem readEscape_escapeUnit {n : ℕ} (hn : n < 0x10000) (rest : Text) :
    readEscape ('u' :: (hexDigits n ++ rest)) = some ([n], rest) := by
  have htake : (hexDigits n ++ rest).take 4 = hexDigits n := rfl
  have hdrop : (hexDigits n ++ rest).drop 4 = rest := rfl
  have hlength : 4 ≤ (hexDigits n ++ rest).length := by
    rw [List.length_append]
    exact Nat.le_add_right 4 _
  show readHex 4 (hexDigits n ++ rest) = _
  rw [readHex, if_pos hlength, htake, number_hexDigits hn, hdrop]
  exact if_pos (by omega)

/-- How the literal that starts with a code point is read -/
theorem readChars_escapePoint {n : ℕ} (hn : n < 0x110000) (text : Text) (fuel : ℕ) :
    readChars (fuel + 1) (escapePoint n ++ text) =
      (readChars fuel text).map fun r => (n :: r.1, r.2) := by
  -- the reading of one character, whichever way it is written
  have hstep : ∀ (points : List ℕ) (c : Char) (rest : Text), c ≠ '"' → ¬ (c = '\n' ∨ c = '\r') →
      readPoint c rest = some (points, text) →
      readChars (fuel + 1) (c :: rest) = (readChars fuel text).map fun r => (points ++ r.1, r.2) := by
    intro points c rest hquote hline hread
    rw [readChars, if_neg hquote, if_neg hline, hread]
    show ((readChars fuel text).bind fun r => some (points ++ r.1, r.2)) = _
    cases readChars fuel text with
    | none => rfl
    | some r => rfl
  have hescape : ∀ (points : List ℕ) (rest : Text), readEscape rest = some (points, text) →
      readChars (fuel + 1) ('\\' :: rest) =
        (readChars fuel text).map fun r => (points ++ r.1, r.2) := by
    intro points rest hread
    exact hstep points '\\' rest (by decide) (by decide) hread
  by_cases hsurrogate : IsSurrogate n
  · rw [escapePoint, if_pos hsurrogate]
    exact hescape [n] _ (readEscape_escapeUnit (by have := hsurrogate.2; omega) text)
  · have hchar := ofNat_of_not_surrogate hn hsurrogate
    rw [escapePoint, if_neg hsurrogate]
    generalize Char.ofNat n = c at hchar
    subst hchar
    unfold escape
    -- the escapes in the order of the code that writes them
    split_ifs with h1 h2 h3 h4 h5 h6 h7 h8
    · subst h1
      exact hescape [0x22] _ rfl
    · subst h2
      exact hescape [0x5C] _ rfl
    · subst h3
      exact hescape [0x0A] _ rfl
    · subst h4
      exact hescape [0x0D] _ rfl
    · subst h5
      exact hescape [0x09] _ rfl
    · rw [h6]
      exact hescape [0x08] _ rfl
    · rw [h7]
      exact hescape [0x0C] _ rfl
    · have hread := @readEscape_escapeUnit c.toNat (by omega) text
      rw [hexDigits_control h8] at hread
      exact hescape [c.toNat] _ hread
    · have hline : ¬ (c = '\n' ∨ c = '\r') := not_or.2 ⟨h3, h4⟩
      exact hstep [c.toNat] c text h1 hline (if_neg h2)

/-- **A literal of JSON is one of Python.** -/
theorem read_pointsString {points : List ℕ} (hlt : ∀ n ∈ points, n < 0x110000) (rest : Text) :
    read (pointsString escapePoint points ++ rest) = some (points, rest) := by
  -- the literal behind its quotation mark; each code point takes one of the fuel
  have hchars : ∀ fuel, points.length < fuel →
      readChars fuel (points.flatMap escapePoint ++ '"' :: rest) = some (points, rest) := by
    induction points with
    | nil =>
      intro fuel hfuel
      obtain ⟨fuel, rfl⟩ : ∃ n, fuel = n + 1 := ⟨fuel - 1, by simp at hfuel; omega⟩
      rw [List.flatMap_nil, List.nil_append, readChars, if_pos rfl]
    | cons n points ih =>
      intro fuel hfuel
      rw [List.length_cons] at hfuel
      obtain ⟨fuel, rfl⟩ : ∃ n, fuel = n + 1 := ⟨fuel - 1, by omega⟩
      obtain ⟨hn, hpoints⟩ := List.forall_mem_cons.1 hlt
      rw [List.flatMap_cons, List.append_assoc, readChars_escapePoint hn,
        ih hpoints fuel (by omega)]
      rfl
  have htext : pointsString escapePoint points ++ rest =
      '"' :: (points.flatMap escapePoint ++ '"' :: rest) := by
    rw [pointsString, List.cons_append, List.append_assoc]
    rfl
  have hlength := length_le_flatMap_write escapes_escapePoint hlt
  rw [htext]
  show readChars _ _ = _
  refine hchars _ ?_
  rw [List.length_append]
  omega

end PythonLiteral
