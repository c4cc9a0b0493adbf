/-
Writing JSON, and the bytes that it takes.

Members are written in their order, without blanks; text outside ASCII stays as
it is and control characters are escaped.

* `size_string_le`, `size_string_of_plain` — the size of a string;
* `size_object_le` — the size of an object from the sizes of its members.
-/
import Mathlib.Data.Int.Notation
import ShellgeiOnlineJudge.Utf8

namespace Json

open Utf8

/-- The quotation mark. -/
def quote : Char := Char.ofNat 0x22

/-- A character inside a string. -/
def escape (c : Char) : Text :=
  if c = quote then ['\\', quote]
  else if c = '\\' then ['\\', '\\']
  else if c = '\n' then ['\\', 'n']
  else if c = '\r' then ['\\', 'r']
  else if c = '\t' then ['\\', 't']
  else if c.toNat = 8 then ['\\', 'b']
  else if c.toNat = 12 then ['\\', 'f']
  else if c.toNat < 0x20 then
    ['\\', 'u', '0', '0', Nat.digitChar (c.toNat / 16), Nat.digitChar (c.toNat % 16)]
  else [c]

/-- The text of a string. -/
def string (value : Text) : Text := quote :: (value.flatMap escape ++ [quote])

/-- The decimal digits of an integer. -/
def digits (n : ℤ) : Text := Nat.toDigits 10 n.natAbs

/-- The text of an integer. -/
def int (n : ℤ) : Text := if n < 0 then '-' :: digits n else digits n

/-- The text of null. -/
def null : Text := "null".toList

/-- The text of a boolean. -/
def bool (b : Bool) : Text := if b then "true".toList else "false".toList

/-- The text of a member. -/
def member (key value : Text) : Text := string key ++ ':' :: value

/-- The text of an object whose values are written already. -/
def object (members : List (Text × Text)) : Text :=
  '\x7b' :: ([','].intercalate (members.map fun m => member m.1 m.2) ++ ['\x7d'])

/-! ### Sizes -/

/-- The bytes that a text takes. -/
def size (text : Text) : ℕ := (encode text).length

@[simp] theorem size_nil : size [] = 0 := rfl

theorem size_append (a b : Text) : size (a ++ b) = size a + size b := by
  rw [size, encode_append, List.length_append, ← size, ← size]

theorem size_cons (c : Char) (text : Text) : size (c :: text) = c.utf8Size + size text := by
  rw [size, encode_cons, List.length_append, String.length_utf8EncodeChar, ← size]

theorem utf8Size_of_ascii {c : Char} (h : c.toNat < 0x80) : c.utf8Size = 1 := by
  have hval : c.val.toNat < 0x80 := h
  rw [Char.utf8Size, if_pos]
  show c.val.toNat ≤ 0x7F
  omega

theorem size_of_ascii {text : Text} (h : ∀ c ∈ text, c.toNat < 0x80) :
    size text = text.length := by
  induction text with
  | nil => rfl
  | cons c rest ih =>
    have hc := utf8Size_of_ascii (h c List.mem_cons_self)
    have hrest := ih fun d hd => h d (List.mem_cons_of_mem c hd)
    rw [size_cons, hc, hrest, List.length_cons]
    omega

theorem size_escape_le (c : Char) : size (escape c) ≤ 6 := by
  have hhex : ∀ n : ℕ, n < 16 → (Nat.digitChar n).utf8Size = 1 := by decide
  unfold escape
  split_ifs
  · decide
  · decide
  · decide
  · decide
  · decide
  · decide
  · decide
  · -- four characters that are written out and two hexadecimal digits
    rename_i hcontrol
    have hhigh := hhex (c.toNat / 16) (by omega)
    have hlow := hhex (c.toNat % 16) (by omega)
    simp only [size_cons, size_nil, hhigh, hlow]
    decide
  · have := c.utf8Size_le_four
    rw [size_cons, size_nil]
    omega

theorem size_string (value : Text) : size (string value) = size (value.flatMap escape) + 2 := by
  have hquote : quote.utf8Size = 1 := by decide
  rw [string, size_cons, size_append, size_cons, size_nil, hquote]
  omega

theorem size_string_le (value : Text) : size (string value) ≤ 6 * value.length + 2 := by
  rw [size_string]
  induction value with
  | nil => exact Nat.le_refl 2
  | cons c rest ih =>
    have hc := size_escape_le c
    rw [List.flatMap_cons, size_append, List.length_cons]
    omega

/-- An ASCII character that is written as it is. -/
def Plain (c : Char) : Prop := 0x20 ≤ c.toNat ∧ c.toNat < 0x80 ∧ c ≠ quote ∧ c ≠ '\\'

theorem escape_of_plain {c : Char} (h : Plain c) : escape c = [c] := by
  obtain ⟨hlow, -, hquote, hback⟩ := h
  have hne : ∀ d : Char, d.toNat < 0x20 → c ≠ d := by
    rintro d hd rfl
    omega
  rw [escape, if_neg hquote, if_neg hback, if_neg (hne _ (by decide)), if_neg (hne _ (by decide)),
    if_neg (hne _ (by decide)), if_neg (by omega), if_neg (by omega), if_neg (by omega)]

theorem size_string_of_plain {value : Text} (h : ∀ c ∈ value, Plain c) :
    size (string value) = value.length + 2 := by
  have hself : value.flatMap escape = value := by
    induction value with
    | nil => rfl
    | cons c rest ih =>
      rw [List.flatMap_cons, escape_of_plain (h c List.mem_cons_self),
        ih fun d hd => h d (List.mem_cons_of_mem c hd)]
      rfl
  rw [size_string, hself, size_of_ascii fun c hc => (h c hc).2.1]

theorem size_int_le (n : ℤ) : size (int n) ≤ (digits n).length + 1 := by
  have hascii : ∀ c ∈ digits n, c.toNat < 0x80 := by
    intro c hc
    have hdigit := Nat.isDigit_of_mem_toDigits (by decide) (by decide) hc
    simp only [Char.isDigit, Bool.and_eq_true, decide_eq_true_eq] at hdigit
    have : c.val.toNat ≤ 57 := hdigit.2
    show c.val.toNat < 0x80
    omega
  have hminus : ('-').utf8Size = 1 := by decide
  unfold int
  split
  · rw [size_cons, size_of_ascii hascii, hminus]
    omega
  · rw [size_of_ascii hascii]
    omega

theorem size_member (key value : Text) :
    size (member key value) = size (string key) + size value + 1 := by
  have hcolon : (':').utf8Size = 1 := by decide
  rw [member, size_append, size_cons, hcolon]
  omega

theorem size_intercalate_le (parts : List Text) :
    size ([','].intercalate parts) ≤ (parts.map fun part => size part + 1).sum := by
  have hcomma : (',').utf8Size = 1 := by decide
  induction parts with
  | nil => exact Nat.le_refl 0
  | cons part rest ih =>
    cases rest with
    | nil =>
      rw [List.intercalate_singleton, List.map_singleton, List.sum_singleton]
      omega
    | cons next rest =>
      rw [List.intercalate_cons_cons, size_append, size_append, size_cons, size_nil, hcomma,
        List.map_cons, List.sum_cons]
      omega

/-- What an object takes: each member with its quotes, colon and comma, and the braces. -/
theorem size_object_le (members : List (Text × Text)) :
    size (object members) ≤
      (members.map fun m => size (string m.1) + size m.2 + 2).sum + 2 := by
  have hopen : ('\x7b').utf8Size = 1 := by decide
  have hclose : ('\x7d').utf8Size = 1 := by decide
  have hmembers : size ([','].intercalate (members.map fun m => member m.1 m.2)) ≤
      (members.map fun m => size (string m.1) + size m.2 + 2).sum := by
    refine Nat.le_trans (size_intercalate_le _) (Nat.le_of_eq ?_)
    simp only [List.map_map, Function.comp_def, size_member]
  rw [object, size_cons, size_append, size_cons, size_nil, hopen, hclose]
  omega

end Json
