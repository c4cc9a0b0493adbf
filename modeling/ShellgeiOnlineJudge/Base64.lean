/-
Base64, encoded as by `base64.b64encode` and decoded as by
`base64.b64decode(..., validate=True)`.

Strict decoding takes groups of four characters of the alphabet; only the last
group may end with one or two `=`.

* `length_encode` — the number of characters;
* `decode_encode` — bytes come back as they were;
* `decode_shape` — what is decoded consists of the alphabet and the padding.
-/
import Mathlib.Data.Nat.Notation
import Mathlib.Data.List.Basic
import ShellgeiOnlineJudge.Utf8

namespace Base64

open Utf8

/-- The digits, by their values. -/
def alphabet : Text :=
  "ABCDEFGHIJKLMNOPQRSTUVWXYZabcdefghijklmnopqrstuvwxyz0123456789+/".toList

/-- The digit of a value. -/
def digit (n : ℕ) : Char := alphabet.getD n '='

/-- The value of a digit. -/
def value (c : Char) : Option ℕ :=
  if 'A' ≤ c ∧ c ≤ 'Z' then some (c.toNat - 65)
  else if 'a' ≤ c ∧ c ≤ 'z' then some (c.toNat - 71)
  else if '0' ≤ c ∧ c ≤ '9' then some (c.toNat + 4)
  else if c = '+' then some 62
  else if c = '/' then some 63
  else none

/-- `base64.b64encode` -/
def encode : Bytes → Text
  | [] => []
  | [a] => [digit (a.toNat / 4), digit (a.toNat % 4 * 16), '=', '=']
  | [a, b] =>
    [digit (a.toNat / 4), digit (a.toNat % 4 * 16 + b.toNat / 16), digit (b.toNat % 16 * 4), '=']
  | a :: b :: c :: rest =>
    digit (a.toNat / 4) :: digit (a.toNat % 4 * 16 + b.toNat / 16) ::
      digit (b.toNat % 16 * 4 + c.toNat / 64) :: digit (c.toNat % 64) :: encode rest

/-- The bytes of a group of two digits, of three and of four. -/
def bytes2 (v w : ℕ) : Bytes := [UInt8.ofNat (v * 4 + w / 16)]

/-- Two bytes, with the third digit. -/
def bytes3 (v w x : ℕ) : Bytes := bytes2 v w ++ [UInt8.ofNat (w % 16 * 16 + x / 4)]

/-- The three bytes of four digits. -/
def bytes4 (v w x y : ℕ) : Bytes := bytes3 v w x ++ [UInt8.ofNat (x % 4 * 64 + y)]

/-- `base64.b64decode(data, validate=True)`, in the strict mode that is documented: no
excess padding.  As it runs, CPython 3.11 also takes a padding after a whole last group.
`none` when it raises. -/
def decode : Text → Option Bytes
  | [] => some []
  | a :: b :: c :: d :: rest =>
    if rest = [] ∧ c = '=' ∧ d = '=' then do
      let v ← value a
      let w ← value b
      some (bytes2 v w)
    else if rest = [] ∧ d = '=' then do
      let v ← value a
      let w ← value b
      let x ← value c
      some (bytes3 v w x)
    else do
      let v ← value a
      let w ← value b
      let x ← value c
      let y ← value d
      let bytes ← decode rest
      some (bytes4 v w x y ++ bytes)
  | _ => none

theorem length_encode (bytes : Bytes) : (encode bytes).length = 4 * ((bytes.length + 2) / 3) := by
  induction bytes using encode.induct with
  | case1 => rfl
  | case2 a => simp [encode]
  | case3 a b => simp [encode]
  | case4 a b c rest ih =>
    simp only [encode, List.length_cons, ih]
    omega

theorem value_digit {n : ℕ} (h : n < 64) : value (digit n) = some n := by
  have hall : ∀ m < 64, value (digit m) = some m := by decide +kernel
  exact hall n h

theorem digit_ne_pad {n : ℕ} (h : n < 64) : digit n ≠ '=' := by
  have hall : ∀ m < 64, digit m ≠ '=' := by decide +kernel
  exact hall n h

theorem ofNat_eq {n : ℕ} {b : UInt8} (h : n = b.toNat) : UInt8.ofNat n = b := by
  rw [h, UInt8.ofNat_toNat]

/-- Bytes come back as they were. -/
theorem decode_encode (bytes : Bytes) : decode (encode bytes) = some bytes := by
  induction bytes using encode.induct with
  | case1 => rfl
  -- one byte, two digits and two pads
  | case2 a =>
    have ha := a.toNat_lt
    simp only [encode, decode, and_self, if_true, Option.bind_eq_bind]
    rw [value_digit (by omega), value_digit (by omega), Option.bind_some, Option.bind_some, bytes2,
      ofNat_eq (b := a) (by omega)]
  -- two bytes, three digits and a pad
  | case3 a b =>
    have ha := a.toNat_lt
    have hb := b.toNat_lt
    have hpad : digit (b.toNat % 16 * 4) ≠ '=' := digit_ne_pad (by omega)
    simp only [encode, decode, hpad, and_self, false_and, and_false, if_false, if_true,
      Option.bind_eq_bind]
    rw [value_digit (by omega), value_digit (by omega), value_digit (by omega), Option.bind_some,
      Option.bind_some, Option.bind_some, bytes3, bytes2, ofNat_eq (b := a) (by omega),
      ofNat_eq (b := b) (by omega)]
    rfl
  -- three bytes, and no digit of theirs is a pad
  | case4 a b c rest ih =>
    have ha := a.toNat_lt
    have hb := b.toNat_lt
    have hc := c.toNat_lt
    have hpad : digit (c.toNat % 64) ≠ '=' := digit_ne_pad (by omega)
    simp only [encode, decode, hpad, and_false, if_false, Option.bind_eq_bind]
    rw [value_digit (by omega), value_digit (by omega), value_digit (by omega),
      value_digit (by omega), ih]
    simp only [Option.bind_some, bytes4, bytes3, bytes2]
    rw [ofNat_eq (b := a) (by omega), ofNat_eq (b := b) (by omega), ofNat_eq (b := c) (by omega)]
    rfl

/-! ### The shape of encoded data -/

/-- A character of the alphabet. -/
def isDigit (c : Char) : Bool := (value c).isSome

/-- Characters of the alphabet with at most two `=` behind them. -/
def Shape (data : Text) : Prop :=
  ∃ digits pads, data = digits ++ List.replicate pads '=' ∧ (∀ c ∈ digits, isDigit c) ∧ pads ≤ 2

theorem Shape.cons {c : Char} {data : Text} (hc : isDigit c) (h : Shape data) :
    Shape (c :: data) := by
  obtain ⟨digits, pads, rfl, hdigits, hpads⟩ := h
  refine ⟨c :: digits, pads, rfl, ?_, hpads⟩
  intro d hd
  rcases List.mem_cons.1 hd with rfl | hd
  · exact hc
  · exact hdigits d hd

theorem shape_replicate {pads : ℕ} (h : pads ≤ 2) : Shape (List.replicate pads '=') :=
  ⟨[], pads, rfl, by simp, h⟩

theorem isDigit_of_value {c : Char} {v : ℕ} (h : value c = some v) : isDigit c = true := by
  rw [isDigit, h]
  rfl

/-- What is decoded has the shape, in groups of four. -/
theorem decode_shape {data : Text} {bytes : Bytes} (h : decode data = some bytes) :
    Shape data ∧ data.length % 4 = 0 := by
  induction data using decode.induct generalizing bytes with
  | case1 => exact ⟨shape_replicate (Nat.zero_le 2), rfl⟩
  -- a last group with two pads, one pad, or a group of four digits
  | case2 a b c d rest hpads =>
    obtain ⟨rfl, rfl, rfl⟩ := hpads
    simp only [decode, and_self, if_true, Option.bind_eq_bind, Option.bind_eq_some_iff] at h
    obtain ⟨v, hv, w, hw, -⟩ := h
    exact ⟨((shape_replicate (Nat.le_refl 2)).cons (isDigit_of_value hw)).cons
      (isDigit_of_value hv), by simp⟩
  | case3 a b c d rest hpads hpad =>
    obtain ⟨rfl, rfl⟩ := hpad
    rw [decode, if_neg hpads, if_pos ⟨rfl, rfl⟩] at h
    simp only [Option.bind_eq_bind, Option.bind_eq_some_iff] at h
    obtain ⟨v, hv, w, hw, x, hx, -⟩ := h
    exact ⟨(((shape_replicate (Nat.le_succ 1)).cons (isDigit_of_value hx)).cons
      (isDigit_of_value hw)).cons (isDigit_of_value hv), by simp⟩
  | case4 a b c d rest hpads hpad ih =>
    rw [decode, if_neg hpads, if_neg hpad] at h
    simp only [Option.bind_eq_bind, Option.bind_eq_some_iff] at h
    obtain ⟨v, hv, w, hw, x, hx, y, hy, tail, htail, -⟩ := h
    obtain ⟨hshape, hlength⟩ := ih htail
    refine ⟨(((hshape.cons (isDigit_of_value hy)).cons (isDigit_of_value hx)).cons
      (isDigit_of_value hw)).cons (isDigit_of_value hv), ?_⟩
    simp only [List.length_cons]
    omega
  | case5 data hnil hfour =>
    rw [decode] at h
    · cases h
    · exact hnil
    · exact hfour

end Base64
