/-
UTF-8, encoded and decoded.

`decode` reads the bytes one at a time and drops what does not belong to a
character: a byte that cannot go on with the character that has begun drops the
bytes of that character, and is read again as a first byte.

* `decode_encode` — text comes back as it was;
* `decode_mono` — the decoding of a prefix is a prefix of the decoding.
-/
import Mathlib.Algebra.Group.Int.Defs
import Mathlib.Algebra.GroupWithZero.Nat
import Mathlib.Data.Nat.Notation
import Mathlib.Data.List.Basic

namespace Utf8

/-- A byte string. -/
abbrev Bytes := List UInt8

/-- A text as the list of its characters. -/
abbrev Text := List Char

instance : LawfulBEq Bytes := inferInstance

instance : LawfulBEq Text := inferInstance

/-- `text.encode("utf-8")` -/
def encode (text : Text) : Bytes := text.flatMap String.utf8EncodeChar

/-- A character that has begun: the bits so far, how many bytes are owed after
the next one, and the range the next one must lie in. -/
structure Pending where
  value : ℕ
  owed : ℕ
  low : ℕ
  high : ℕ
  deriving DecidableEq

/-- A first byte: what it begins, or the character it is. -/
def firstByte (b : ℕ) : Option Pending × Text :=
  if b ≤ 0x7F then (none, [Char.ofNat b])
  else if 0xC2 ≤ b ∧ b ≤ 0xDF then (some ⟨b - 0xC0, 0, 0x80, 0xBF⟩, [])
  else if b = 0xE0 then (some ⟨0, 1, 0xA0, 0xBF⟩, [])
  else if b = 0xED then (some ⟨0xD, 1, 0x80, 0x9F⟩, [])
  else if 0xE1 ≤ b ∧ b ≤ 0xEF then (some ⟨b - 0xE0, 1, 0x80, 0xBF⟩, [])
  else if b = 0xF0 then (some ⟨0, 2, 0x90, 0xBF⟩, [])
  else if 0xF1 ≤ b ∧ b ≤ 0xF3 then (some ⟨b - 0xF0, 2, 0x80, 0xBF⟩, [])
  else if b = 0xF4 then (some ⟨4, 2, 0x80, 0x8F⟩, [])
  else (none, [])

/-- The next byte. -/
def nextByte (pending : Option Pending) (b : ℕ) : Option Pending × Text :=
  match pending with
  | none => firstByte b
  | some p =>
    if p.low ≤ b ∧ b ≤ p.high then
      match p.owed with
      | 0 => (none, [Char.ofNat (64 * p.value + (b - 0x80))])
      | owed + 1 => (some ⟨64 * p.value + (b - 0x80), owed, 0x80, 0xBF⟩, [])
    else firstByte b

/-- Decode the bytes after the start of a sequence. -/
def decodeFrom : Option Pending → Bytes → Text
  | _, [] => []
  | pending, b :: rest =>
    (nextByte pending b.toNat).2 ++ decodeFrom (nextByte pending b.toNat).1 rest

/-- `bytes.decode("utf-8", errors="ignore")` -/
def decode (bytes : Bytes) : Text := decodeFrom none bytes

/-! ### Prefixes -/

/-- What has begun after some bytes. -/
def pendingAfter : Option Pending → Bytes → Option Pending
  | pending, [] => pending
  | pending, b :: rest => pendingAfter (nextByte pending b.toNat).1 rest

theorem decodeFrom_append (pending : Option Pending) (a b : Bytes) :
    decodeFrom pending (a ++ b) =
      decodeFrom pending a ++ decodeFrom (pendingAfter pending a) b := by
  induction a generalizing pending with
  | nil => rfl
  | cons x rest ih =>
    rw [List.cons_append, decodeFrom, decodeFrom, ih, List.append_assoc]
    rfl

/-- More bytes only add characters at the end. -/
theorem decode_mono {a b : Bytes} (h : a <+: b) : decode a <+: decode b := by
  obtain ⟨rest, rfl⟩ := h
  exact ⟨_, (decodeFrom_append none a rest).symm⟩

/-! ### Round trip -/

@[simp] theorem encode_cons (c : Char) (text : Text) :
    encode (c :: text) = String.utf8EncodeChar c ++ encode text := rfl

theorem encode_append (a b : Text) : encode (a ++ b) = encode a ++ encode b :=
  List.flatMap_append

/-- A character takes a byte at least. -/
theorem length_le_length_encode (text : Text) : text.length ≤ (encode text).length := by
  induction text with
  | nil => exact Nat.le_refl 0
  | cons c rest ih =>
    have hpos := c.utf8Size_pos
    rw [encode_cons, List.length_append, List.length_cons, String.length_utf8EncodeChar]
    omega

/-- A character takes four bytes at most. -/
theorem length_encode_le (text : Text) : (encode text).length ≤ 4 * text.length := by
  induction text with
  | nil => exact Nat.le_refl 0
  | cons c rest ih =>
    have hsize := c.utf8Size_le_four
    rw [encode_cons, List.length_append, List.length_cons, String.length_utf8EncodeChar]
    omega

/-- The scalar values. -/
theorem char_range (c : Char) : c.toNat < 0xD800 ∨ 0xDFFF < c.toNat ∧ c.toNat < 0x110000 :=
  c.valid

theorem toNat_ofNat_of_lt {n : ℕ} (h : n < 256) : (UInt8.ofNat n).toNat = n := by
  rw [UInt8.toNat_ofNat']
  exact Nat.mod_eq_of_lt h

/-- A continuation byte carries six bits. -/
theorem toNat_continuation (n : ℕ) : (UInt8.ofNat (n % 64 + 128)).toNat = n % 64 + 128 :=
  toNat_ofNat_of_lt (by omega)

theorem nextByte_last {p : Pending} {b : ℕ} (hb : p.low ≤ b ∧ b ≤ p.high) (howed : p.owed = 0) :
    nextByte (some p) b = (none, [Char.ofNat (64 * p.value + (b - 0x80))]) := by
  simp only [nextByte, if_pos hb, howed]

theorem nextByte_more {p : Pending} {b owed : ℕ} (hb : p.low ≤ b ∧ b ≤ p.high)
    (howed : p.owed = owed + 1) :
    nextByte (some p) b = (some ⟨64 * p.value + (b - 0x80), owed, 0x80, 0xBF⟩, []) := by
  simp only [nextByte, if_pos hb, howed]

theorem firstByte_one {b : ℕ} (h : b ≤ 0x7F) : firstByte b = (none, [Char.ofNat b]) := by
  rw [firstByte, if_pos h]

theorem firstByte_two {b : ℕ} (h : 0xC2 ≤ b ∧ b ≤ 0xDF) :
    firstByte b = (some ⟨b - 0xC0, 0, 0x80, 0xBF⟩, []) := by
  rw [firstByte, if_neg (by omega), if_pos h]

/-- The first byte of three, with the range of the second that keeps the
value from being shorter or a surrogate. -/
theorem firstByte_three {b : ℕ} (h : 0xE0 ≤ b ∧ b ≤ 0xEF) :
    ∃ low high, firstByte b = (some ⟨b - 0xE0, 1, low, high⟩, []) ∧
      ∀ n < 64, (b = 0xE0 → 0x20 ≤ n) → (b = 0xED → n < 0x20) →
        low ≤ n + 128 ∧ n + 128 ≤ high := by
  by_cases h0 : b = 0xE0
  · subst h0
    exact ⟨0xA0, 0xBF, rfl, fun n hn hlow _ => by have := hlow rfl; omega⟩
  · by_cases hD : b = 0xED
    · subst hD
      exact ⟨0x80, 0x9F, rfl, fun n hn _ hhigh => by have := hhigh rfl; omega⟩
    · refine ⟨0x80, 0xBF, ?_, fun n hn _ _ => by omega⟩
      rw [firstByte, if_neg (by omega), if_neg (by omega), if_neg h0, if_neg hD,
        if_pos (by omega)]

/-- The first byte of four, with the range of the second that keeps the value
from being shorter or too large. -/
theorem firstByte_four {b : ℕ} (h : 0xF0 ≤ b ∧ b ≤ 0xF4) :
    ∃ low high, firstByte b = (some ⟨b - 0xF0, 2, low, high⟩, []) ∧
      ∀ n < 64, (b = 0xF0 → 0x10 ≤ n) → (b = 0xF4 → n < 0x10) →
        low ≤ n + 128 ∧ n + 128 ≤ high := by
  by_cases h0 : b = 0xF0
  · subst h0
    exact ⟨0x90, 0xBF, rfl, fun n hn hlow _ => by have := hlow rfl; omega⟩
  · by_cases h4 : b = 0xF4
    · subst h4
      exact ⟨0x80, 0x8F, rfl, fun n hn _ hhigh => by have := hhigh rfl; omega⟩
    · refine ⟨0x80, 0xBF, ?_, fun n hn _ _ => by omega⟩
      rw [firstByte, if_neg (by omega), if_neg (by omega), if_neg (by omega), if_neg (by omega),
        if_neg (by omega), if_neg h0, if_pos (by omega)]

/-- The bytes of a character are decoded to it. -/
theorem decodeFrom_encodeChar (c : Char) (rest : Bytes) :
    decodeFrom none (String.utf8EncodeChar c ++ rest) = c :: decodeFrom none rest := by
  have hrange := char_range c
  have hc : Char.ofNat c.toNat = c := Char.ofNat_toNat c
  obtain ⟨v, hv⟩ : ∃ v, v = c.toNat := ⟨_, rfl⟩
  rw [← hv] at hrange hc
  have hval : c.val.toNat = v := hv.symm
  simp only [String.utf8EncodeChar, hval]
  -- one case for each length of the encoding
  by_cases h1 : v ≤ 127
  · have hb : (UInt8.ofNat v).toNat = v := toNat_ofNat_of_lt (by omega)
    rw [if_pos h1]
    simp only [List.cons_append, List.nil_append, decodeFrom, nextByte, hb, firstByte_one h1, hc]
  rw [if_neg h1]
  -- two bytes: the value comes back from its parts in base 64
  by_cases h2 : v ≤ 2047
  · have hb : (UInt8.ofNat (v / 64 % 32 + 192)).toNat = v / 64 % 32 + 192 :=
      toNat_ofNat_of_lt (by omega)
    have hfirst := firstByte_two (b := v / 64 % 32 + 192) (by omega)
    rw [if_pos h2]
    simp only [List.cons_append, List.nil_append, decodeFrom, hb, toNat_continuation]
    rw [show nextByte none (v / 64 % 32 + 192) = _ from hfirst,
      nextByte_last (by simp only; omega) rfl]
    have hvalue : 64 * (v / 64 % 32 + 192 - 0xC0) + (v % 64 + 128 - 0x80) = v := by omega
    simp only [hvalue, hc, List.nil_append, List.cons_append]
  rw [if_neg h2]
  by_cases h3 : v ≤ 65535
  · have hb : (UInt8.ofNat (v / 4096 % 16 + 224)).toNat = v / 4096 % 16 + 224 :=
      toNat_ofNat_of_lt (by omega)
    obtain ⟨low, high, hfirst, hsecond⟩ := firstByte_three (b := v / 4096 % 16 + 224) (by omega)
    rw [if_pos h3]
    simp only [List.cons_append, List.nil_append, decodeFrom, hb, toNat_continuation]
    rw [show nextByte none (v / 4096 % 16 + 224) = _ from hfirst,
      nextByte_more (hsecond _ (by omega) (by omega) (by omega)) rfl,
      nextByte_last (by simp only; omega) rfl]
    have hvalue : 64 * (64 * (v / 4096 % 16 + 224 - 0xE0) + (v / 64 % 64 + 128 - 0x80)) +
        (v % 64 + 128 - 0x80) = v := by omega
    simp only [hvalue, hc, List.nil_append, List.cons_append]
  · have hb : (UInt8.ofNat (v / 262144 % 8 + 240)).toNat = v / 262144 % 8 + 240 :=
      toNat_ofNat_of_lt (by omega)
    obtain ⟨low, high, hfirst, hsecond⟩ := firstByte_four (b := v / 262144 % 8 + 240) (by omega)
    rw [if_neg h3]
    simp only [List.cons_append, List.nil_append, decodeFrom, hb, toNat_continuation]
    rw [show nextByte none (v / 262144 % 8 + 240) = _ from hfirst,
      nextByte_more (hsecond _ (by omega) (by omega) (by omega)) rfl,
      nextByte_more (by simp only; omega) rfl, nextByte_last (by simp only; omega) rfl]
    have hvalue : 64 * (64 * (64 * (v / 262144 % 8 + 240 - 0xF0) + (v / 4096 % 64 + 128 - 0x80)) +
        (v / 64 % 64 + 128 - 0x80)) + (v % 64 + 128 - 0x80) = v := by omega
    simp only [hvalue, hc, List.nil_append, List.cons_append]

theorem decode_encode (text : Text) : decode (encode text) = text := by
  induction text with
  | nil => rfl
  | cons c rest ih => rw [encode_cons, decode, decodeFrom_encodeChar, ← decode, ih]

theorem encode_injective {a b : Text} (h : encode a = encode b) : a = b := by
  rw [← decode_encode a, h, decode_encode]

end Utf8
