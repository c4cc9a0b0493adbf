/-
SHA-256 (a library): the digest of a sequence of bytes and its hexadecimal text.

The words are `BitVec 32`; the constants are the first 32 bits of the fractional
parts of the roots of the first primes.

* `length_hexdigest`, `hex_hexdigest` — the text of a digest is 64 lower case
  hexadecimal digits.
-/
import Mathlib.Data.Nat.Notation
import Mathlib.Tactic.Basic

namespace Sha256

/-- A word of 32 bits. -/
abbrev Word := BitVec 32

/-- The eight working variables. -/
structure Registers where
  a : Word
  b : Word
  c : Word
  d : Word
  e : Word
  f : Word
  g : Word
  h : Word

/-- Add the words, each modulo 2^32. -/
def Registers.add (r s : Registers) : Registers where
  a := r.a + s.a
  b := r.b + s.b
  c := r.c + s.c
  d := r.d + s.d
  e := r.e + s.e
  f := r.f + s.f
  g := r.g + s.g
  h := r.h + s.h

/-- The words, in their order. -/
def Registers.words (r : Registers) : List Word := [r.a, r.b, r.c, r.d, r.e, r.f, r.g, r.h]

/-- The initial hash value. -/
def initial : Registers where
  a := 0x6a09e667#32
  b := 0xbb67ae85#32
  c := 0x3c6ef372#32
  d := 0xa54ff53a#32
  e := 0x510e527f#32
  f := 0x9b05688c#32
  g := 0x1f83d9ab#32
  h := 0x5be0cd19#32

/-- The constants of the 64 rounds. -/
def roundConstants : List Word :=
  [0x428a2f98#32, 0x71374491#32, 0xb5c0fbcf#32, 0xe9b5dba5#32,
    0x3956c25b#32, 0x59f111f1#32, 0x923f82a4#32, 0xab1c5ed5#32,
    0xd807aa98#32, 0x12835b01#32, 0x243185be#32, 0x550c7dc3#32,
    0x72be5d74#32, 0x80deb1fe#32, 0x9bdc06a7#32, 0xc19bf174#32,
    0xe49b69c1#32, 0xefbe4786#32, 0x0fc19dc6#32, 0x240ca1cc#32,
    0x2de92c6f#32, 0x4a7484aa#32, 0x5cb0a9dc#32, 0x76f988da#32,
    0x983e5152#32, 0xa831c66d#32, 0xb00327c8#32, 0xbf597fc7#32,
    0xc6e00bf3#32, 0xd5a79147#32, 0x06ca6351#32, 0x14292967#32,
    0x27b70a85#32, 0x2e1b2138#32, 0x4d2c6dfc#32, 0x53380d13#32,
    0x650a7354#32, 0x766a0abb#32, 0x81c2c92e#32, 0x92722c85#32,
    0xa2bfe8a1#32, 0xa81a664b#32, 0xc24b8b70#32, 0xc76c51a3#32,
    0xd192e819#32, 0xd6990624#32, 0xf40e3585#32, 0x106aa070#32,
    0x19a4c116#32, 0x1e376c08#32, 0x2748774c#32, 0x34b0bcb5#32,
    0x391c0cb3#32, 0x4ed8aa4a#32, 0x5b9cca4f#32, 0x682e6ff3#32,
    0x748f82ee#32, 0x78a5636f#32, 0x84c87814#32, 0x8cc70208#32,
    0x90befffa#32, 0xa4506ceb#32, 0xbef9a3f7#32, 0xc67178f2#32]

/-- `Ch` -/
def choose (x y z : Word) : Word := (x &&& y) ^^^ (~~~x &&& z)

/-- `Maj` -/
def majority (x y z : Word) : Word := (x &&& y) ^^^ (x &&& z) ^^^ (y &&& z)

/-- `Σ0` -/
def bigSigma0 (x : Word) : Word := x.rotateRight 2 ^^^ x.rotateRight 13 ^^^ x.rotateRight 22

/-- `Σ1` -/
def bigSigma1 (x : Word) : Word := x.rotateRight 6 ^^^ x.rotateRight 11 ^^^ x.rotateRight 25

/-- `σ0` -/
def smallSigma0 (x : Word) : Word := x.rotateRight 7 ^^^ x.rotateRight 18 ^^^ x >>> 3

/-- `σ1` -/
def smallSigma1 (x : Word) : Word := x.rotateRight 17 ^^^ x.rotateRight 19 ^^^ x >>> 10

/-! ### Padding -/

/-- The lowest `n` bytes of a number, the highest of them first. -/
def bigEndian : ℕ → ℕ → List UInt8
  | 0, _ => []
  | n + 1, value => bigEndian n (value / 256) ++ [UInt8.ofNat (value % 256)]

/-- The message, a bit, zeros up to a whole number of blocks, and the length. -/
def pad (message : List UInt8) : List UInt8 :=
  message ++ 0x80 :: (List.replicate ((119 - message.length % 64) % 64) 0 ++
    bigEndian 8 (8 * message.length))

/-- The blocks of 64 bytes. -/
def blocks (padded : List UInt8) : List (List UInt8) :=
  (List.range (padded.length / 64)).map fun i => (padded.drop (64 * i)).take 64

/-- The words of a block. -/
def blockWords : List UInt8 → List Word
  | a :: b :: c :: d :: rest =>
    BitVec.ofNat 32 (((a.toNat * 256 + b.toNat) * 256 + c.toNat) * 256 + d.toNat) ::
      blockWords rest
  | _ => []

/-! ### Compression -/

/-- `n` more words of a message schedule, which has its last word first. -/
def extend : ℕ → List Word → List Word
  | 0, words => words
  | n + 1, words =>
    extend n ((smallSigma1 (words.getD 1 0) + words.getD 6 0 + smallSigma0 (words.getD 14 0) +
      words.getD 15 0) :: words)

/-- The message schedule of a block. -/
def schedule (block : List UInt8) : List Word := (extend 48 (blockWords block).reverse).reverse

/-- One round of the compression. -/
def round (r : Registers) (k w : Word) : Registers :=
  let t1 := r.h + bigSigma1 r.e + choose r.e r.f r.g + k + w
  let t2 := bigSigma0 r.a + majority r.a r.b r.c
  { a := t1 + t2, b := r.a, c := r.b, d := r.c, e := r.d + t1, f := r.e, g := r.f, h := r.g }

/-- The hash value after a block. -/
def compress (r : Registers) (block : List UInt8) : Registers :=
  r.add ((roundConstants.zip (schedule block)).foldl (fun r kw => round r kw.1 kw.2) r)

/-- The digest, 32 bytes. -/
def digest (message : List UInt8) : List UInt8 :=
  (((blocks (pad message)).foldl compress initial).words).flatMap fun w => bigEndian 4 w.toNat

/-! ### Text -/

/-- The two digits of a byte. -/
def hexByte (b : UInt8) : List Char :=
  [Nat.digitChar (b.toNat / 16), Nat.digitChar (b.toNat % 16)]

/-- `hashlib.sha256(message).hexdigest()` -/
def hexdigest (message : List UInt8) : List Char := (digest message).flatMap hexByte

theorem length_bigEndian (n value : ℕ) : (bigEndian n value).length = n := by
  induction n generalizing value with
  | zero => rfl
  | succ n ih => rw [bigEndian, List.length_append, ih, List.length_singleton]

theorem length_digest (message : List UInt8) : (digest message).length = 32 := by
  rw [digest, Registers.words]
  simp only [List.flatMap_cons, List.flatMap_nil, List.length_append, length_bigEndian,
    List.length_nil]

theorem length_flatMap_hexByte (bytes : List UInt8) :
    (bytes.flatMap hexByte).length = 2 * bytes.length := by
  induction bytes with
  | nil => rfl
  | cons b bytes ih =>
    rw [List.flatMap_cons, List.length_append, ih, List.length_cons, hexByte]
    simp only [List.length_cons, List.length_nil]
    omega

/-- The digits are lower case. -/
theorem hex_flatMap_hexByte {bytes : List UInt8} {c : Char} (h : c ∈ bytes.flatMap hexByte) :
    ∃ n < 16, c = Nat.digitChar n := by
  obtain ⟨b, -, hc⟩ := List.mem_flatMap.1 h
  have hb := b.toNat_lt
  rw [hexByte, List.mem_cons, List.mem_singleton] at hc
  rcases hc with hc | hc
  · exact ⟨_, by omega, hc⟩
  · exact ⟨_, by omega, hc⟩

theorem length_hexdigest (message : List UInt8) : (hexdigest message).length = 64 := by
  rw [hexdigest, length_flatMap_hexByte, length_digest]

theorem hex_hexdigest {message : List UInt8} {c : Char} (h : c ∈ hexdigest message) :
    ∃ n < 16, c = Nat.digitChar n :=
  hex_flatMap_hexByte h

example : hexdigest [0x61, 0x62, 0x63] =
    "ba7816bf8f01cfea414140de5dae2223b00361a396177a9cb410ff61f20015ad".toList := by
  decide +kernel

end Sha256
