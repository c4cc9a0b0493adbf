/-
UTF-16: texts as code units, and code units as code points (a library).

`decode` makes one code point of a high surrogate and the low one behind it, and
leaves any other surrogate alone.

* `decode_encode` — text comes back as it was;
* `decode_append` — decoding goes piece by piece where no pair is cut;
* `ofPoints_eq_some_iff` — which code points are a text.
-/
import Mathlib.Data.Nat.Notation
import Mathlib.Data.List.Basic
import Mathlib.Tactic.Basic

namespace Utf16

/-- A string of UTF-16 code units. -/
abbrev Units := List UInt16

/-- A high surrogate. -/
def isHigh (u : UInt16) : Bool := decide (0xD800 ≤ u.toNat ∧ u.toNat < 0xDC00)

/-- A low surrogate. -/
def isLow (u : UInt16) : Bool := decide (0xDC00 ≤ u.toNat ∧ u.toNat < 0xE000)

/-- The code point of a pair. -/
def combine (u v : UInt16) : ℕ := 0x10000 + (u.toNat - 0xD800) * 0x400 + (v.toNat - 0xDC00)

/-- The code points of code units; surrogates without their other half stay. -/
def decode : Units → List ℕ
  | [] => []
  | [u] => [u.toNat]
  | u :: v :: rest =>
    if isHigh u && isLow v then combine u v :: decode rest else u.toNat :: decode (v :: rest)

/-- One unit, or a pair of surrogates. -/
def encodeChar (c : Char) : Units :=
  if c.toNat < 0x10000 then [UInt16.ofNat c.toNat]
  else [UInt16.ofNat (0xD800 + (c.toNat - 0x10000) / 0x400),
    UInt16.ofNat (0xDC00 + (c.toNat - 0x10000) % 0x400)]

/-- The code units of a text. -/
def encode (text : List Char) : Units := text.flatMap encodeChar

/-- A code point that no character has. -/
def IsSurrogate (n : ℕ) : Prop := 0xD800 ≤ n ∧ n < 0xE000

instance (n : ℕ) : Decidable (IsSurrogate n) := inferInstanceAs (Decidable (_ ∧ _))

/-- Every surrogate has its other half. -/
def Paired (units : Units) : Prop := ∀ n ∈ decode units, ¬ IsSurrogate n

instance (units : Units) : Decidable (Paired units) :=
  inferInstanceAs (Decidable (∀ n ∈ decode units, ¬ IsSurrogate n))

/-- The text of code points. -/
def ofPoints : List ℕ → Option (List Char)
  | [] => some []
  | n :: rest =>
    if n.isValidChar then (ofPoints rest).map fun text => Char.ofNat n :: text else none

/-! ### Decoding -/

section Decode

variable {u v : UInt16} {units rest : Units}

theorem decode_cons (h : ¬ (isHigh u = true ∧ ∃ v, rest.head? = some v ∧ isLow v = true)) :
    decode (u :: rest) = u.toNat :: decode rest := by
  cases rest with
  | nil => rfl
  | cons v rest =>
    have hpair : ¬ (isHigh u && isLow v) = true := by
      intro hpair
      obtain ⟨hu, hv⟩ := Bool.and_eq_true_iff.1 hpair
      exact h ⟨hu, v, rfl, hv⟩
    rw [decode, if_neg hpair]

theorem decode_pair (hu : isHigh u = true) (hv : isLow v = true) :
    decode (u :: v :: rest) = combine u v :: decode rest := by
  rw [decode, if_pos (by rw [hu, hv]; rfl)]

theorem decode_cons_of_not_high (h : isHigh u = false) :
    decode (u :: rest) = u.toNat :: decode rest :=
  decode_cons fun hpair => by
    rw [h] at hpair
    exact absurd hpair.1 (by simp)

/-- A pair is not cut in front of a unit that is no low surrogate. -/
theorem decode_append (h : ∀ v, rest.head? = some v → isLow v = false) :
    decode (units ++ rest) = decode units ++ decode rest := by
  induction units using decode.induct with
  | case1 => rfl
  | case2 u =>
    refine decode_cons fun hpair => ?_
    obtain ⟨-, v, hv, hlow⟩ := hpair
    rw [h v hv] at hlow
    cases hlow
  | case3 u v units hpair ih =>
    obtain ⟨hu, hv⟩ := Bool.and_eq_true_iff.1 hpair
    show decode (u :: v :: (units ++ rest)) = _
    rw [decode_pair hu hv, decode_pair hu hv, ih]
    rfl
  | case4 u v units hpair ih =>
    show decode (u :: v :: (units ++ rest)) = _
    rw [decode, if_neg hpair, decode, if_neg hpair]
    exact congrArg (u.toNat :: ·) ih

/-- A pair is not cut behind units that are no high surrogates either. -/
theorem decode_append_of_not_high (h : ∀ u ∈ units, isHigh u = false) :
    decode (units ++ rest) = decode units ++ decode rest := by
  induction units with
  | nil => rfl
  | cons u units ih =>
    have hu := h u List.mem_cons_self
    rw [List.cons_append, decode_cons_of_not_high hu, decode_cons_of_not_high hu,
      ih fun v hv => h v (List.mem_cons_of_mem u hv), List.cons_append]

theorem isHigh_eq_false (h : ¬ IsSurrogate u.toNat) : isHigh u = false := by
  refine decide_eq_false fun hhigh => h ⟨hhigh.1, ?_⟩
  omega

theorem isLow_eq_false (h : ¬ IsSurrogate u.toNat) : isLow u = false := by
  refine decide_eq_false fun hlow => h ⟨?_, hlow.2⟩
  omega

/-- Units that are no surrogates are code points. -/
theorem decode_eq_map (h : ∀ u ∈ units, ¬ IsSurrogate u.toNat) :
    decode units = units.map UInt16.toNat := by
  induction units with
  | nil => rfl
  | cons u units ih =>
    rw [decode_cons_of_not_high (isHigh_eq_false (h u List.mem_cons_self)),
      ih fun v hv => h v (List.mem_cons_of_mem u hv)]
    rfl

theorem length_decode_le : (decode units).length ≤ units.length := by
  induction units using decode.induct with
  | case1 => exact Nat.le_refl _
  | case2 u => exact Nat.le_refl _
  | case3 u v units hpair ih =>
    rw [decode, if_pos hpair]
    simp only [List.length_cons]
    omega
  | case4 u v units hpair ih =>
    rw [decode, if_neg hpair]
    simp only [List.length_cons] at ih ⊢
    omega

theorem decode_eq_nil_iff : decode units = [] ↔ units = [] := by
  cases units with
  | nil => exact iff_of_true rfl rfl
  | cons u units =>
    refine iff_of_false ?_ (by simp)
    cases units with
    | nil => simp [decode]
    | cons v units =>
      rw [decode]
      split
      · simp
      · simp

/-- A point that is no surrogate and not behind the plane of the units is the
value of a unit. -/
theorem mem_decode_iff {n : ℕ} (hn : n < 0x10000) (hsurrogate : ¬ IsSurrogate n) :
    n ∈ decode units ↔ ∃ u ∈ units, u.toNat = n := by
  induction units using decode.induct with
  | case1 => simp [decode]
  | case2 u => simp [decode, eq_comm]
  | case3 u v units hpair ih =>
    obtain ⟨hu, hv⟩ := Bool.and_eq_true_iff.1 hpair
    have hu := of_decide_eq_true hu
    have hv := of_decide_eq_true hv
    have hne : n ≠ combine u v := by
      unfold combine
      omega
    have hnu : u.toNat ≠ n := fun heq => hsurrogate ⟨by omega, by omega⟩
    have hnv : v.toNat ≠ n := fun heq => hsurrogate ⟨by omega, by omega⟩
    rw [decode, if_pos hpair, List.mem_cons, ih]
    simp [hne, hnu, hnv]
  | case4 u v units hpair ih =>
    rw [decode, if_neg hpair, List.mem_cons, ih]
    simp [eq_comm]

theorem decode_lt {n : ℕ} (hn : n ∈ decode units) : n < 0x110000 := by
  induction units using decode.induct with
  | case1 => cases hn
  | case2 u =>
    have hu := u.toNat_lt
    have heq : n = u.toNat := by simpa [decode] using hn
    omega
  | case3 u v units hpair ih =>
    obtain ⟨hu, hv⟩ := Bool.and_eq_true_iff.1 hpair
    have hu := of_decide_eq_true hu
    have hv := of_decide_eq_true hv
    rw [decode, if_pos hpair, List.mem_cons] at hn
    rcases hn with heq | hn
    · unfold combine at heq
      omega
    · exact ih hn
  | case4 u v units hpair ih =>
    have hu := u.toNat_lt
    rw [decode, if_neg hpair, List.mem_cons] at hn
    rcases hn with rfl | hn
    · omega
    · exact ih hn

end Decode

/-! ### Texts -/

section Texts

variable {text : List Char} {points : List ℕ}

theorem ofPoints_eq_some_iff : ofPoints points = some text ↔ points = text.map Char.toNat := by
  induction points generalizing text with
  | nil =>
    cases text with
    | nil => exact iff_of_true rfl rfl
    | cons c text => exact iff_of_false (by simp [ofPoints]) (by simp)
  | cons n points ih =>
    rw [ofPoints]
    by_cases hn : n.isValidChar
    · rw [if_pos hn]
      have hchar : (Char.ofNat n).toNat = n := by
        rw [Char.ofNat, dif_pos hn]
        exact UInt32.toNat_ofNatLT ..
      cases text with
      | nil => simp
      | cons c text =>
        rw [Option.map_eq_some_iff, List.map_cons, List.cons.injEq]
        constructor
        · rintro ⟨rest, hrest, heq⟩
          obtain ⟨rfl, rfl⟩ := List.cons.inj heq
          exact ⟨hchar.symm, ih.1 hrest⟩
        · rintro ⟨rfl, hrest⟩
          exact ⟨text, ih.2 hrest, by rw [Char.ofNat_toNat]⟩
    -- a code point that no character has is that of no text
    · rw [if_neg hn]
      refine iff_of_false (by simp) fun heq => hn ?_
      cases text with
      | nil => cases heq
      | cons c text =>
        obtain ⟨rfl, -⟩ := List.cons.inj heq
        exact c.valid

theorem decode_encode : decode (encode text) = text.map Char.toNat := by
  induction text with
  | nil => rfl
  | cons c text ih =>
    have hvalid : c.toNat < 0xD800 ∨ 0xDFFF < c.toNat ∧ c.toNat < 0x110000 := c.valid
    show decode (encodeChar c ++ encode text) = c.toNat :: text.map Char.toNat
    rw [encodeChar]
    -- one unit that is no high surrogate, or a pair
    by_cases hc : c.toNat < 0x10000
    · rw [if_pos hc]
      have hunit : (UInt16.ofNat c.toNat).toNat = c.toNat := UInt16.toNat_ofNat_of_lt' hc
      have hhigh : isHigh (UInt16.ofNat c.toNat) = false := by
        refine decide_eq_false fun hhigh => ?_
        rw [hunit] at hhigh
        omega
      show decode (UInt16.ofNat c.toNat :: encode text) = _
      rw [decode_cons_of_not_high hhigh, hunit, ih]
    · rw [if_neg hc]
      have hu : (UInt16.ofNat (0xD800 + (c.toNat - 0x10000) / 0x400)).toNat =
          0xD800 + (c.toNat - 0x10000) / 0x400 :=
        UInt16.toNat_ofNat_of_lt' (show _ < 65536 by omega)
      have hv : (UInt16.ofNat (0xDC00 + (c.toNat - 0x10000) % 0x400)).toNat =
          0xDC00 + (c.toNat - 0x10000) % 0x400 :=
        UInt16.toNat_ofNat_of_lt' (show _ < 65536 by omega)
      -- the halves of the pair make up the code point
      have hcombine : combine (UInt16.ofNat (0xD800 + (c.toNat - 0x10000) / 0x400))
          (UInt16.ofNat (0xDC00 + (c.toNat - 0x10000) % 0x400)) = c.toNat := by
        unfold combine
        rw [hu, hv]
        omega
      show decode (_ :: _ :: encode text) = _
      rw [decode_pair, hcombine, ih]
      · refine decide_eq_true ?_
        rw [hu]
        omega
      · refine decide_eq_true ?_
        rw [hv]
        omega

/-- Code units are a text when every surrogate has its other half. -/
theorem ofPoints_decode_isSome_iff {units : Units} :
    (ofPoints (decode units)).isSome ↔ Paired units := by
  have hpoints : ∀ points : List ℕ, (∀ n ∈ points, n < 0x110000) →
      ((ofPoints points).isSome ↔ ∀ n ∈ points, ¬ IsSurrogate n) := by
    intro points hlt
    induction points with
    | nil => simp [ofPoints]
    | cons n points ih =>
      have hn := hlt n List.mem_cons_self
      have ih := ih fun m hm => hlt m (List.mem_cons_of_mem n hm)
      have hvalid : n.isValidChar ↔ ¬ IsSurrogate n := by
        rw [Nat.isValidChar, IsSurrogate]
        omega
      rw [ofPoints, List.forall_mem_cons, ← hvalid, ← ih]
      by_cases hchar : n.isValidChar
      · simp [hchar]
      · simp [hchar]
  exact hpoints _ fun n hn => decode_lt hn

end Texts

end Utf16
