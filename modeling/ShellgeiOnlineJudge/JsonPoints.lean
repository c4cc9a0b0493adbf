/-
Strings of JSON from code points, surrogates among them (the JSON library, part 3).

A string of JavaScript or Python may hold a surrogate without its other half.  Both
languages write it by its number, which is the text of no JSON value.

* `parseChars_points` — code points are read back when they are a text, and refused
  otherwise;
* `escapes_escapePoint`, `escapes_asciiPoint` — this holds for both ways of writing them.
-/
import Mathlib.Data.List.Chain
import ShellgeiOnlineJudge.JsonValue
import ShellgeiOnlineJudge.Utf16

namespace Json

open Utf8 (Text)
open Utf16

/-! ### Writing -/

/-- Four hexadecimal digits. -/
def hexDigits (n : ℕ) : Text :=
  [n / 0x1000, n / 0x100 % 16, n / 0x10 % 16, n % 16].map Nat.digitChar

/-- A code unit by its number -/
def escapeUnit (n : ℕ) : Text := '\\' :: 'u' :: hexDigits n

/-- A code point in a string; a surrogate is written by its number. -/
def escapePoint (n : ℕ) : Text :=
  if IsSurrogate n then escapeUnit n else escape (Char.ofNat n)

/-- A code point in a string of ASCII. -/
def asciiPoint (n : ℕ) : Text :=
  if n = 0x22 then ['\\', quote]
  else if n = 0x5C then ['\\', '\\']
  else if n = 0x0A then ['\\', 'n']
  else if n = 0x0D then ['\\', 'r']
  else if n = 0x09 then ['\\', 't']
  else if n = 0x0C then ['\\', 'f']
  else if n = 0x08 then ['\\', 'b']
  else if 0x20 ≤ n ∧ n < 0x7F then [Char.ofNat n]
  else if n < 0x10000 then escapeUnit n
  else escapeUnit (0xD800 + (n - 0x10000) / 0x400) ++ escapeUnit (0xDC00 + (n - 0x10000) % 0x400)

/-- The text of a string of code points. -/
def pointsString (write : ℕ → Text) (points : List ℕ) : Text :=
  quote :: (points.flatMap write ++ [quote])

section

variable (write : ℕ → Text) (gap : Text)

/-- A member whose value is a string, with blanks behind the colon. -/
def pointsMember (m : Text × List ℕ) : Text :=
  string m.1 ++ ':' :: (gap ++ pointsString write m.2)

/-- The members of an object, with a gap before all but the first. -/
def pointsMembers : List (Text × List ℕ) → Text
  | [] => []
  | [m] => pointsMember write gap m
  | m :: k :: members => pointsMember write gap m ++ ',' :: (gap ++ pointsMembers (k :: members))

/-- An object whose values are strings. -/
def pointsObject (members : List (Text × List ℕ)) : Text :=
  '\x7b' :: (pointsMembers write gap members ++ ['\x7d'])

end

/-! ### Code points -/

/-- A high surrogate. -/
def IsHighPoint (n : ℕ) : Prop := 0xD800 ≤ n ∧ n < 0xDC00

/-- A low surrogate. -/
def IsLowPoint (n : ℕ) : Prop := 0xDC00 ≤ n ∧ n < 0xE000

/-- No two code points are the halves of a third one. -/
def Decoded (points : List ℕ) : Prop :=
  points.IsChain fun m n => ¬ (IsHighPoint m ∧ IsLowPoint n)

theorem decoded_decode (units : Units) : Decoded (decode units) := by
  induction units using decode.induct with
  | case1 => exact .nil
  | case2 u => exact .singleton _
  | case3 u v units hpair ih =>
    obtain ⟨hu, -⟩ := Bool.and_eq_true_iff.1 hpair
    have hlow := of_decide_eq_true hu
    rw [decode, if_pos hpair]
    refine List.isChain_cons.2 ⟨fun n _ hboth => ?_, ih⟩
    have hhigh := hboth.1.2
    unfold combine at hhigh
    omega
  | case4 u v units hpair ih =>
    rw [decode, if_neg hpair]
    refine List.isChain_cons.2 ⟨fun n hn hboth => hpair ?_, ih⟩
    -- the next point is the next unit, unless that starts a pair
    have hhead : n = v.toNat ∨ 0x10000 ≤ n := by
      cases units with
      | nil =>
        rw [decode] at hn
        exact .inl (Option.some.inj hn).symm
      | cons w units =>
        rw [decode] at hn
        split at hn
        · refine .inr ?_
          rw [← Option.some.inj hn]
          unfold combine
          omega
        · exact .inl (Option.some.inj hn).symm
    obtain ⟨⟨hlow, hhigh⟩, hlow', hhigh'⟩ := hboth
    rcases hhead with rfl | hhead
    · rw [isHigh, isLow, decide_eq_true ⟨hlow, hhigh⟩, decide_eq_true ⟨hlow', hhigh'⟩]
      rfl
    · omega

/-! ### Reading back -/

theorem hex4_hexDigits {n : ℕ} (hn : n < 0x10000) (rest : Text) :
    hex4 (hexDigits n ++ rest) = some (n, rest) := by
  have hhex : ∀ n < 16, hexValue (Nat.digitChar n) = some n := by decide
  have h1 := hhex (n / 0x1000) (by omega)
  have h2 := hhex (n / 0x100 % 16) (by omega)
  have h3 := hhex (n / 0x10 % 16) (by omega)
  have h4 := hhex (n % 16) (by omega)
  have hvalue : ((n / 0x1000 * 16 + n / 0x100 % 16) * 16 + n / 0x10 % 16) * 16 + n % 16 = n := by
    omega
  show hex4 (Nat.digitChar _ :: Nat.digitChar _ :: Nat.digitChar _ :: Nat.digitChar _ :: rest) = _
  rw [hex4, h1, h2, h3, h4]
  show some (((n / 0x1000 * 16 + n / 0x100 % 16) * 16 + n / 0x10 % 16) * 16 + n % 16, rest) = _
  rw [hvalue]

theorem hexDigits_control {n : ℕ} (hn : n < 0x20) :
    hexDigits n = ['0', '0', Nat.digitChar (n / 16), Nat.digitChar (n % 16)] := by
  have h1 : n / 0x1000 = 0 := by omega
  have h2 : n / 0x100 % 16 = 0 := by omega
  have h3 : n / 0x10 % 16 = n / 16 := by omega
  rw [hexDigits, h1, h2, h3]
  rfl

/-- A way to write code points, such that characters are read back. -/
structure Escapes (write : ℕ → Text) : Prop where
  char : ∀ (c : Char) (text : Text), parseChar (write c.toNat ++ text) = some (c, text)
  surrogate : ∀ n, IsSurrogate n → write n = escapeUnit n
  head : ∀ n < 0x110000, ∃ c rest, write n = c :: rest ∧ c ≠ quote
  /-- Only a low surrogate is written by the number of one. -/
  notLow : ∀ n < 0x110000, ¬ IsLowPoint n → ∀ text rest, write n ++ text = '\\' :: 'u' :: rest →
    ∃ m rest', hex4 rest = some (m, rest') ∧ ¬ IsLowPoint m

theorem parseChar_surrogate {write : ℕ → Text} (h : Escapes write) {n : ℕ} (hn : IsSurrogate n)
    {points : List ℕ} (hlt : ∀ m ∈ points, m < 0x110000) (hchain : Decoded (n :: points))
    (rest : Text) :
    parseChar (write n ++ (points.flatMap write ++ quote :: rest)) = none := by
  have hlt16 : n < 0x10000 := by
    have := hn.2
    omega
  rw [h.surrogate n hn]
  show unicodeEscape (hexDigits n ++ (points.flatMap write ++ quote :: rest)) = none
  rw [unicodeEscape, hex4_hexDigits hlt16]
  show (if 0xD800 ≤ n ∧ n < 0xDC00 then _ else if 0xDC00 ≤ n ∧ n < 0xE000 then none
    else some (Char.ofNat n, _)) = none
  by_cases hhigh : 0xD800 ≤ n ∧ n < 0xDC00
  · rw [if_pos hhigh]
    -- what follows is not the number of a low surrogate
    have hnext : ∀ tail, points.flatMap write ++ quote :: rest = '\\' :: 'u' :: tail →
        ∃ m rest', hex4 tail = some (m, rest') ∧ ¬ IsLowPoint m := by
      intro tail htail
      cases points with
      | nil =>
        have hquote : quote = '\\' := (List.cons.inj htail).1
        exact absurd hquote (by decide)
      | cons m points =>
        have hm : ¬ IsLowPoint m := fun hlow =>
          (List.isChain_cons_cons.1 hchain).1 ⟨hhigh, hlow⟩
        rw [List.flatMap_cons, List.append_assoc] at htail
        exact h.notLow m (hlt m List.mem_cons_self) hm _ tail htail
    split
    · next tail htail =>
      obtain ⟨m, rest', hhex, hm⟩ := hnext tail htail
      rw [hhex]
      exact if_neg hm
    · rfl
  · rw [if_neg hhigh, if_pos ⟨by have := hn.1; omega, hn.2⟩]

/-- Code points are read back when they are a text. -/
theorem parseChars_points {write : ℕ → Text} (h : Escapes write) {points : List ℕ}
    (hlt : ∀ n ∈ points, n < 0x110000) (hchain : Decoded points) (rest : Text) {fuel : ℕ}
    (hfuel : points.length < fuel) :
    parseChars fuel (points.flatMap write ++ quote :: rest) =
      (ofPoints points).map fun text => (text, rest) := by
  induction points generalizing fuel with
  | nil =>
    obtain ⟨fuel, rfl⟩ : ∃ n, fuel = n + 1 := ⟨fuel - 1, by simp at hfuel; omega⟩
    rw [List.flatMap_nil, List.nil_append, parseChars, if_pos rfl]
    rfl
  | cons n points ih =>
    rw [List.length_cons] at hfuel
    obtain ⟨fuel, rfl⟩ : ∃ n, fuel = n + 1 := ⟨fuel - 1, by omega⟩
    obtain ⟨hn, hpoints⟩ := List.forall_mem_cons.1 hlt
    obtain ⟨c, tail, hhead, hc⟩ := h.head n hn
    have hrest := ih hpoints (List.isChain_cons.1 hchain).2 (show points.length < fuel by omega)
    -- what is written does not begin with the quotation mark
    have hstep : parseChars (fuel + 1) (write n ++ (points.flatMap write ++ quote :: rest)) =
        (parseChar (write n ++ (points.flatMap write ++ quote :: rest))).bind fun d =>
          (parseChars fuel d.2).bind fun chars => some (d.1 :: chars.1, chars.2) := by
      rw [hhead, List.cons_append, parseChars, if_neg hc]
      rfl
    rw [List.flatMap_cons, List.append_assoc, hstep]
    -- a lone surrogate is no character: neither side has a text
    by_cases hsurrogate : IsSurrogate n
    · have hvalid : ¬ n.isValidChar := by
        obtain ⟨hlow, hhigh⟩ := hsurrogate
        rw [Nat.isValidChar]
        omega
      rw [parseChar_surrogate h hsurrogate hpoints hchain, ofPoints, if_neg hvalid]
      rfl
    · have hvalid : n.isValidChar := by
        rw [IsSurrogate] at hsurrogate
        rw [Nat.isValidChar]
        omega
      have hchar : (Char.ofNat n).toNat = n := by
        rw [Char.ofNat, dif_pos hvalid]
        exact UInt32.toNat_ofNatLT ..
      have hparse := h.char (Char.ofNat n) (points.flatMap write ++ quote :: rest)
      rw [hchar] at hparse
      rw [hparse, Option.bind_some, hrest, ofPoints, if_pos hvalid]
      cases ofPoints points with
      | none => rfl
      | some text => rfl

/-! ### Objects -/

section Objects

variable {write : ℕ → Text} {gap : Text} {points : List ℕ} {fuel : ℕ}

theorem length_le_flatMap_write (h : Escapes write) (hlt : ∀ n ∈ points, n < 0x110000) :
    points.length ≤ (points.flatMap write).length := by
  induction points with
  | nil => exact Nat.le_refl 0
  | cons n points ih =>
    obtain ⟨hn, hpoints⟩ := List.forall_mem_cons.1 hlt
    obtain ⟨c, tail, hhead, -⟩ := h.head n hn
    have := ih hpoints
    rw [List.flatMap_cons, List.length_append, hhead, List.length_cons, List.length_cons]
    omega

theorem skip_append (hgap : gap.all isBlank = true) (text : Text) :
    skip (gap ++ text) = skip text := by
  induction gap with
  | nil => rfl
  | cons c gap ih =>
    obtain ⟨hc, hgap⟩ := Bool.and_eq_true_iff.1 hgap
    rw [List.cons_append, skip, List.dropWhile_cons_of_pos hc]
    exact ih hgap

theorem parseKey_skip {text text' : Text} (h : skip text = skip text') :
    parseKey text = parseKey text' := by
  rw [parseKey, parseKey, h]

theorem parseValue_points (h : Escapes write) (hgap : gap.all isBlank = true)
    (hlt : ∀ n ∈ points, n < 0x110000) (hchain : Decoded points) (rest : Text) :
    parseValue (fuel + 1) (gap ++ (pointsString write points ++ rest)) =
      (ofPoints points).map fun text => (.string text, rest) := by
  have htext : pointsString write points ++ rest =
      quote :: (points.flatMap write ++ quote :: rest) := by
    rw [pointsString, List.cons_append, List.append_assoc]
    rfl
  have hchars := parseChars_points h hlt hchain rest
    (show points.length < (points.flatMap write ++ quote :: rest).length + 1 by
      have := length_le_flatMap_write h hlt
      rw [List.length_append]
      omega)
  rw [parseValue_skip (skip_append hgap _), htext, parseValue, skip_cons _ (by decide)]
  show (if quote = quote then (parseChars _ _).map _ else _) = _
  rw [if_pos rfl, hchars, Option.map_map]
  rfl

/-- The members of an object, when each value is a text. -/
def textMembers (members : List (Text × List ℕ)) : Option (List (Text × Value)) :=
  members.mapM fun m => (ofPoints m.2).map fun text => (m.1, .string text)

theorem parseKey_gap {before : Text} (hbefore : before.all isBlank = true) (key rest : Text) :
    parseKey (before ++ (string key ++ ':' :: rest)) = some (key, rest) := by
  rw [parseKey_skip (skip_append hbefore _), parseKey_string]

theorem parseMembers_points (h : Escapes write) (hgap : gap.all isBlank = true)
    (m : Text × List ℕ) (members : List (Text × List ℕ))
    (hpoints : ∀ m' ∈ m :: members, (∀ n ∈ m'.2, n < 0x110000) ∧ Decoded m'.2)
    {before : Text} (hbefore : before.all isBlank = true) (rest : Text)
    (hfuel : members.length + 1 < fuel) :
    parseMembers fuel (before ++ (pointsMembers write gap (m :: members) ++ '\x7d' :: rest)) =
      (textMembers (m :: members)).map fun members => (members, rest) := by
  induction members generalizing m fuel before with
  -- the last member, with the brace behind it
  | nil =>
    obtain ⟨fuel, rfl⟩ : ∃ n, fuel = n + 2 := ⟨fuel - 2, by
      rw [List.length_nil] at hfuel
      omega⟩
    obtain ⟨hlt, hchain⟩ := hpoints m List.mem_cons_self
    have htext : pointsMembers write gap [m] ++ '\x7d' :: rest =
        string m.1 ++ ':' :: (gap ++ (pointsString write m.2 ++ '\x7d' :: rest)) := by
      rw [pointsMembers, pointsMember, List.append_assoc, List.cons_append, List.append_assoc]
    have hkey := parseKey_gap hbefore m.1 (gap ++ (pointsString write m.2 ++ '\x7d' :: rest))
    have hvalue := @parseValue_points write gap m.2 fuel h hgap hlt hchain ('\x7d' :: rest)
    rw [htext, textMembers, List.mapM_cons, List.mapM_nil]
    -- a value with a lone surrogate is refused, and so is the object
    cases hpoints : ofPoints m.2 with
    | none =>
      rw [hpoints] at hvalue
      exact parseMembers_none hkey hvalue
    | some text =>
      rw [hpoints] at hvalue
      exact parseMembers_last hkey hvalue (skip_cons _ (by decide))
  | cons k members ih =>
    obtain ⟨fuel, rfl⟩ : ∃ n, fuel = n + 2 := ⟨fuel - 2, by
      rw [List.length_cons] at hfuel
      omega⟩
    rw [List.length_cons] at hfuel
    obtain ⟨hm, hpoints⟩ := List.forall_mem_cons.1 hpoints
    have htext : pointsMembers write gap (m :: k :: members) ++ '\x7d' :: rest =
        string m.1 ++ ':' :: (gap ++ (pointsString write m.2 ++
          ',' :: (gap ++ (pointsMembers write gap (k :: members) ++ '\x7d' :: rest)))) := by
      simp only [pointsMembers, pointsMember, List.append_assoc, List.cons_append]
    have htail := @ih (fuel + 1) k hpoints gap hgap (by omega)
    have hkey := parseKey_gap hbefore m.1 (gap ++ (pointsString write m.2 ++
      ',' :: (gap ++ (pointsMembers write gap (k :: members) ++ '\x7d' :: rest))))
    have hvalue := @parseValue_points write gap m.2 fuel h hgap hm.1 hm.2
      (',' :: (gap ++ (pointsMembers write gap (k :: members) ++ '\x7d' :: rest)))
    rw [htext, textMembers, List.mapM_cons]
    cases hpoints : ofPoints m.2 with
    | none =>
      rw [hpoints] at hvalue
      exact parseMembers_none hkey hvalue
    | some text =>
      rw [hpoints] at hvalue
      rw [parseMembers_next hkey hvalue (skip_cons _ (by decide)), htail, textMembers]
      cases (k :: members).mapM fun m => (ofPoints m.2).map fun text => (m.1, Value.string text) with
      | none => rfl
      | some values => rfl

theorem pointsMembers_head (write : ℕ → Text) (gap : Text) (m : Text × List ℕ)
    (members : List (Text × List ℕ)) :
    ∃ rest, pointsMembers write gap (m :: members) = quote :: rest := by
  cases members with
  | nil => exact ⟨_, rfl⟩
  | cons k members => exact ⟨_, rfl⟩

theorem length_le_pointsMembers (write : ℕ → Text) (gap : Text)
    (members : List (Text × List ℕ)) :
    members.length ≤ (pointsMembers write gap members).length := by
  induction members with
  | nil => exact Nat.le_refl 0
  | cons m members ih =>
    cases members with
    | nil =>
      rw [pointsMembers, pointsMember, List.length_append]
      show 0 + 1 ≤ _ + (_ + 1)
      omega
    | cons k members =>
      have hlength : (',' :: (gap ++ pointsMembers write gap (k :: members))).length =
          gap.length + (pointsMembers write gap (k :: members)).length + 1 := by
        rw [List.length_cons, List.length_append]
      rw [pointsMembers, List.length_append, hlength, List.length_cons]
      omega

/-- **An object is read back when each of its values is a text.** -/
theorem parse_pointsObject (h : Escapes write) (hgap : gap.all isBlank = true)
    {members : List (Text × List ℕ)}
    (hpoints : ∀ m ∈ members, (∀ n ∈ m.2, n < 0x110000) ∧ Decoded m.2) {after : Text}
    (hafter : after.all isBlank = true) :
    parse (pointsObject write gap members ++ after) =
      (textMembers members).map fun members => .object members := by
  have hskip : skip after = [] := by
    rw [← List.append_nil after, skip_append hafter]
    rfl
  have htext : pointsObject write gap members ++ after =
      '\x7b' :: (pointsMembers write gap members ++ '\x7d' :: after) := by
    rw [pointsObject, List.cons_append, List.append_assoc]
    rfl
  have hparse : parseValue ((pointsObject write gap members ++ after).length + 1)
      (pointsObject write gap members ++ after) =
        (textMembers members).map fun members => (.object members, after) := by
    rw [htext]
    cases members with
    | nil => exact parseValue_noMembers (skip_cons _ (by decide))
    | cons m members =>
      have hlength := length_le_pointsMembers write gap (m :: members)
      have hmembers := @parseMembers_points write gap
        ('\x7b' :: (pointsMembers write gap (m :: members) ++ '\x7d' :: after)).length h hgap m
        members hpoints [] rfl after (by
          rw [List.length_cons] at hlength ⊢
          rw [List.length_append, List.length_cons]
          omega)
      obtain ⟨tail, htail⟩ := pointsMembers_head write gap m members
      rw [List.nil_append] at hmembers
      -- the first key starts with a quote
      have hself : skip (pointsMembers write gap (m :: members) ++ '\x7d' :: after) =
          pointsMembers write gap (m :: members) ++ '\x7d' :: after := by
        rw [htail, List.cons_append, skip_cons _ (by decide)]
      have hquote : skip (pointsMembers write gap (m :: members) ++ '\x7d' :: after) =
          quote :: (tail ++ '\x7d' :: after) := by
        rw [hself, htail, List.cons_append]
      rw [parseValue_members hquote (by decide), hself, hmembers, Option.map_map]
      rfl
  rw [parse, hparse]
  cases textMembers members with
  | none => rfl
  | some members =>
    show (if skip after = [] then some (Value.object members) else none) = _
    rw [if_pos hskip]
    rfl

end Objects

/-! ### The two ways of writing -/

theorem escape_notLow {c : Char} {text rest : Text} (h : escape c ++ text = '\\' :: 'u' :: rest) :
    ∃ m rest', hex4 rest = some (m, rest') ∧ ¬ IsLowPoint m := by
  -- the escape of a control character is no low surrogate
  have hcontrol : c.toNat < 0x20 →
      '\\' :: 'u' :: '0' :: '0' :: Nat.digitChar (c.toNat / 16) ::
        Nat.digitChar (c.toNat % 16) :: text = '\\' :: 'u' :: rest →
      ∃ m rest', hex4 rest = some (m, rest') ∧ ¬ IsLowPoint m := by
    intro hc heq
    refine ⟨c.toNat, text, ?_, fun hlow => ?_⟩
    · have hhex := @hex4_hexDigits c.toNat (by omega) text
      rw [hexDigits_control hc] at hhex
      rw [← (List.cons.inj (List.cons.inj heq).2).2]
      exact hhex
    · have := hlow.1
      omega
  -- the other escapes have no `u`
  have hother : ∀ d : Char, d ≠ 'u' → '\\' :: d :: text = '\\' :: 'u' :: rest →
      ∃ m rest', hex4 rest = some (m, rest') ∧ ¬ IsLowPoint m := by
    intro d hd heq
    exact absurd (List.cons.inj (List.cons.inj heq).2).1 hd
  unfold escape at h
  split_ifs at h with h1 h2 h3 h4 h5 h6 h7 h8
  · exact hother _ (by decide) h
  · exact hother _ (by decide) h
  · exact hother _ (by decide) h
  · exact hother _ (by decide) h
  · exact hother _ (by decide) h
  · exact hother _ (by decide) h
  · exact hother _ (by decide) h
  · exact hcontrol h8 h
  · exact absurd (List.cons.inj h).1 h2

theorem escapeUnit_notLow {n : ℕ} (hn : n < 0x10000) (hlow : ¬ IsLowPoint n) {text rest : Text}
    (h : escapeUnit n ++ text = '\\' :: 'u' :: rest) :
    ∃ m rest', hex4 rest = some (m, rest') ∧ ¬ IsLowPoint m := by
  refine ⟨n, text, ?_, hlow⟩
  have heq : hexDigits n ++ text = rest := (List.cons.inj (List.cons.inj h).2).2
  rw [← heq]
  exact hex4_hexDigits hn text

theorem ofNat_of_not_surrogate {n : ℕ} (hn : n < 0x110000) (h : ¬ IsSurrogate n) :
    (Char.ofNat n).toNat = n := by
  have hvalid : n.isValidChar := by
    rw [IsSurrogate] at h
    rw [Nat.isValidChar]
    omega
  rw [Char.ofNat, dif_pos hvalid]
  exact UInt32.toNat_ofNatLT ..

theorem not_isSurrogate_toNat (c : Char) : ¬ IsSurrogate c.toNat := by
  rintro ⟨hlow, hhigh⟩
  rcases Utf8.char_range c with h | h
  · omega
  · omega

/-- `JSON.stringify` -/
theorem escapes_escapePoint : Escapes escapePoint where
  char c text := by
    rw [escapePoint, if_neg (not_isSurrogate_toNat c), Char.ofNat_toNat]
    exact parseChar_escape c text
  surrogate _ hn := if_pos hn
  head n _ := by
    unfold escapePoint
    split
    · exact ⟨_, _, rfl, by decide⟩
    · exact escape_head _
  notLow n _ hlow text rest h := by
    unfold escapePoint at h
    split at h
    · next hn =>
      have := hn.2
      exact escapeUnit_notLow (by omega) hlow h
    · exact escape_notLow h

theorem escapeUnit_head (n : ℕ) : ∃ c rest, escapeUnit n = c :: rest ∧ c ≠ quote :=
  ⟨_, _, rfl, by decide⟩

/-- The numbers of two halves -/
theorem parseChar_units {high low : ℕ} (hhigh : IsHighPoint high) (hlow : IsLowPoint low)
    (text : Text) :
    parseChar (escapeUnit high ++ (escapeUnit low ++ text)) =
      some (Char.ofNat (0x10000 + (high - 0xD800) * 0x400 + (low - 0xDC00)), text) := by
  have hlt : high < 0x10000 ∧ low < 0x10000 := by
    have h1 := hhigh.2
    have h2 := hlow.2
    omega
  show unicodeEscape (hexDigits high ++ '\\' :: 'u' :: (hexDigits low ++ text)) = _
  rw [unicodeEscape, hex4_hexDigits hlt.1]
  show (if 0xD800 ≤ high ∧ high < 0xDC00 then
    (hex4 (hexDigits low ++ text)).bind fun r =>
      if 0xDC00 ≤ r.1 ∧ r.1 < 0xE000 then
        some (Char.ofNat (0x10000 + (high - 0xD800) * 0x400 + (r.1 - 0xDC00)), r.2)
      else none
    else _) = _
  rw [if_pos ⟨hhigh.1, hhigh.2⟩, hex4_hexDigits hlt.2, Option.bind_some]
  exact if_pos hlow

theorem parseChar_pair {n : ℕ} (hn : 0x10000 ≤ n) (hlt : n < 0x110000) (text : Text) :
    parseChar (escapeUnit (0xD800 + (n - 0x10000) / 0x400) ++
      escapeUnit (0xDC00 + (n - 0x10000) % 0x400) ++ text) = some (Char.ofNat n, text) := by
  have hvalue : 0x10000 + (0xD800 + (n - 0x10000) / 0x400 - 0xD800) * 0x400 +
      (0xDC00 + (n - 0x10000) % 0x400 - 0xDC00) = n := by
    omega
  rw [List.append_assoc, parseChar_units ⟨by omega, by omega⟩ ⟨by omega, by omega⟩, hvalue]

theorem parseChar_escapeUnit {c : Char} (hc : c.toNat < 0x10000) (text : Text) :
    parseChar (escapeUnit c.toNat ++ text) = some (c, text) := by
  have hsurrogate := not_isSurrogate_toNat c
  rw [IsSurrogate] at hsurrogate
  show unicodeEscape (hexDigits c.toNat ++ text) = _
  rw [unicodeEscape, hex4_hexDigits hc]
  show (if 0xD800 ≤ c.toNat ∧ c.toNat < 0xDC00 then _
    else if 0xDC00 ≤ c.toNat ∧ c.toNat < 0xE000 then none
    else some (Char.ofNat c.toNat, text)) = _
  rw [if_neg (by omega), if_neg (by omega), Char.ofNat_toNat]

theorem parseChar_asciiPoint (c : Char) (text : Text) :
    parseChar (asciiPoint c.toNat ++ text) = some (c, text) := by
  have hself : ∀ n : ℕ, c.toNat = n → Char.ofNat n = c := by
    rintro n rfl
    exact Char.ofNat_toNat c
  unfold asciiPoint
  split_ifs with h1 h2 h3 h4 h5 h6 h7 h8 h9
  · rw [← hself _ h1]
    rfl
  · rw [← hself _ h2]
    rfl
  · rw [← hself _ h3]
    rfl
  · rw [← hself _ h4]
    rfl
  · rw [← hself _ h5]
    rfl
  · rw [← hself _ h6]
    rfl
  · rw [← hself _ h7]
    rfl
  -- a character that stands for itself
  · have hback : c ≠ '\\' := by
      rintro rfl
      exact h2 rfl
    rw [Char.ofNat_toNat, List.singleton_append, parseChar.eq_def]
    show (if c = '\\' then _ else if c.toNat < 0x20 then none else some (c, text)) = _
    rw [if_neg hback, if_neg (by omega)]
  -- one unit, then a pair of surrogates
  · exact parseChar_escapeUnit h9 text
  · rw [parseChar_pair (by omega) (by have := Utf8.char_range c; omega), Char.ofNat_toNat]

theorem asciiPoint_head (n : ℕ) : ∃ c rest, asciiPoint n = c :: rest ∧ c ≠ quote := by
  unfold asciiPoint
  split_ifs with h1 h2 h3 h4 h5 h6 h7 h8 h9
  · exact ⟨_, _, rfl, by decide⟩
  · exact ⟨_, _, rfl, by decide⟩
  · exact ⟨_, _, rfl, by decide⟩
  · exact ⟨_, _, rfl, by decide⟩
  · exact ⟨_, _, rfl, by decide⟩
  · exact ⟨_, _, rfl, by decide⟩
  · exact ⟨_, _, rfl, by decide⟩
  · refine ⟨_, _, rfl, fun hquote => h1 ?_⟩
    have hnat := congrArg Char.toNat hquote
    rwa [ofNat_of_not_surrogate (by omega) (by rw [IsSurrogate]; omega)] at hnat
  · exact escapeUnit_head n
  · exact ⟨_, _, rfl, by decide⟩

theorem asciiPoint_notLow {n : ℕ} (hlt : n < 0x110000) (hlow : ¬ IsLowPoint n) {text rest : Text}
    (h : asciiPoint n ++ text = '\\' :: 'u' :: rest) :
    ∃ m rest', hex4 rest = some (m, rest') ∧ ¬ IsLowPoint m := by
  have hother : ∀ d : Char, d ≠ 'u' → ['\\', d] ++ text = '\\' :: 'u' :: rest →
      ∃ m rest', hex4 rest = some (m, rest') ∧ ¬ IsLowPoint m := by
    intro d hd heq
    exact absurd (List.cons.inj (List.cons.inj heq).2).1 hd
  unfold asciiPoint at h
  split_ifs at h with h1 h2 h3 h4 h5 h6 h7 h8 h9
  · exact hother _ (by decide) h
  · exact hother _ (by decide) h
  · exact hother _ (by decide) h
  · exact hother _ (by decide) h
  · exact hother _ (by decide) h
  · exact hother _ (by decide) h
  · exact hother _ (by decide) h
  · have hnat := congrArg Char.toNat (List.cons.inj h).1
    rw [ofNat_of_not_surrogate (by omega) (by rw [IsSurrogate]; omega)] at hnat
    exact absurd hnat h2
  · exact escapeUnit_notLow h9 hlow h
  · rw [List.append_assoc] at h
    refine escapeUnit_notLow (by omega) (fun hlow => ?_) h
    have := hlow.1
    omega

/-- `json.dumps` of a string -/
theorem escapes_asciiPoint : Escapes asciiPoint where
  char := parseChar_asciiPoint
  surrogate n hn := by
    obtain ⟨hlow, hhigh⟩ := hn
    rw [asciiPoint, if_neg (by omega), if_neg (by omega), if_neg (by omega), if_neg (by omega),
      if_neg (by omega), if_neg (by omega), if_neg (by omega), if_neg (by omega),
      if_pos (by omega)]
  head n _ := asciiPoint_head n
  notLow _ hlt hlow _ _ h := asciiPoint_notLow hlt hlow h

end Json
