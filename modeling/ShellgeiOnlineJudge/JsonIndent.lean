/-
JSON on several lines (the JSON library, part 4).

A value may be laid out with any blanks between its parts.  `Value.indented` writes each
item and each member on a line of its own, two blanks further to the right than the
bracket around it.

* `parse_laid` — a value is read back, however it is laid out;
* `laid_indented` — and the lines of `Value.indented` are such a layout.
-/
import Mathlib.Data.List.DropRight
import ShellgeiOnlineJudge.JsonValue

namespace Json

open Utf8

/-- Blanks only -/
def Blank (text : Text) : Prop := ∀ c ∈ text, isBlank c = true

/-! ### Layouts -/

mutual

/-- A value with blanks between its parts -/
inductive Laid : Value → Text → Prop
  | null : Laid .null Json.null
  | bool (b : Bool) : Laid (.bool b) (Json.bool b)
  | number (d : Decimal) : Laid (.number d) d.write
  | string (text : Text) : Laid (.string text) (Json.string text)
  | emptyArray {blanks : Text} (h : Blank blanks) : Laid (.array []) ('[' :: (blanks ++ [']']))
  | array {items : List Value} {text : Text} (h : LaidItems items text) :
      Laid (.array items) ('[' :: (text ++ [']']))
  | emptyObject {blanks : Text} (h : Blank blanks) :
      Laid (.object []) ('\x7b' :: (blanks ++ ['\x7d']))
  | object {members : List (Text × Value)} {text : Text} (h : LaidMembers members text) :
      Laid (.object members) ('\x7b' :: (text ++ ['\x7d']))

/-- The items of an array that is not empty -/
inductive LaidItems : List Value → Text → Prop
  | last {v : Value} {before text after : Text} (hbefore : Blank before) (h : Laid v text)
      (hafter : Blank after) : LaidItems [v] (before ++ (text ++ after))
  | cons {v : Value} {items : List Value} {before text after rest : Text}
      (hbefore : Blank before) (h : Laid v text) (hafter : Blank after)
      (hrest : LaidItems items rest) :
      LaidItems (v :: items) (before ++ (text ++ (after ++ ',' :: rest)))

/-- The members of an object that is not empty -/
inductive LaidMembers : List (Text × Value) → Text → Prop
  | last {key : Text} {v : Value} {before between text after : Text} (hbefore : Blank before)
      (hbetween : Blank between) (h : Laid v text) (hafter : Blank after) :
      LaidMembers [(key, v)] (before ++ (Json.string key ++ ':' :: (between ++ (text ++ after))))
  | cons {key : Text} {v : Value} {members : List (Text × Value)}
      {before between text after rest : Text} (hbefore : Blank before)
      (hbetween : Blank between) (h : Laid v text) (hafter : Blank after)
      (hrest : LaidMembers members rest) :
      LaidMembers ((key, v) :: members)
        (before ++ (Json.string key ++ ':' :: (between ++ (text ++ (after ++ ',' :: rest)))))

end

/-! ### Blanks -/

section

variable {blanks text rest : Text} {v : Value} {fuel : ℕ}

theorem blank_nil : Blank [] := fun _ hc => nomatch hc

theorem skip_blanks (h : Blank blanks) : skip (blanks ++ rest) = skip rest := by
  induction blanks with
  | nil => rfl
  | cons c blanks ih =>
    obtain ⟨hc, hblanks⟩ := List.forall_mem_cons.1 h
    rw [List.cons_append, skip, List.dropWhile_cons_of_pos hc]
    exact ih hblanks

theorem stops_of_blank (h : Blank blanks) (hrest : Stops isNumberChar rest) :
    Stops isNumberChar (blanks ++ rest) := by
  cases blanks with
  | nil => exact hrest
  | cons c blanks =>
    have hc := h c List.mem_cons_self
    intro d hd
    obtain rfl := Option.some.inj hd
    have hfour : c = ' ' ∨ c = '\n' ∨ c = '\r' ∨ c = '\t' := by
      simpa [isBlank, or_assoc] using hc
    rcases hfour with rfl | rfl | rfl | rfl
    · decide
    · decide
    · decide
    · decide

theorem Laid.head (h : Laid v text) :
    ∃ c rest, text = c :: rest ∧ isBlank c = false ∧ c ≠ ']' ∧ c ≠ '\x7d' := by
  cases h with
  | null => exact Value.write_head .null
  | bool b => exact Value.write_head (.bool b)
  | number d => exact Value.write_head (.number d)
  | string text => exact Value.write_head (.string text)
  | emptyArray _ => exact ⟨_, _, rfl, by decide, by decide, by decide⟩
  | array _ => exact ⟨_, _, rfl, by decide, by decide, by decide⟩
  | emptyObject _ => exact ⟨_, _, rfl, by decide, by decide, by decide⟩
  | object _ => exact ⟨_, _, rfl, by decide, by decide, by decide⟩

theorem skip_laid (h : Laid v text) (hblanks : Blank blanks) :
    skip (blanks ++ (text ++ rest)) = text ++ rest := by
  obtain ⟨c, tail, rfl, hc, -⟩ := h.head
  rw [skip_blanks hblanks, List.cons_append, skip_cons _ hc]

theorem parseValue_blanks (h : Laid v text) (hblanks : Blank blanks) :
    parseValue fuel (blanks ++ (text ++ rest)) = parseValue fuel (text ++ rest) :=
  parseValue_skip ((skip_laid h hblanks).trans (skip_laid h blank_nil).symm)

theorem skip_string_blanks (key : Text) (hblanks : Blank blanks) :
    skip (blanks ++ (Json.string key ++ rest)) = Json.string key ++ rest := by
  rw [skip_blanks hblanks, skip_string]

theorem parseKey_blanks (key : Text) (hblanks : Blank blanks) :
    parseKey (blanks ++ (Json.string key ++ ':' :: rest)) = some (key, rest) := by
  have hskip : skip (blanks ++ (Json.string key ++ ':' :: rest)) =
      skip (Json.string key ++ ':' :: rest) := by
    rw [skip_string_blanks key hblanks, skip_string]
  rw [parseKey, hskip, ← parseKey, parseKey_string]

theorem stops_cons {c : Char} (h : c = ',' ∨ c = ']' ∨ c = '\x7d') :
    Stops isNumberChar (c :: rest) :=
  (ends_cons rest h).stops

theorem LaidItems.head {items : List Value} (h : LaidItems items text) :
    ∃ c tail, skip (text ++ rest) = c :: tail ∧ c ≠ ']' := by
  have hfirst : ∀ {v : Value} {before text after : Text}, Blank before → Laid v text →
      ∃ c tail, skip (before ++ (text ++ after) ++ rest) = c :: tail ∧ c ≠ ']' := by
    intro v before text after hbefore h
    rw [List.append_assoc, List.append_assoc, skip_laid h hbefore]
    obtain ⟨c, tail, rfl, -, hbracket, -⟩ := h.head
    exact ⟨c, tail ++ (after ++ rest), rfl, hbracket⟩
  cases h with
  | last hbefore h hafter => exact hfirst hbefore h
  | cons hbefore h hafter hrest => exact hfirst hbefore h

theorem LaidMembers.head {members : List (Text × Value)} (h : LaidMembers members text) :
    ∃ tail, skip (text ++ rest) = quote :: tail := by
  have hfirst : ∀ {key before after : Text}, Blank before →
      ∃ tail, skip (before ++ (Json.string key ++ after) ++ rest) = quote :: tail := by
    intro key before after hbefore
    rw [List.append_assoc, List.append_assoc, skip_string_blanks key hbefore]
    exact ⟨_, rfl⟩
  cases h with
  | last hbefore hbetween h hafter => exact hfirst hbefore
  | cons hbefore hbetween h hafter hrest => exact hfirst hbefore

end

/-! ### Reading -/

/-- What the parser makes of any layout, with enough fuel. -/
def ReadsLaid (fuel : ℕ) : Prop :=
  ∀ v text rest, Laid v text → text.length ≤ fuel → Stops isNumberChar rest →
    parseValue fuel (text ++ rest) = some (v, rest)

section

variable {fuel : ℕ} {rest text : Text}

theorem parseItems_laid {items : List Value} (hfuel : ∀ n < fuel, ReadsLaid n)
    (h : LaidItems items text) (hlen : text.length < fuel) :
    parseItems fuel (text ++ ']' :: rest) = some (items, rest) := by
  induction items generalizing fuel text with
  | nil => cases h
  | cons v items ih =>
    obtain ⟨fuel, rfl⟩ : ∃ n, fuel = n + 1 := ⟨fuel - 1, by omega⟩
    cases h with
    | @last _ before text after hbefore h hafter =>
      simp only [List.length_append] at hlen
      -- a number ends before the blanks, the comma and the bracket
      have hend : Stops isNumberChar (after ++ ']' :: rest) :=
        stops_of_blank hafter (stops_cons (.inr (.inl rfl)))
      rw [List.append_assoc, List.append_assoc, parseItems, parseValue_blanks h hbefore,
        hfuel fuel (by omega) v text _ h (by omega) hend]
      simp only [Option.bind_eq_bind, Option.bind_some]
      rw [skip_blanks hafter, skip_cons _ (by decide)]
      rfl
    | @cons _ _ before text after tail hbefore h hafter hrest =>
      simp only [List.length_append, List.length_cons] at hlen
      have htail := @ih fuel tail (fun n hn => hfuel n (by omega)) hrest (by omega)
      have hend : Stops isNumberChar (after ++ ',' :: (tail ++ ']' :: rest)) :=
        stops_of_blank hafter (stops_cons (.inl rfl))
      rw [List.append_assoc, List.append_assoc, List.append_assoc, List.cons_append, parseItems,
        parseValue_blanks h hbefore, hfuel fuel (by omega) v text _ h (by omega) hend]
      simp only [Option.bind_eq_bind, Option.bind_some]
      rw [skip_blanks hafter, skip_cons _ (by decide)]
      show (parseItems fuel (tail ++ ']' :: rest)).map _ = _
      rw [htail]
      rfl

theorem parseMembers_laid {members : List (Text × Value)} (hfuel : ∀ n < fuel, ReadsLaid n)
    (h : LaidMembers members text) (hlen : text.length < fuel) :
    parseMembers fuel (text ++ '\x7d' :: rest) = some (members, rest) := by
  induction members generalizing fuel text with
  | nil => cases h
  | cons m members ih =>
    obtain ⟨fuel, rfl⟩ : ∃ n, fuel = n + 1 := ⟨fuel - 1, by omega⟩
    cases h with
    | @last key v before between text after hbefore hbetween h hafter =>
      simp only [List.length_append, List.length_cons] at hlen
      have hend : Stops isNumberChar (after ++ '\x7d' :: rest) :=
        stops_of_blank hafter (stops_cons (.inr (.inr rfl)))
      rw [List.append_assoc, List.append_assoc, List.cons_append, List.append_assoc,
        List.append_assoc, parseMembers, parseKey_blanks key hbefore]
      show (parseValue fuel (between ++ (text ++ (after ++ '\x7d' :: rest)))).bind _ = _
      rw [parseValue_blanks h hbetween, hfuel fuel (by omega) v text _ h (by omega) hend]
      simp only [Option.bind_some]
      rw [skip_blanks hafter, skip_cons _ (by decide)]
      rfl
    -- one member, a comma, and the rest of the members
    | @cons key v _ before between text after tail hbefore hbetween h hafter hrest =>
      simp only [List.length_append, List.length_cons] at hlen
      have htail := @ih fuel tail (fun n hn => hfuel n (by omega)) hrest (by omega)
      have hend : Stops isNumberChar (after ++ ',' :: (tail ++ '\x7d' :: rest)) :=
        stops_of_blank hafter (stops_cons (.inl rfl))
      rw [List.append_assoc, List.append_assoc, List.cons_append, List.append_assoc,
        List.append_assoc, List.append_assoc, List.cons_append, parseMembers,
        parseKey_blanks key hbefore]
      show (parseValue fuel (between ++ (text ++ (after ++ ',' :: (tail ++ '\x7d' :: rest))))).bind
        _ = _
      rw [parseValue_blanks h hbetween, hfuel fuel (by omega) v text _ h (by omega) hend]
      simp only [Option.bind_some]
      rw [skip_blanks hafter, skip_cons _ (by decide)]
      show (parseMembers fuel (tail ++ '\x7d' :: rest)).map _ = _
      rw [htail]
      rfl

theorem skip_skip (text : Text) : skip (skip text) = skip text := List.dropWhile_idempotent ..

theorem parseItems_skip (fuel : ℕ) (text : Text) :
    parseItems fuel (skip text) = parseItems fuel text := by
  cases fuel with
  | zero => rfl
  | succ fuel => rw [parseItems, parseItems, parseValue_skip (skip_skip text)]

theorem parseMembers_skip (fuel : ℕ) (text : Text) :
    parseMembers fuel (skip text) = parseMembers fuel text := by
  cases fuel with
  | zero => rfl
  | succ fuel =>
    have hkey : parseKey (skip text) = parseKey text := by
      rw [parseKey, skip_skip, ← parseKey]
    rw [parseMembers, parseMembers, hkey]

theorem parseValue_laidArray {items : List Value} (hfuel : ∀ n < fuel, ReadsLaid n)
    (h : LaidItems items text) (hlen : text.length < fuel) :
    parseValue (fuel + 1) ('[' :: (text ++ ']' :: rest)) = some (.array items, rest) := by
  have hitems : parseItems fuel (text ++ ']' :: rest) = some (items, rest) :=
    parseItems_laid hfuel h hlen
  rw [← parseItems_skip] at hitems
  -- the first item does not start with the bracket that closes an empty array
  obtain ⟨c, tail, hskip, hbracket⟩ :
    ∃ c tail, skip (text ++ ']' :: rest) = c :: tail ∧ c ≠ ']' := h.head
  rw [parseValue_items hskip hbracket, hitems]
  rfl

theorem parseValue_laidObject {members : List (Text × Value)} (hfuel : ∀ n < fuel, ReadsLaid n)
    (h : LaidMembers members text) (hlen : text.length < fuel) :
    parseValue (fuel + 1) ('\x7b' :: (text ++ '\x7d' :: rest)) =
      some (.object members, rest) := by
  have hmembers : parseMembers fuel (text ++ '\x7d' :: rest) = some (members, rest) :=
    parseMembers_laid hfuel h hlen
  rw [← parseMembers_skip] at hmembers
  -- the first key starts with a quote
  obtain ⟨tail, hskip⟩ : ∃ tail, skip (text ++ '\x7d' :: rest) = '"' :: tail := h.head
  rw [parseValue_members hskip (by decide), hmembers]
  rfl

theorem readsLaid (fuel : ℕ) : ReadsLaid fuel := by
  induction fuel using Nat.strongRecOn with
  | ind fuel ih =>
    intro v text rest h hlen hrest
    obtain ⟨c, tail, htext, -⟩ := h.head
    obtain ⟨fuel, rfl⟩ : ∃ n, fuel = n + 1 := ⟨fuel - 1, by
      rw [htext, List.length_cons] at hlen
      omega⟩
    -- by strong induction, since items and members are read with less fuel
    have hfuel : ∀ n < fuel, ReadsLaid n := fun n hn => ih n (by omega)
    cases h with
    | null => exact parseValue_scalar (v := .null) rfl (by decide) (by decide) (by decide) rfl
    | bool b =>
      cases b with
      | true =>
        exact parseValue_scalar (v := .bool true) rfl (by decide) (by decide) (by decide) rfl
      | false =>
        exact parseValue_scalar (v := .bool false) rfl (by decide) (by decide) (by decide) rfl
    | number d =>
      obtain ⟨c, tail, heq, hc⟩ := d.write_head
      obtain ⟨-, -, -, hquote, hbracket, hbrace, -⟩ := sign_or_digit hc
      exact parseValue_scalar (v := .number d) heq hquote hbracket hbrace
        (parseScalar_number d hrest)
    | string text => exact parseValue_string
    | @emptyArray blanks h =>
      have hskip : skip (blanks ++ ']' :: rest) = ']' :: rest := by
        rw [skip_blanks h, skip_cons _ (by decide)]
      rw [List.cons_append, List.append_assoc]
      exact parseValue_noItems hskip
    | array h =>
      rw [List.length_cons, List.length_append, List.length_singleton] at hlen
      rw [List.cons_append, List.append_assoc]
      exact parseValue_laidArray hfuel h (by omega)
    | @emptyObject blanks h =>
      have hskip : skip (blanks ++ '\x7d' :: rest) = '\x7d' :: rest := by
        rw [skip_blanks h, skip_cons _ (by decide)]
      rw [List.cons_append, List.append_assoc]
      exact parseValue_noMembers hskip
    | object h =>
      rw [List.length_cons, List.length_append, List.length_singleton] at hlen
      rw [List.cons_append, List.append_assoc]
      exact parseValue_laidObject hfuel h (by omega)

end

/-- **A value is read back from any layout.** -/
theorem parse_laid {v : Value} {text before after : Text} (h : Laid v text)
    (hbefore : Blank before) (hafter : Blank after) :
    parse (before ++ (text ++ after)) = some v := by
  have hread := readsLaid ((before ++ (text ++ after)).length + 1) v text after h
    (by
      simp only [List.length_append]
      omega)
    (by
      rw [← List.append_nil after]
      exact stops_of_blank hafter fun c hc => nomatch hc)
  have hskip : skip after = [] := by
    rw [← List.append_nil after]
    exact skip_blanks hafter
  rw [parse, parseValue_blanks h hbefore, hread]
  show (if skip after = [] then some v else none) = _
  rw [if_pos hskip]

/-! ### Lines -/

/-- A line break, and two blanks for each bracket around the next line -/
def newline (level : ℕ) : Text := '\n' :: List.replicate (2 * level) ' '

/-- The lines inside a bracket -/
def lines (level : ℕ) (parts : List Text) : Text :=
  newline (level + 1) ++ ((',' :: newline (level + 1)).intercalate parts ++ newline level)

mutual

/-- `json.dumps(value, ensure_ascii=False, indent=2)`, inside a number of brackets -/
def Value.indented : ℕ → Value → Text
  | _, .null => Json.null
  | _, .bool b => Json.bool b
  | _, .number d => d.write
  | _, .string text => Json.string text
  | _, .array [] => "[]".toList
  | level, .array (v :: items) =>
    '[' :: (lines level (indentedItems (level + 1) (v :: items)) ++ [']'])
  | _, .object [] => ['\x7b', '\x7d']
  | level, .object (m :: members) =>
    '\x7b' :: (lines level (indentedMembers (level + 1) (m :: members)) ++ ['\x7d'])
termination_by structural _ v => v

/-- The texts of the items at a level. -/
def indentedItems : ℕ → List Value → List Text
  | _, [] => []
  | level, v :: rest => v.indented level :: indentedItems level rest
termination_by structural _ l => l

/-- The texts of the members at a level. -/
def indentedMembers : ℕ → List (Text × Value) → List Text
  | _, [] => []
  | level, m :: rest => indentedMember level m :: indentedMembers level rest
termination_by structural _ l => l

/-- The text of a member at a level. -/
def indentedMember : ℕ → Text × Value → Text
  | level, (key, v) => Json.string key ++ ':' :: ' ' :: v.indented level
termination_by structural _ m => m

end

theorem blank_newline (level : ℕ) : Blank (newline level) := by
  intro c hc
  rcases List.mem_cons.1 hc with rfl | hc
  · decide
  · rw [(List.mem_replicate.1 hc).2]
    decide

theorem laidItems_lines {level : ℕ} {v : Value} {items : List Value} {before after : Text}
    (hbefore : Blank before) (hafter : Blank after)
    (h : ∀ w ∈ v :: items, Laid w (w.indented level)) :
    LaidItems (v :: items)
      (before ++ ((',' :: newline level).intercalate (indentedItems level (v :: items)) ++ after)) := by
  induction items generalizing v before with
  | nil =>
    rw [indentedItems, indentedItems, List.intercalate_singleton]
    exact .last hbefore (h v List.mem_cons_self) hafter
  | cons w items ih =>
    have hrest := ih (blank_newline level) fun u hu => h u (List.mem_cons_of_mem v hu)
    rw [indentedItems, indentedItems, List.intercalate_cons_cons, ← indentedItems,
      List.append_assoc, List.append_assoc]
    exact .cons hbefore (h v List.mem_cons_self) blank_nil hrest

theorem laidMembers_lines {level : ℕ} {m : Text × Value} {members : List (Text × Value)}
    {before after : Text} (hbefore : Blank before) (hafter : Blank after)
    (h : ∀ k ∈ m :: members, Laid k.2 (k.2.indented level)) :
    LaidMembers (m :: members)
      (before ++ ((',' :: newline level).intercalate (indentedMembers level (m :: members)) ++
        after)) := by
  have hblank : Blank [' '] := by
    intro c hc
    rw [List.mem_singleton.1 hc]
    decide
  induction members generalizing m before with
  | nil =>
    obtain ⟨key, v⟩ := m
    rw [indentedMembers, indentedMembers, List.intercalate_singleton, indentedMember,
      List.append_assoc]
    exact .last hbefore hblank (h _ List.mem_cons_self) hafter
  | cons k members ih =>
    obtain ⟨key, v⟩ := m
    have hrest := ih (blank_newline level) fun u hu => h u (List.mem_cons_of_mem _ hu)
    rw [indentedMembers, indentedMembers, List.intercalate_cons_cons, ← indentedMembers,
      List.append_assoc, List.append_assoc, indentedMember, List.append_assoc]
    exact .cons hbefore hblank (h _ List.mem_cons_self) blank_nil hrest

mutual

/-- The lines of a value are a layout of it. -/
theorem laid_indented : (level : ℕ) → (v : Value) → Laid v (v.indented level)
  | _, .null => .null
  | _, .bool b => .bool b
  | _, .number d => .number d
  | _, .string text => .string text
  | _, .array [] => .emptyArray blank_nil
  | level, .array (v :: items) =>
    .array (laidItems_lines (blank_newline _) (blank_newline _)
      (laid_indentedItems (level + 1) (v :: items)))
  | _, .object [] => .emptyObject blank_nil
  | level, .object (m :: members) =>
    .object (laidMembers_lines (blank_newline _) (blank_newline _)
      (laid_indentedMembers (level + 1) (m :: members)))
termination_by structural _ v => v

theorem laid_indentedItems : (level : ℕ) → (items : List Value) →
    ∀ w ∈ items, Laid w (w.indented level)
  | _, [] => fun _ hw => nomatch hw
  | level, v :: rest => List.forall_mem_cons.2 ⟨laid_indented level v, laid_indentedItems level rest⟩
termination_by structural _ l => l

theorem laid_indentedMembers : (level : ℕ) → (members : List (Text × Value)) →
    ∀ k ∈ members, Laid k.2 (k.2.indented level)
  | _, [] => fun _ hk => nomatch hk
  | level, m :: rest =>
    List.forall_mem_cons.2 ⟨laid_indentedMember level m, laid_indentedMembers level rest⟩
termination_by structural _ l => l

theorem laid_indentedMember : (level : ℕ) → (m : Text × Value) → Laid m.2 (m.2.indented level)
  | level, (_, v) => laid_indented level v
termination_by structural _ m => m

end

/-- What is written on lines is read back, with blanks around it. -/
theorem parse_indented (v : Value) {after : Text} (hafter : Blank after) :
    parse (v.indented 0 ++ after) = some v :=
  parse_laid (laid_indented 0 v) blank_nil hafter

end Json
