/-
Texts as YAML scalars, the way PyYAML writes and reads them (a library).

A text is asked for in a style, or in none; the emitter uses the style if the
text allows it.  Double quotes escape what they cannot hold, the other styles
write each character as it is, and the scanner reads a next line (U+0085) that
stands there as an end of line.  `Emitter` has the parts that are not written
down here, `Emitter.Documented` what is known of them.

* `Emitter.Documented.readBack_none_iff`, `Emitter.Documented.readBack_literal_iff` —
  which texts come back.
-/
import ShellgeiOnlineJudge.Utf8

namespace Yaml

open Utf8

/-- The styles of a scalar. -/
inductive Style
  | plain
  | singleQuoted
  | doubleQuoted
  | literal
  deriving DecidableEq

/-! ### The analysis of a scalar -/

/-- U+0085, a line break in YAML 1.1. -/
def nextLine : Char := '\u0085'

/-- The line breaks. -/
def isBreak (c : Char) : Bool := c = '\n' || c = nextLine || c = '\u2028' || c = '\u2029'

/-- A character that stands nowhere but, escaped, in double quotes. -/
def isSpecial (c : Char) : Bool :=
  let n := c.toNat
  !(c = '\n' || (0x20 ≤ n && n ≤ 0x7e) || c = nextLine || (0xa0 ≤ n && n ≤ 0xd7ff) ||
    (0xe000 ≤ n && n ≤ 0xfffd && n ≠ 0xfeff) || (0x10000 ≤ n && n < 0x10ffff))

/-- Whether one kind of character stands right before another. -/
def adjacent (p q : Char → Bool) (text : Text) : Bool :=
  (text.zip text.tail).any fun pair => p pair.1 && q pair.2

/-- A space stands before a line break. -/
def spaceBreak (text : Text) : Bool := adjacent (· = ' ') isBreak text

/-- A space stands behind a line break. -/
def breakSpace (text : Text) : Bool := adjacent isBreak (· = ' ') text

/-- The last character is a space. -/
def trailingSpace (text : Text) : Bool := text.getLast? = some ' '

/-- `allow_block` -/
def allowsLiteral (text : Text) : Bool :=
  !text.any isSpecial && !spaceBreak text && !trailingSpace text

/-- `allow_single_quoted` -/
def allowsSingleQuoted (text : Text) : Bool :=
  !text.any isSpecial && !spaceBreak text && !breakSpace text

theorem any_isBreak_of_mem {text : Text} (h : nextLine ∈ text) : text.any isBreak = true :=
  List.any_eq_true.2 ⟨nextLine, h, by decide⟩

/-! ### Emitter and scanner -/

/-- The emitter and the scanner, on one scalar. -/
structure Emitter where
  /-- the style for a text that is asked for in this one -/
  chosen : Option Style → Text → Style
  /-- what the scanner reads where the text stands in this style -/
  scanned : Style → Text → Text

/-- What is read of a text that is asked for in this style. -/
def Emitter.readBack (emitter : Emitter) (style : Option Style) (text : Text) : Text :=
  emitter.scanned (emitter.chosen style text) text

/-- What PyYAML says about long lines and line breaks. -/
structure Emitter.Documented (emitter : Emitter) : Prop where
  /-- a text with a line break is quoted -/
  chosen_none : ∀ text : Text, text.any isBreak →
    emitter.chosen none text = if allowsSingleQuoted text then .singleQuoted else .doubleQuoted
  chosen_literal : ∀ text : Text, text.any isBreak →
    emitter.chosen (some .literal) text = if allowsLiteral text then .literal else .doubleQuoted
  scanned_doubleQuoted : ∀ text, emitter.scanned .doubleQuoted text = text
  /-- a next line that is written as it is, is an end of line -/
  nextLine_not_mem : ∀ style text, style ≠ .doubleQuoted → nextLine ∉ emitter.scanned style text
  readBack_of_not_mem : ∀ style text, nextLine ∉ text → emitter.readBack style text = text

namespace Emitter

variable {emitter : Emitter}

/-- A text comes back unless it has a next line that is not escaped. -/
theorem Documented.readBack_iff (h : emitter.Documented) {style : Option Style} {written : Style}
    {allowed : Bool} {text : Text} (hwritten : written ≠ .doubleQuoted)
    (hchosen : text.any isBreak →
      emitter.chosen style text = if allowed then written else .doubleQuoted) :
    emitter.readBack style text = text ↔ (nextLine ∈ text → allowed = false) := by
  by_cases hmem : nextLine ∈ text
  · have hstyle := hchosen (any_isBreak_of_mem hmem)
    cases allowed with
    | true =>
      refine iff_of_false ?_ fun hfalse => Bool.noConfusion (hfalse hmem)
      intro hback
      -- what is read has no next line, the text has one
      have hread := h.nextLine_not_mem written text hwritten
      rw [if_pos rfl] at hstyle
      rw [readBack, hstyle] at hback
      rw [hback] at hread
      exact hread hmem
    | false =>
      rw [if_neg Bool.false_ne_true] at hstyle
      refine iff_of_true ?_ fun _ => rfl
      rw [readBack, hstyle]
      exact h.scanned_doubleQuoted text
  · exact iff_of_true (h.readBack_of_not_mem style text hmem) fun hin => absurd hin hmem

theorem Documented.readBack_none_iff (h : emitter.Documented) {text : Text} :
    emitter.readBack none text = text ↔ (nextLine ∈ text → allowsSingleQuoted text = false) :=
  h.readBack_iff (by decide) (h.chosen_none text)

theorem Documented.readBack_literal_iff (h : emitter.Documented) {text : Text} :
    emitter.readBack (some .literal) text = text ↔
      (nextLine ∈ text → allowsLiteral text = false) :=
  h.readBack_iff (by decide) (h.chosen_literal text)

/-! ### An emitter -/

/-- A text that needs no quotes. -/
def isWord (text : Text) : Bool :=
  text ≠ [] && text.all fun c => c.isAlphanum || c = '-' || c = '.' || c = '/'

/-- The style of the emitter that does not fold lines. -/
def unfoldedStyle (style : Option Style) (text : Text) : Style :=
  if style = some .literal then if allowsLiteral text then .literal else .doubleQuoted
  else if isWord text then .plain
  else if allowsSingleQuoted text then .singleQuoted else .doubleQuoted

/-- The end of a line is a blank, except in a literal. -/
def unfoldedLineEnd (style : Style) : Char := if style = .literal then '\n' else ' '

/-- What is read of a scalar that this emitter wrote. -/
def unfoldedText (style : Style) (text : Text) : Text :=
  if style = .doubleQuoted then text
  else text.map fun c => if c = nextLine then unfoldedLineEnd style else c

/-- An emitter that folds no lines. -/
def unfolded : Emitter where
  chosen := unfoldedStyle
  scanned := unfoldedText

theorem not_isBreak_of_isWord {text : Text} (h : isWord text = true) :
    ¬ text.any isBreak = true := by
  intro hbreak
  obtain ⟨c, hc, hbreak⟩ := List.any_eq_true.1 hbreak
  rw [isWord, Bool.and_eq_true] at h
  have hword := List.all_eq_true.1 h.2 c hc
  simp only [isBreak, Bool.or_eq_true, decide_eq_true_eq] at hbreak
  rcases hbreak with ((rfl | rfl) | rfl) | rfl
  · revert hword
    decide
  · revert hword
    decide
  · revert hword
    decide
  · revert hword
    decide

theorem unfolded_documented : unfolded.Documented where
  chosen_none text hbreak := by
    have hword : ¬ isWord text = true := fun hword => not_isBreak_of_isWord hword hbreak
    show unfoldedStyle none text = _
    rw [unfoldedStyle, if_neg (by decide), if_neg hword]
  chosen_literal text _ := by
    show unfoldedStyle (some .literal) text = _
    rw [unfoldedStyle, if_pos rfl]
  scanned_doubleQuoted text := by
    show unfoldedText .doubleQuoted text = _
    rw [unfoldedText, if_pos rfl]
  nextLine_not_mem style text hstyle := by
    show nextLine ∉ unfoldedText style text
    rw [unfoldedText, if_neg hstyle, List.mem_map]
    rintro ⟨c, -, hc⟩
    -- a next line is read as an end of line, and no other character is
    by_cases hnext : c = nextLine
    · rw [if_pos hnext, unfoldedLineEnd] at hc
      split at hc
      · exact absurd hc (by decide)
      · exact absurd hc (by decide)
    · rw [if_neg hnext] at hc
      exact hnext hc
  readBack_of_not_mem style text hmem := by
    show unfoldedText (unfoldedStyle style text) text = text
    rw [unfoldedText]
    split
    · rfl
    · refine (List.map_congr_left ?_).trans (List.map_id text)
      intro c hc
      have hne : c ≠ nextLine := by
        rintro rfl
        exact hmem hc
      rw [if_neg hne, id]

end Emitter

end Yaml
