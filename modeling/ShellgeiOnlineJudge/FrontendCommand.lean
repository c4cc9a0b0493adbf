/-
The command that the browser sends (frontend/src/functions/submit.tsx and
escape_str.tsx), and what the backend makes of it.

A string of JavaScript is its UTF-16 code units, and a string of Python its code
points.  `JSON.stringify` and `json.loads` take the one to the other, and leave a
surrogate without its other half as it is.

* `frontend_command_accepted_iff` — which inputs the backend accepts when the
  browser sends them.
-/
import Mathlib.Data.List.DropRight
import ShellgeiOnlineJudge.RunnerAgreement
import ShellgeiOnlineJudge.Utf16

namespace FrontendCommand

open Utf8 (Text)
open Utf16 Problem RunnerAgreement

/-- A string of JavaScript. -/
abbrev JsString := Utf16.Units

/-! ### escape_str.tsx -/

/-- The white space and the line terminators of the language. -/
def whiteSpace : JsString :=
  [0x0009, 0x000A, 0x000B, 0x000C, 0x000D, 0x0020, 0x00A0, 0x1680, 0x2000, 0x2001, 0x2002,
    0x2003, 0x2004, 0x2005, 0x2006, 0x2007, 0x2008, 0x2009, 0x200A, 0x2028, 0x2029, 0x202F,
    0x205F, 0x3000, 0xFEFF]

/-- What `trim` removes. -/
def isWhiteSpace (u : UInt16) : Bool := decide (u ∈ whiteSpace)

/-- `String.prototype.trim` -/
def trim (text : JsString) : JsString := (text.dropWhile isWhiteSpace).rdropWhile isWhiteSpace

/-- `replace(/\r/g, "")` -/
def removeReturns (text : JsString) : JsString := text.filter (· ≠ 0x000D)

/-- `replace(/\n$/g, "")` -/
def removeFinalNewline (text : JsString) : JsString :=
  if text.getLast? = some 0x000A then text.dropLast else text

/-- `escapeShellgei` -/
def escapeShellgei (text : JsString) : JsString :=
  removeFinalNewline (trim (removeReturns text))

/-! ### submit.tsx -/

/-- `RunningSubmissionState` -/
structure RunningSubmissionState where
  requestKey : JsString
  shellgei : JsString
  problemId : JsString
  deriving DecidableEq

/-- What `prepareSubmission` returns. -/
inductive PreparedSubmission
  | running (submission : RunningSubmissionState)
  | validationError (message : String)
  deriving DecidableEq

/-- `prepareSubmission` -/
def prepareSubmission (shellgeiLimit : ℕ) (shellgei selectedProblem : JsString) :
    PreparedSubmission :=
  if shellgei.length = 0 then .validationError "No input provided"
  else if shellgeiLimit < shellgei.length then
    .validationError s!"Exceeded character limit:{shellgeiLimit}"
  else .running {
    requestKey := selectedProblem ++ 0x0000 :: escapeShellgei shellgei
    shellgei := escapeShellgei shellgei
    problemId := selectedProblem }

/-! ### The backend -/

/-- `ShellgeiData(shellgei=..., problem_id=...)` of two strings of Python; it has
no field for a surrogate without its other half. -/
def validateShellgeiData (shellgei problemId : List ℕ) : Option ShellgeiData := do
  let shellgei ← ofPoints shellgei
  let problemId ← ofPoints problemId
  ShellgeiData.build shellgei problemId

/-- The request of a prepared submission as the backend validates it. -/
def receive (submission : RunningSubmissionState) : Option ShellgeiData :=
  validateShellgeiData (decode submission.shellgei) (decode submission.problemId)

/-! ### What the browser normalises -/

section Escape

variable {text : JsString} {u : UInt16}

theorem isWhiteSpace_iff : isWhiteSpace u = true ↔ u ∈ whiteSpace := decide_eq_true_iff

theorem not_isSurrogate_of_whiteSpace (h : isWhiteSpace u = true) : ¬ IsSurrogate u.toNat := by
  have hall : (whiteSpace.all fun u => decide (¬ IsSurrogate u.toNat)) = true := by decide
  exact of_decide_eq_true (List.all_eq_true.1 hall u (isWhiteSpace_iff.1 h))

theorem trim_split (text : JsString) : ∃ before after, text = before ++ (trim text ++ after) ∧
    (∀ u ∈ before, isWhiteSpace u = true) ∧ ∀ u ∈ after, isWhiteSpace u = true := by
  refine ⟨text.takeWhile isWhiteSpace, (text.dropWhile isWhiteSpace).rtakeWhile isWhiteSpace,
    ?_, fun u hu => List.mem_takeWhile_imp hu, fun u hu => List.mem_rtakeWhile_imp hu⟩
  rw [trim, List.rdropWhile, List.rtakeWhile, ← List.reverse_append,
    List.takeWhile_append_dropWhile, List.reverse_reverse, List.takeWhile_append_dropWhile]

/-- A trimmed text does not end in a newline, so that the last step of the
normalisation has nothing to do. -/
theorem removeFinalNewline_trim (text : JsString) : removeFinalNewline (trim text) = trim text := by
  refine if_neg fun hlast => ?_
  have hne : trim text ≠ [] := by
    intro hnil
    rw [hnil] at hlast
    cases hlast
  have hnot := List.rdropWhile_last_not isWhiteSpace (text.dropWhile isWhiteSpace) hne
  rw [List.getLast?_eq_some_getLast hne] at hlast
  have hspace : isWhiteSpace ((trim text).getLast hne) = true := by
    rw [Option.some.inj hlast]
    decide
  exact hnot hspace

theorem escapeShellgei_eq (text : JsString) : escapeShellgei text = trim (removeReturns text) :=
  removeFinalNewline_trim _

theorem not_mem_removeReturns (text : JsString) : 0x000D ∉ removeReturns text := by
  intro hmem
  have hne := (List.mem_filter.1 hmem).2
  simp at hne

theorem mem_escapeShellgei (h : u ∈ escapeShellgei text) : u ∈ removeReturns text := by
  obtain ⟨before, after, hsplit, -, -⟩ := trim_split (removeReturns text)
  rw [escapeShellgei_eq] at h
  rw [hsplit]
  exact List.mem_append_right before (List.mem_append_left after h)

/-- What is not white space stays. -/
theorem mem_escapeShellgei_iff (h : isWhiteSpace u = false) :
    u ∈ escapeShellgei text ↔ u ∈ text := by
  constructor
  · exact fun hmem => (List.mem_filter.1 (mem_escapeShellgei hmem)).1
  · intro hmem
    have hne : u ≠ 0x000D := by
      rintro rfl
      exact absurd h (by decide)
    have hkept : u ∈ removeReturns text := List.mem_filter.2 ⟨hmem, decide_eq_true hne⟩
    obtain ⟨before, after, hsplit, hbefore, hafter⟩ := trim_split (removeReturns text)
    rw [hsplit, List.mem_append, List.mem_append] at hkept
    rcases hkept with hmem | hmem | hmem
    · exact absurd (hbefore u hmem) (by rw [h]; simp)
    · rw [escapeShellgei_eq]
      exact hmem
    · exact absurd (hafter u hmem) (by rw [h]; simp)

theorem escapeShellgei_ne_nil_iff :
    escapeShellgei text ≠ [] ↔ ∃ u ∈ text, isWhiteSpace u = false := by
  constructor
  · intro hne
    -- the last unit of a trimmed text is not white space
    rw [escapeShellgei_eq] at hne
    have hlast := List.rdropWhile_last_not isWhiteSpace
      ((removeReturns text).dropWhile isWhiteSpace) hne
    have hmem : (trim (removeReturns text)).getLast hne ∈ escapeShellgei text := by
      rw [escapeShellgei_eq]
      exact List.getLast_mem hne
    exact ⟨_, (List.mem_filter.1 (mem_escapeShellgei hmem)).1, Bool.eq_false_iff.2 hlast⟩
  · rintro ⟨u, hu, hspace⟩ hnil
    have hmem := (mem_escapeShellgei_iff hspace).2 hu
    rw [hnil] at hmem
    cases hmem

/-- Trimming cuts no pair. -/
theorem paired_escapeShellgei_iff : Paired (escapeShellgei text) ↔ Paired (removeReturns text) := by
  obtain ⟨before, after, hsplit, hbefore, hafter⟩ := trim_split (removeReturns text)
  have hplain : ∀ {units : JsString}, (∀ u ∈ units, isWhiteSpace u = true) →
      ∀ n ∈ decode units, ¬ IsSurrogate n := by
    intro units hunits n hn
    rw [decode_eq_map fun u hu => not_isSurrogate_of_whiteSpace (hunits u hu)] at hn
    obtain ⟨u, hu, rfl⟩ := List.mem_map.1 hn
    exact not_isSurrogate_of_whiteSpace (hunits u hu)
  have hdecode : decode (removeReturns text) =
      decode before ++ (decode (escapeShellgei text) ++ decode after) := by
    have hbehind : ∀ v, after.head? = some v → isLow v = false := fun v hv =>
      isLow_eq_false (not_isSurrogate_of_whiteSpace (hafter v (List.mem_of_mem_head? hv)))
    have hfront : ∀ u ∈ before, isHigh u = false := fun u hu =>
      isHigh_eq_false (not_isSurrogate_of_whiteSpace (hbefore u hu))
    rw [escapeShellgei_eq, ← decode_append hbehind, ← decode_append_of_not_high hfront, ← hsplit]
  rw [Paired, Paired, hdecode]
  constructor
  · intro h n hn
    rcases List.mem_append.1 hn with hn | hn
    · exact hplain hbefore n hn
    · rcases List.mem_append.1 hn with hn | hn
      · exact h n hn
      · exact hplain hafter n hn
  · exact fun h n hn => h n (List.mem_append_right _ (List.mem_append_left _ hn))

end Escape

/-! ### What the backend accepts -/

section Receive

variable {units : JsString} {text id : Text}

theorem ShellgeiData.build_isSome_iff : (ShellgeiData.build text id).isSome ↔
    (1 ≤ (normalizeShellgei text).length ∧ (normalizeShellgei text).length ≤ maxShellgeiChars) ∧
      '\x00' ∉ normalizeShellgei text ∧ validateProblemId id = .ok id := by
  rw [ShellgeiData.build]
  split
  · next h => exact iff_of_true rfl h
  · next h => exact iff_of_false (by simp) h

/-- A character of one unit is in the text when its unit is. -/
theorem mem_text_iff {c : Char} (htext : decode units = text.map Char.toNat)
    (hc : c.toNat < 0x10000) : c ∈ text ↔ UInt16.ofNat c.toNat ∈ units := by
  have hvalid : c.toNat < 0xD800 ∨ 0xDFFF < c.toNat ∧ c.toNat < 0x110000 := c.valid
  have hsurrogate : ¬ IsSurrogate c.toNat := by
    rintro ⟨hlow, hhigh⟩
    omega
  have hunit : (UInt16.ofNat c.toNat).toNat = c.toNat := UInt16.toNat_ofNat_of_lt' hc
  have hdecode : c.toNat ∈ decode units ↔ ∃ u ∈ units, u.toNat = c.toNat :=
    mem_decode_iff hc hsurrogate
  rw [htext] at hdecode
  constructor
  · intro hmem
    obtain ⟨u, hu, heq⟩ := hdecode.1 (List.mem_map_of_mem hmem)
    have hsame : UInt16.ofNat c.toNat = u := UInt16.toNat_inj.1 (by rw [hunit, heq])
    rw [hsame]
    exact hu
  · intro hmem
    obtain ⟨d, hd, heq⟩ := List.mem_map.1 (hdecode.2 ⟨_, hmem, hunit⟩)
    rw [← Char.toNat_inj.1 heq]
    exact hd

/-- A string without carriage returns, next to a problem ID. -/
theorem validateShellgeiData_isSome_iff (hid : validateProblemId id = .ok id)
    (hreturn : 0x000D ∉ units) :
    (validateShellgeiData (decode units) (decode (encode id))).isSome ↔
      Paired units ∧ (1 ≤ (decode units).length ∧ (decode units).length ≤ maxShellgeiChars) ∧
        0x0000 ∉ units := by
  have hproblem : ofPoints (decode (encode id)) = some id :=
    ofPoints_eq_some_iff.2 decode_encode
  rw [validateShellgeiData, hproblem, ← ofPoints_decode_isSome_iff]
  cases htext : ofPoints (decode units) with
  | none => simp
  | some text =>
    have hpoints := ofPoints_eq_some_iff.1 htext
    have hnormal : normalizeShellgei text = text := by
      refine List.filter_eq_self.2 fun c hc => decide_eq_true ?_
      rintro rfl
      exact hreturn ((mem_text_iff hpoints (by decide)).1 hc)
    have hnul : '\x00' ∉ text ↔ 0x0000 ∉ units :=
      not_congr (mem_text_iff hpoints (by decide))
    show (ShellgeiData.build text id).isSome ↔ _
    rw [ShellgeiData.build_isSome_iff, hnormal, hnul, hpoints, List.length_map]
    constructor
    · rintro ⟨hlength, hzero, -⟩
      exact ⟨rfl, hlength, hzero⟩
    · rintro ⟨-, hlength, hzero⟩
      exact ⟨hlength, hzero, hid⟩

end Receive

/-! ### Browser and backend -/

/-- The browser refuses the text, or with the carriage returns removed it has
something other than white space, no `NUL` and no surrogate without its other half. -/
def Sendable (text : JsString) : Prop :=
  text.length = 0 ∨ maxShellgeiChars < text.length ∨
    (∃ u ∈ text, isWhiteSpace u = false) ∧ 0x0000 ∉ text ∧ Paired (removeReturns text)

theorem length_escapeShellgei_le (text : JsString) :
    (escapeShellgei text).length ≤ text.length := by
  obtain ⟨before, after, hsplit, -, -⟩ := trim_split (removeReturns text)
  have hlength := congrArg List.length hsplit
  have hfilter : (removeReturns text).length ≤ text.length := List.length_filter_le _ text
  rw [← escapeShellgei_eq, List.length_append, List.length_append] at hlength
  omega

/-- The backend accepts what the browser sends exactly for these texts. -/
theorem frontend_command_accepted_iff (text : JsString) {id : Text}
    (hid : validateProblemId id = .ok id) :
    (∀ submission,
      prepareSubmission maxShellgeiChars text (encode id) = .running submission →
        (receive submission).isSome) ↔ Sendable text := by
  rw [prepareSubmission, Sendable]
  by_cases hempty : text.length = 0
  · rw [if_pos hempty]
    exact iff_of_true (fun submission h => by cases h) (.inl hempty)
  by_cases hlimit : maxShellgeiChars < text.length
  · rw [if_neg hempty, if_pos hlimit]
    exact iff_of_true (fun submission h => by cases h) (.inr (.inl hlimit))
  rw [if_neg hempty, if_neg hlimit]
  have hreturn : 0x000D ∉ escapeShellgei text := fun hmem =>
    not_mem_removeReturns text (mem_escapeShellgei hmem)
  have hlength : (decode (escapeShellgei text)).length ≤ maxShellgeiChars := by
    have hdecode : (decode (escapeShellgei text)).length ≤ (escapeShellgei text).length :=
      length_decode_le
    have hescape := length_escapeShellgei_le text
    omega
  -- only blanks are removed, so something is sent unless all of it is blank
  have hpos : 1 ≤ (decode (escapeShellgei text)).length ↔ ∃ u ∈ text, isWhiteSpace u = false := by
    have hnil : decode (escapeShellgei text) = [] ↔ escapeShellgei text = [] :=
      decode_eq_nil_iff
    rw [← escapeShellgei_ne_nil_iff]
    exact List.length_pos_iff.trans (not_congr hnil)
  have hnul : 0x0000 ∈ escapeShellgei text ↔ 0x0000 ∈ text :=
    mem_escapeShellgei_iff (by decide)
  have hreceive := validateShellgeiData_isSome_iff hid hreturn
  -- what the backend checks, said of the text that was typed
  rw [paired_escapeShellgei_iff, hpos, hnul] at hreceive
  constructor
  · intro h
    obtain ⟨hpaired, ⟨hblank, -⟩, hzero⟩ := hreceive.1 (h _ rfl)
    exact .inr (.inr ⟨hblank, hzero, hpaired⟩)
  · intro h submission hsubmission
    obtain rfl := PreparedSubmission.running.inj hsubmission
    rcases h with h | h | ⟨hblank, hzero, hpaired⟩
    · exact absurd h hempty
    · exact absurd h hlimit
    · exact hreceive.2 ⟨hpaired, ⟨hblank, hlength⟩, hzero⟩

/-- `echo` with white space around it. -/
theorem frontend_command_accepted_iff_echo :
    (receive ⟨encode "STANDARD-1".toList ++ 0x0000 :: encode "echo".toList,
      encode "echo".toList, encode "STANDARD-1".toList⟩).isSome := by
  have hid : validateProblemId "STANDARD-1".toList = .ok "STANDARD-1".toList := by rfl
  refine (frontend_command_accepted_iff (encode " echo\r\n".toList) hid).2
    (.inr (.inr ⟨⟨0x0065, ?_, ?_⟩, ?_, ?_⟩)) _ ?_
  · decide
  · decide
  · decide
  · decide
  · decide

/-- A blank is sent as the empty command, which the backend refuses. -/
theorem blank_command_refused : ¬ ∀ (text : JsString) (id : Text),
    validateProblemId id = .ok id → ∀ submission,
      prepareSubmission 1000 text (encode id) = .running submission →
        (receive submission).isSome := by
  intro h
  have hsome := h [0x0020] "STANDARD-1".toList (by rfl) ⟨encode "STANDARD-1".toList ++ [0x0000],
    [], encode "STANDARD-1".toList⟩ (by decide)
  have hnone : receive ⟨encode "STANDARD-1".toList ++ [0x0000], [],
      encode "STANDARD-1".toList⟩ = none := by
    decide +kernel
  rw [hnone] at hsome
  cases hsome

end FrontendCommand
