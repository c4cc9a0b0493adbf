/-
The examples that the page offers for copying (frontend/src/functions/submission_examples.ts).

Commands of the shell and scripts of Python, made from what is in the form; that may be
any string of JavaScript.

* `curl_command_submits` — the shell runs one command, and the backend validates its body
  like the values in the form;
* `curl_problem_commands_read` — the shell runs two commands, the second of which names
  the selected problem in its last path element;
* `python_script_submits` — the values stand in three literals of a fixed script, and the
  backend validates what it sends like them.
-/
import ShellgeiOnlineJudge.FrontendCommand
import ShellgeiOnlineJudge.FrontendTypes
import ShellgeiOnlineJudge.PythonLiteral
import ShellgeiOnlineJudge.ShellSyntax

namespace SubmissionExamples

open Utf8 (Text Bytes)
open Utf16 Json Problem RunnerAgreement FrontendCommand FrontendTypes

/-! ### `JSON.stringify` and `encodeURIComponent` -/

/-- `JSON.stringify` of a string -/
def stringify (text : JsString) : Text := pointsString escapePoint (Utf16.decode text)

/-- An octet, where some characters stay as they are. -/
def percentEncode (kept : Char → Bool) (b : UInt8) : Text :=
  if kept (Char.ofNat b.toNat) then [Char.ofNat b.toNat]
  else '%' :: [b.toNat / 16, b.toNat % 16].map fun digit => (Nat.digitChar digit).toUpper

/-- The characters that `encodeURIComponent` leaves as they are. -/
def isUnreserved (c : Char) : Bool :=
  c.isAlphanum || ['-', '_', '.', '!', '~', '*', '\'', '(', ')'].contains c

/-- It raises for a surrogate without its other half. -/
def encodeURIComponent (text : JsString) : Option Text :=
  (ofPoints (Utf16.decode text)).map fun text =>
    (Utf8.encode text).flatMap (percentEncode isUnreserved)

/-! ### The functions -/

/-- `SubmissionExampleProps` -/
structure SubmissionExampleProps where
  sojUrl : Text
  shellgei : JsString
  problemId : JsString

/-- The body of a submission. -/
structure Payload where
  shellgei : JsString
  problemId : JsString

/-- `JSON.stringify(payload)` -/
def Payload.stringify (payload : Payload) : Text :=
  pointsObject escapePoint [] [("shellgei".toList, Utf16.decode payload.shellgei),
    ("problem_id".toList, Utf16.decode payload.problemId)]

/-- What both examples contain. -/
structure ExampleValues where
  endpoint : Text
  payload : Payload

/-- The command in place of an empty one: `printf '%s\n' 'test'`. -/
def sampleShellgei : JsString := Utf16.encode "printf '%s\\n' 'test'".toList

/-- `quoteShell` -/
def quoteShell (value : Text) : Text := Shell.quoteWith Shell.backslashEscape value

section

variable (origin : Text)

/-- `apiBaseUrl`, on a page of this origin -/
def apiBaseUrl (sojUrl : Text) : Text :=
  (if sojUrl.isEmpty then origin else sojUrl).rdropWhile fun c => c = '/'

/-- `exampleValues` -/
def exampleValues (props : SubmissionExampleProps) : ExampleValues where
  endpoint := apiBaseUrl origin props.sojUrl ++ "/api/v3/submissions".toList
  payload := {
    shellgei := if props.shellgei.isEmpty then sampleShellgei else props.shellgei
    problemId := props.problemId }

/-- What follows the address: the header and the body behind it -/
def curlOptions : Text :=
  " \\\n  -H 'Content-Type: application/json' \\\n  --data-binary @- <<'JSON'\n".toList

/-- The end of the here-document. -/
def curlEnd : Text := "\nJSON\n".toList

/-- `buildCurlCommand` -/
def buildCurlCommand (props : SubmissionExampleProps) : Text :=
  let values := exampleValues origin props
  "curl ".toList ++ (quoteShell values.endpoint ++
    (curlOptions ++ (values.payload.stringify ++ curlEnd)))

/-- The start of a command that reads. -/
def getOptions : Text := "curl --fail --show-error --max-time 30 ".toList

/-- A command that prints what is at the address. -/
def curlGet (url : Text) : Text := getOptions ++ (quoteShell url ++ ['\n'])

/-- The comment before the command for the list. -/
def listComment : Text := "# List problems (IDs and titles)\n".toList

/-- The comment before the command for the problem. -/
def problemComment : Text :=
  "\n# Get the selected problem (statement, input, ".toList ++
    "expected output and example answer)\n".toList

/-- It raises with `encodeURIComponent`. -/
def buildCurlProblemCommands (props : SubmissionExampleProps) : Option Text := do
  let url := apiBaseUrl origin props.sojUrl ++ "/api/problems".toList
  let problem ← encodeURIComponent props.problemId
  return listComment ++ (curlGet url ++ (problemComment ++ curlGet (url ++ '/' :: problem)))

/-- The lines of a script -/
def unlines (lines : List Text) : Text := lines.flatMap fun line => line ++ ['\n']

/-- The script with its three literals. -/
def pythonLines (url shellgei problemId : Text) : List Text :=
  ["import json".toList, "from urllib.request import Request, urlopen".toList, [],
    "url = ".toList ++ url, "payload = \x7b".toList,
    "    \"shellgei\": ".toList ++ shellgei ++ [','],
    "    \"problem_id\": ".toList ++ problemId ++ [','], "\x7d".toList,
    "request = Request(".toList, "    url,".toList,
    "    data=json.dumps(payload).encode(\"utf-8\"),".toList,
    "    headers=\x7b\"Content-Type\": \"application/json\"\x7d,".toList, ")".toList, [],
    "with urlopen(request, timeout=30) as response:".toList,
    "    result = json.load(response)".toList, [],
    "print(\"verdict:\", result[\"verdict\"])".toList,
    "print(\"stdout:\", repr(result[\"execution\"][\"stdout\"]))".toList,
    "print(\"stderr:\", repr(result[\"execution\"][\"stderr\"]))".toList]

/-- The script that reads the problems, with its two literals. -/
def pythonProblemLines (url problemId : Text) : List Text :=
  ["import json".toList, "from urllib.parse import quote".toList,
    "from urllib.request import urlopen".toList, [], "url = ".toList ++ url,
    "problem_id = ".toList ++ problemId, [],
    "with urlopen(url, timeout=30) as response:".toList,
    "    problems = json.load(response)".toList, "for problem in problems:".toList,
    "    print(problem[\"id\"], problem[\"title_ja\"], problem[\"title_en\"])".toList, [],
    "with urlopen(url + \"/\" + quote(problem_id, safe=\"\"), timeout=30) as response:".toList,
    "    detail = json.load(response)".toList,
    "print(json.dumps(detail, ensure_ascii=False, indent=2))".toList]

/-- `buildPythonProblemScript` -/
def buildPythonProblemScript (props : SubmissionExampleProps) : Text :=
  unlines (pythonProblemLines
    (Json.string (apiBaseUrl origin props.sojUrl ++ "/api/problems".toList))
    (stringify props.problemId))

/-- `buildPythonScript` -/
def buildPythonScript (props : SubmissionExampleProps) : Text :=
  let values := exampleValues origin props
  unlines (pythonLines (Json.string values.endpoint) (stringify values.payload.shellgei)
    (stringify values.payload.problemId))

end

/-! ### What receives them -/

/-- The characters that `quote(..., safe="")` of Python leaves as they are. -/
def isAlwaysSafe (c : Char) : Bool := c.isAlphanum || ['_', '.', '-', '~'].contains c

/-- `quote(text, safe="")`; it raises for a surrogate. -/
def quotePath (points : List ℕ) : Option Text :=
  (ofPoints points).map fun text => (Utf8.encode text).flatMap (percentEncode isAlwaysSafe)

/-- The body of a submission, as the backend validates it; a string that is no text has no
value there. -/
def receiveBody (body : Text) : Option ShellgeiData := do
  match ← Json.parse body with
  | .object members =>
    -- `extra="forbid"`
    if members.all fun m => m.1 = "shellgei".toList || m.1 = "problem_id".toList then
      match property members "shellgei".toList, property members "problem_id".toList with
      | some (.string shellgei), some (.string problemId) => ShellgeiData.build shellgei problemId
      | _, _ => none
    else none
  | _ => none

/-- `json.dumps(payload)` in the script -/
def dumpsPayload (shellgei problemId : List ℕ) : Text :=
  pointsObject asciiPoint [' '] [("shellgei".toList, shellgei), ("problem_id".toList, problemId)]

/-- The octets of a path element, as a server decodes it. -/
def percentDecode : Text → Option Bytes
  | [] => some []
  | '%' :: high :: low :: rest => do
    let high ← hexValue high
    let low ← hexValue low
    let bytes ← percentDecode rest
    return UInt8.ofNat (high * 16 + low) :: bytes
  | c :: rest => (percentDecode rest).map fun bytes => Utf8.encode [c] ++ bytes

/-! ### The body -/

theorem points_decode (text : JsString) :
    (∀ n ∈ Utf16.decode text, n < 0x110000) ∧ Decoded (Utf16.decode text) :=
  ⟨fun _ hn => decode_lt hn, decoded_decode text⟩

theorem textMembers_pair (key key' : Text) (points points' : List ℕ) :
    textMembers [(key, points), (key', points')] =
      (ofPoints points).bind fun text => (ofPoints points').bind fun text' =>
        some [(key, .string text), (key', .string text')] := by
  rw [textMembers, List.mapM_cons, List.mapM_cons, List.mapM_nil]
  cases ofPoints points with
  | none => rfl
  | some text =>
    cases ofPoints points' with
    | none => rfl
    | some text' => rfl

/-- However it is written, the backend validates the body like its two values. -/
theorem receiveBody_pointsObject {write : ℕ → Text} (h : Escapes write) {gap : Text}
    (hgap : gap.all isBlank = true) (shellgei problemId : JsString) {after : Text}
    (hafter : after.all isBlank = true) :
    receiveBody (pointsObject write gap [("shellgei".toList, Utf16.decode shellgei),
      ("problem_id".toList, Utf16.decode problemId)] ++ after) =
        validateShellgeiData (Utf16.decode shellgei) (Utf16.decode problemId) := by
  have hpoints : ∀ m ∈ [("shellgei".toList, Utf16.decode shellgei),
      ("problem_id".toList, Utf16.decode problemId)],
        (∀ n ∈ m.2, n < 0x110000) ∧ Decoded m.2 := by
    intro m hm
    rcases List.mem_cons.1 hm with rfl | hm
    · exact points_decode shellgei
    · obtain rfl := List.mem_singleton.1 hm
      exact points_decode problemId
  rw [receiveBody, parse_pointsObject h hgap hpoints hafter, textMembers_pair,
    validateShellgeiData]
  cases ofPoints (Utf16.decode shellgei) with
  | none => rfl
  | some shellgei =>
    cases ofPoints (Utf16.decode problemId) with
    | none => rfl
    | some problemId => rfl

/-! ### Lines -/

theorem newline_not_mem {text : Text} (h : NoControl text) : '\n' ∉ text := by
  intro hmem
  exact absurd (h '\n' hmem) (by decide)

theorem noControl_hexDigits {n : ℕ} (hn : n < 0x10000) : NoControl (hexDigits n) := by
  have hdigit : ∀ digit < 16, 0x20 ≤ (Nat.digitChar digit).toNat := by decide
  intro c hc
  simp only [hexDigits, List.map_cons, List.map_nil, List.mem_cons, List.not_mem_nil,
    or_false] at hc
  rcases hc with rfl | rfl | rfl | rfl
  · exact hdigit _ (by omega)
  · exact hdigit _ (by omega)
  · exact hdigit _ (by omega)
  · exact hdigit _ (by omega)

theorem noControl_escapePoint (n : ℕ) : NoControl (escapePoint n) := by
  unfold escapePoint
  split
  · next hn =>
    have hdigits := noControl_hexDigits (show n < 0x10000 by have := hn.2; omega)
    exact .cons (by decide) (.cons (by decide) hdigits)
  · exact noControl_escape _

theorem noControl_pointsString (points : List ℕ) :
    NoControl (pointsString escapePoint points) := by
  refine .cons (by decide) (.append ?_ (by decide))
  intro c hc
  obtain ⟨n, -, hn⟩ := List.mem_flatMap.1 hc
  exact noControl_escapePoint n c hn

theorem noControl_pointsObject (members : List (Text × List ℕ)) :
    NoControl (pointsObject escapePoint [] members) := by
  have hmember : ∀ m : Text × List ℕ, NoControl (pointsMember escapePoint [] m) := fun m =>
    .append (noControl_string m.1) (.cons (by decide) (noControl_pointsString m.2))
  refine .cons (by decide) (.append ?_ (by decide))
  induction members with
  | nil =>
    intro c hc
    cases hc
  | cons m members ih =>
    cases members with
    | nil => exact hmember m
    | cons k members => exact .append (hmember m) (.cons (by decide) ih)

/-! ### The commands -/

set_option maxRecDepth 4000 in
theorem run_curlOptions (url : Text) :
    Shell.run (⟨[], ["curl".toList], false, none, []⟩, .bare url true) curlOptions =
      some (⟨[], ["curl".toList, url, "-H".toList, "Content-Type: application/json".toList,
        "--data-binary".toList, "@-".toList], false, some "JSON".toList, []⟩, .document []) :=
  (rfl)

/-- What the shell makes of the command. -/
theorem script_buildCurlCommand (origin : Text) (props : SubmissionExampleProps) :
    Shell.script (buildCurlCommand origin props) =
      some [⟨["curl".toList, (exampleValues origin props).endpoint, "-H".toList,
        "Content-Type: application/json".toList, "--data-binary".toList, "@-".toList],
        some ((exampleValues origin props).payload.stringify ++ ['\n'])⟩] := by
  generalize hvalues : exampleValues origin props = values
  obtain ⟨url, payload⟩ := values
  -- the payload is one line and not the delimiter
  have hline : '\n' ∉ payload.stringify := newline_not_mem (noControl_pointsObject _)
  have hne : payload.stringify ≠ "JSON".toList := fun h =>
    absurd (List.cons.inj h).1 (by decide)
  have hname : Shell.run (Shell.start, .between) "curl ".toList =
      some (⟨[], ["curl".toList], false, none, []⟩, .between) := rfl
  have hend : curlEnd ++ ['\n'] = ['\n'] ++ "JSON\n\n".toList := rfl
  have htext : buildCurlCommand origin props = "curl ".toList ++ (quoteShell url ++
      (curlOptions ++ (payload.stringify ++ curlEnd))) := by
    rw [buildCurlCommand, hvalues]
  have hdocument := Shell.run_document hline (l := ⟨[], ["curl".toList, url, "-H".toList,
    "Content-Type: application/json".toList, "--data-binary".toList, "@-".toList], false,
    some "JSON".toList, []⟩) rfl hne
  -- the words one after another, then the document
  have hrun : Shell.run (Shell.start, .between) (buildCurlCommand origin props ++ ['\n']) =
      some (⟨[⟨["curl".toList, url, "-H".toList, "Content-Type: application/json".toList,
        "--data-binary".toList, "@-".toList], some (payload.stringify ++ ['\n'])⟩], [], false,
        none, []⟩, .between) := by
    rw [htext, List.append_assoc, List.append_assoc, List.append_assoc, List.append_assoc, hend,
      Shell.run_append, hname, Option.bind_some, Shell.run_append, quoteShell,
      Shell.run_quoteWith Shell.isEscape_backslash, Option.bind_some, Shell.run_append,
      run_curlOptions, Option.bind_some, ← List.append_assoc, Shell.run_append, hdocument]
    rfl
  rw [Shell.script, hrun]
  rfl

/-- **The command submits what is in the form.** -/
theorem curl_command_submits (origin : Text) (props : SubmissionExampleProps) :
    ∃ body, Shell.script (buildCurlCommand origin props) =
        some [⟨["curl".toList, apiBaseUrl origin props.sojUrl ++ "/api/v3/submissions".toList,
          "-H".toList, "Content-Type: application/json".toList, "--data-binary".toList,
          "@-".toList], some body⟩] ∧
      receiveBody body = validateShellgeiData
        (Utf16.decode (if props.shellgei.isEmpty then sampleShellgei else props.shellgei))
        (Utf16.decode props.problemId) :=
  ⟨_, script_buildCurlCommand origin props,
    receiveBody_pointsObject escapes_escapePoint rfl _ _ (by decide)⟩

/-! ### Path elements -/

/-- The characters are octets of their own, and no percent sign. -/
def IsKept (kept : Char → Bool) : Prop :=
  ∀ n < 256, kept (Char.ofNat n) = true →
    Char.ofNat n ≠ '%' ∧ Utf8.encode [Char.ofNat n] = [UInt8.ofNat n]

theorem isKept_isUnreserved : IsKept isUnreserved := by
  show ∀ n < 256, _
  decide +kernel

theorem isKept_isAlwaysSafe : IsKept isAlwaysSafe := by
  show ∀ n < 256, _
  decide +kernel

section Path

variable {kept : Char → Bool}

theorem percentDecode_percentEncode (hkept : IsKept kept) (b : UInt8) (rest : Text) :
    percentDecode (percentEncode kept b ++ rest) =
      (percentDecode rest).map fun bytes => b :: bytes := by
  have hb : b.toNat < 256 := b.toNat_lt
  have hself : UInt8.ofNat b.toNat = b := UInt8.ofNat_toNat
  unfold percentEncode
  split
  · next hunreserved =>
    obtain ⟨hne, hencode⟩ := hkept _ hb hunreserved
    rw [List.singleton_append, percentDecode.eq_3 _ _ fun _ _ _ h => absurd h hne, hencode, hself]
    rfl
  · have hhex : ∀ n < 16, hexValue (Nat.digitChar n).toUpper = some n := by decide
    have hvalue : b.toNat / 16 * 16 + b.toNat % 16 = b.toNat := by omega
    show (hexValue (Nat.digitChar (b.toNat / 16)).toUpper).bind _ = _
    rw [hhex _ (by omega), Option.bind_some]
    show (hexValue (Nat.digitChar (b.toNat % 16)).toUpper).bind _ = _
    rw [hhex _ (by omega), Option.bind_some]
    show ((percentDecode rest).bind fun bytes =>
      some (UInt8.ofNat (b.toNat / 16 * 16 + b.toNat % 16) :: bytes)) = _
    rw [hvalue, hself]
    cases percentDecode rest with
    | none => rfl
    | some bytes => rfl

theorem percentDecode_flatMap (hkept : IsKept kept) (bytes : Bytes) :
    percentDecode (bytes.flatMap (percentEncode kept)) = some bytes := by
  induction bytes with
  | nil => rfl
  | cons b bytes ih =>
    rw [List.flatMap_cons, percentDecode_percentEncode hkept, ih]
    rfl

/-- What an encoded text is made of -/
theorem mem_percentEncode (hdigit : ∀ n < 16, kept (Nat.digitChar n).toUpper = true) {b : UInt8}
    {c : Char} (hc : c ∈ percentEncode kept b) : kept c = true ∨ c = '%' := by
  unfold percentEncode at hc
  split at hc
  · next hunreserved =>
    obtain rfl := List.mem_singleton.1 hc
    exact .inl hunreserved
  · have hb : b.toNat < 256 := b.toNat_lt
    rcases List.mem_cons.1 hc with rfl | hc
    · exact .inr rfl
    · obtain ⟨digit, hmem, rfl⟩ := List.mem_map.1 hc
      rcases List.mem_cons.1 hmem with rfl | hmem
      · exact .inl (hdigit _ (by omega))
      · obtain rfl := List.mem_singleton.1 hmem
        exact .inl (hdigit _ (by omega))

end Path

/-- The words of a command that reads an address -/
def getWords (url : Text) : List Text :=
  ["curl".toList, "--fail".toList, "--show-error".toList, "--max-time".toList, "30".toList, url]

theorem run_curlGet (commands : List Shell.Command) (url rest : Text) :
    Shell.run (⟨commands, [], false, none, []⟩, .between) (curlGet url ++ rest) =
      Shell.run (⟨commands ++ [⟨getWords url, none⟩], [], false, none, []⟩, .between) rest := by
  have hname : Shell.run (⟨commands, [], false, none, []⟩, .between) getOptions =
      some (⟨commands, ["curl".toList, "--fail".toList, "--show-error".toList,
        "--max-time".toList, "30".toList], false, none, []⟩, .between) := rfl
  rw [curlGet, List.append_assoc, List.append_assoc, Shell.run_append, hname, Option.bind_some,
    Shell.run_append, quoteShell, Shell.run_quoteWith Shell.isEscape_backslash, Option.bind_some]
  rfl

theorem run_listComment : Shell.run (Shell.start, .between) listComment =
    some (Shell.start, .between) := rfl

set_option maxRecDepth 4000 in
theorem run_problemComment (commands : List Shell.Command) :
    Shell.run (⟨commands, [], false, none, []⟩, .between) problemComment =
      some (⟨commands, [], false, none, []⟩, .between) := (rfl)

/-- **The commands read the problems and the selected one.** -/
theorem curl_problem_commands_read {origin : Text} {props : SubmissionExampleProps}
    {commands : Text} (h : buildCurlProblemCommands origin props = some commands) :
    ∃ id problem, ofPoints (Utf16.decode props.problemId) = some id ∧
      Shell.script commands =
        some [⟨getWords (apiBaseUrl origin props.sojUrl ++ "/api/problems".toList), none⟩,
          ⟨getWords (apiBaseUrl origin props.sojUrl ++ "/api/problems".toList ++ '/' :: problem),
            none⟩] ∧
      percentDecode problem = some (Utf8.encode id) ∧
      ∀ c ∈ problem, isUnreserved c = true ∨ c = '%' := by
  obtain ⟨problem, hproblem, hcommands⟩ := Option.bind_eq_some_iff.1 h
  obtain ⟨id, hid, rfl⟩ := Option.map_eq_some_iff.1 hproblem
  obtain rfl := Option.some.inj hcommands
  refine ⟨id, _, hid, ?_, percentDecode_flatMap isKept_isUnreserved _, fun c hc => ?_⟩
  · generalize apiBaseUrl origin props.sojUrl ++ "/api/problems".toList = url
    rw [Shell.script, List.append_assoc, Shell.run_append, run_listComment, Option.bind_some,
      List.append_assoc, Shell.start, run_curlGet, List.append_assoc, Shell.run_append,
      run_problemComment, Option.bind_some, run_curlGet]
    rfl
  · obtain ⟨b, -, hb⟩ := List.mem_flatMap.1 hc
    exact mem_percentEncode (by decide) hb

/-- One character is written as three octets, and a quote leaves the quotes. -/
theorem curl_problem_commands_read_one :
    ∃ id problem, ofPoints (Utf16.decode (Utf16.encode "問'1".toList)) = some id ∧
      Shell.script ("# List problems (IDs and titles)\n".toList ++
        ("curl --fail --show-error --max-time 30 'http://a/api/problems'\n".toList ++
          (problemComment ++
            ("curl --fail --show-error --max-time 30 ".toList ++
              "'http://a/api/problems/%E5%95%8F'\\''1'\n".toList)))) =
        some [⟨getWords (apiBaseUrl [] "http://a/".toList ++ "/api/problems".toList), none⟩,
          ⟨getWords (apiBaseUrl [] "http://a/".toList ++ "/api/problems".toList ++ '/' :: problem),
            none⟩] ∧
      percentDecode problem = some (Utf8.encode id) ∧
      ∀ c ∈ problem, isUnreserved c = true ∨ c = '%' :=
  @curl_problem_commands_read [] ⟨"http://a/".toList, [], Utf16.encode "問'1".toList⟩ _
    (by decide +kernel)

/-! ### The script -/

theorem splitOn_unlines {lines : List Text} (h : ∀ line ∈ lines, '\n' ∉ line) :
    (unlines lines).splitOn '\n' = lines ++ [[]] := by
  induction lines with
  | nil => rfl
  | cons line lines ih =>
    obtain ⟨hline, hlines⟩ := List.forall_mem_cons.1 h
    have htext : unlines (line :: lines) = line ++ '\n' :: unlines lines := by
      rw [unlines, List.flatMap_cons, List.append_assoc]
      rfl
    rw [htext, List.splitOn_append_cons_self_of_not_mem hline, ih hlines]
    rfl

theorem newline_not_mem_pythonLines {url shellgei problemId : Text} (hurl : '\n' ∉ url)
    (hshellgei : '\n' ∉ shellgei) (hproblem : '\n' ∉ problemId) :
    ∀ line ∈ pythonLines url shellgei problemId, '\n' ∉ line := by
  have happend : ∀ {a b : Text}, '\n' ∉ a → '\n' ∉ b → '\n' ∉ a ++ b := fun ha hb h =>
    (List.mem_append.1 h).elim ha hb
  simp only [pythonLines, List.forall_mem_cons]
  refine ⟨by decide, by decide, by decide, happend (by decide) hurl, by decide,
    happend (happend (by decide) hshellgei) (by decide),
    happend (happend (by decide) hproblem) (by decide), by decide, by decide, by decide, by decide,
    by decide, by decide, by decide, by decide, by decide, by decide, by decide, by decide,
    by decide, ?_⟩
  intro line hline
  cases hline

/-- A text is written like its code points. -/
theorem string_eq_pointsString (text : Text) :
    Json.string text = pointsString escapePoint (text.map Char.toNat) := by
  have hpoint : ∀ c : Char, escapePoint c.toNat = escape c := by
    intro c
    rw [escapePoint, if_neg (not_isSurrogate_toNat c), Char.ofNat_toNat]
  rw [Json.string, pointsString, List.flatMap_map]
  simp only [hpoint]

theorem read_stringify (text : JsString) :
    PythonLiteral.read (stringify text) = some (Utf16.decode text, []) := by
  have hread := PythonLiteral.read_pointsString (points_decode text).1 []
  rwa [List.append_nil] at hread

theorem read_string (text : Text) :
    PythonLiteral.read (Json.string text) = some (text.map Char.toNat, []) := by
  have hlt : ∀ n ∈ text.map Char.toNat, n < 0x110000 := by
    intro n hn
    obtain ⟨c, -, rfl⟩ := List.mem_map.1 hn
    have := Utf8.char_range c
    omega
  have hread := PythonLiteral.read_pointsString hlt []
  rwa [List.append_nil, ← string_eq_pointsString] at hread

/-- **The script submits what is in the form.** -/
theorem python_script_submits (origin : Text) (props : SubmissionExampleProps) :
    let shellgei := if props.shellgei.isEmpty then sampleShellgei else props.shellgei
    ∃ urlLiteral shellgeiLiteral problemLiteral,
      (buildPythonScript origin props).splitOn '\n' =
        pythonLines urlLiteral shellgeiLiteral problemLiteral ++ [[]] ∧
      PythonLiteral.read urlLiteral =
        some ((apiBaseUrl origin props.sojUrl ++ "/api/v3/submissions".toList).map Char.toNat, []) ∧
      PythonLiteral.read shellgeiLiteral = some (Utf16.decode shellgei, []) ∧
      PythonLiteral.read problemLiteral = some (Utf16.decode props.problemId, []) ∧
      receiveBody (dumpsPayload (Utf16.decode shellgei) (Utf16.decode props.problemId)) =
        validateShellgeiData (Utf16.decode shellgei) (Utf16.decode props.problemId) := by
  refine ⟨_, _, _, splitOn_unlines (newline_not_mem_pythonLines ?_ ?_ ?_), read_string _,
    read_stringify _, read_stringify _, ?_⟩
  · exact newline_not_mem (noControl_string _)
  · exact newline_not_mem (noControl_pointsString _)
  · exact newline_not_mem (noControl_pointsString _)
  · have hbody := receiveBody_pointsObject escapes_asciiPoint (show [' '].all isBlank = true by rfl)
      (if props.shellgei.isEmpty then sampleShellgei else props.shellgei) props.problemId
      (show ([] : Text).all isBlank = true by rfl)
    rwa [List.append_nil] at hbody

/-- **The script reads the problems and the selected one.** -/
theorem python_problem_script_reads {origin : Text} {props : SubmissionExampleProps} {id : Text}
    (hid : ofPoints (Utf16.decode props.problemId) = some id) :
    ∃ urlLiteral problemLiteral points path,
      (buildPythonProblemScript origin props).splitOn '\n' =
        pythonProblemLines urlLiteral problemLiteral ++ [[]] ∧
      PythonLiteral.read urlLiteral =
        some ((apiBaseUrl origin props.sojUrl ++ "/api/problems".toList).map Char.toNat, []) ∧
      PythonLiteral.read problemLiteral = some (points, []) ∧ quotePath points = some path ∧
      percentDecode path = some (Utf8.encode id) ∧
      ∀ c ∈ path, isAlwaysSafe c = true ∨ c = '%' := by
  have hurl := newline_not_mem
    (noControl_string (apiBaseUrl origin props.sojUrl ++ "/api/problems".toList))
  have hproblem := newline_not_mem (noControl_pointsString (Utf16.decode props.problemId))
  have happend : ∀ {a b : Text}, '\n' ∉ a → '\n' ∉ b → '\n' ∉ a ++ b := fun ha hb h =>
    (List.mem_append.1 h).elim ha hb
  have hlines : ∀ line ∈ pythonProblemLines
      (Json.string (apiBaseUrl origin props.sojUrl ++ "/api/problems".toList))
      (stringify props.problemId), '\n' ∉ line := by
    simp only [pythonProblemLines, List.forall_mem_cons]
    refine ⟨by decide, by decide, by decide, by decide, happend (by decide) hurl,
      happend (by decide) hproblem, by decide, by decide, by decide, by decide, by decide,
      by decide, by decide, by decide, by decide, ?_⟩
    intro line hline
    cases hline
  refine ⟨_, _, _, _, splitOn_unlines hlines, read_string _, read_stringify _, ?_,
    percentDecode_flatMap isKept_isAlwaysSafe _, fun c hc => ?_⟩
  · rw [quotePath, hid]
    rfl
  · obtain ⟨b, -, hb⟩ := List.mem_flatMap.1 hc
    exact mem_percentEncode (by decide) hb

end SubmissionExamples
