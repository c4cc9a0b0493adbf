/-
The vulnerability gate (ci/supply_chain.py).

`scan` is a program whose actions are the tools, the files, the clock and the container
of the inspection; each of them gives any answer, or raises.  Reports and policies are
any values of JSON.

* `blockingFindings_ok` — a report is complete, or it is refused;
* `evaluatePythonPolicy_ok` — what a policy takes from the findings;
* `vulnerability_gate_fails_closed` — when `scan` returns, and what it returns.
-/
import ShellgeiOnlineJudge.ProgReach
import ShellgeiOnlineJudge.PythonValue
import ShellgeiOnlineJudge.RunnerProtocol

namespace SupplyChain

open Utf8 Python RunnerProtocol

/-! ### Actions -/

/-- The day of a date, counted from any other. -/
abbrev Date := ℤ

/-- What the standard library decides about texts. -/
structure Stdlib where
  /-- `date.fromisoformat` -/
  fromisoformat : Text → Except Exc Date
  /-- the characters of `\d` -/
  isDecimal : Char → Bool
  /-- the characters that `strip` removes -/
  isSpace : Char → Bool

/-- `PYTHON_RUNTIME_FILES` -/
def pythonRuntimeFiles : List Text :=
  ["/usr/local/bin/python3.12".toList,
    "/usr/local/lib/libpython3.12.so.1.0".toList,
    "/usr/local/lib/python3.12/http/cookies.py".toList,
    "/usr/local/lib/python3.12/lib-dynload/pyexpat.cpython-312-x86_64-linux-gnu.so".toList,
    "/usr/local/lib/python3.12/lib-dynload/_elementtree.cpython-312-x86_64-linux-gnu.so".toList]

/-- `PYTHON_RISK_FILES` -/
def pythonRiskFiles : List Text :=
  pythonRuntimeFiles ++ ["/usr/local/lib/python3.12/tarfile.py".toList]

/-- The files of the one policy, or of the other -/
def policyFiles (risk : Bool) : List Text := if risk then pythonRiskFiles else pythonRuntimeFiles

/-- The record of the application of a policy -/
structure PolicyRecord where
  kind : Text
  policy : Value
  evaluatedOn : Date
  source : Text
  status : Text
  applied : List Value
  runtime : Option Value

/-- `{name}.summary.json` -/
structure Summary where
  target : Text
  packages : ℕ
  findings : ℕ
  blockingBeforeExceptions : ℕ
  exceptions : ℕ
  riskAcceptances : ℕ
  blocking : ℤ

/-- The tools that `run` starts. -/
inductive Command
  /-- `syft source --source-name name -o syft-json=... -o cyclonedx-json=...` -/
  | syft (tools source name reports : Text)
  /-- `grype sbom:... -o json --file ...` -/
  | grype (tools reports name : Text)

/-- `Path(command[0]).name` -/
def Command.tool : Command → Text
  | syft _ _ _ _ => "syft".toList
  | grype _ _ _ => "grype".toList

/-- What a scan reads from its surroundings. -/
inductive Action
  /-- `subprocess.run(...).returncode` -/
  | run (command : Command)
  /-- `json.loads(path.read_text())` of `{name}.syft.json` -/
  | readInventory (reports name : Text)
  /-- of `{name}.grype.json` -/
  | readReport (reports name : Text)
  /-- of `PYTHON_RISK_POLICY` or `PYTHON_EXCEPTION_POLICY` -/
  | readPolicy (risk : Bool)
  | utcToday
  /-- `{target}.{suffix}.json` -/
  | writeRecord (reports target suffix : Text) (record : PolicyRecord)
  /-- `{name}.summary.json` -/
  | writeSummary (reports name : Text) (summary : Summary)
  | print (summary : Summary)
  /-- `os.environ.get("DOCKER_HOST", "")` -/
  | dockerHost
  /-- `docker.from_env(...)` -/
  | fromEnv
  /-- `client.info()["SecurityOptions"]` -/
  | securityOptions
  | createContainer (imageId : Text) (files : List Text)
  | start
  /-- `container.wait(...)["StatusCode"]` -/
  | wait
  /-- `json.loads(container.logs(...))` -/
  | logs
  | remove
  | close

/-- What an action that does not raise returns. -/
abbrev Action.Result : Action → Type
  | run _ => ℤ
  | readInventory _ _ => Value
  | readReport _ _ => Value
  | readPolicy _ => Value
  | utcToday => Date
  | dockerHost => Text
  | securityOptions => List Text
  | wait => ℤ
  | logs => Value
  | _ => Unit

/-- A part of the scan. -/
abbrev M (α : Type) := Prog Action (fun a => Except Exc a.Result) Exc α

/-- The actions so far, with their answers. -/
abbrev Past := List (Prog.Event Action fun a => Except Exc a.Result)

/-- Do an action and use its answer. -/
def call (a : Action) : M a.Result := do
  let answer ← Prog.perform a
  Prog.unwrap answer

/-- `if not condition: raise error` -/
def require (condition : Bool) (error : Exc) : Except Exc Unit :=
  if condition then .ok () else .error error

/-! ### Policies -/

/-- `date.fromisoformat`, of a value -/
def dateOf (lib : Stdlib) (value : Value) : Except Exc Date :=
  match value with
  | .str text => lib.fromisoformat text
  | _ => .error .typeError

/-- `date.fromisoformat(policy[key])` -/
def policyDate (lib : Stdlib) (policy : Value) (key : Text) : Except Exc Date := do
  let value ← policy.getItem key
  dateOf lib value

/-- The period of review -/
def reviewDays (lib : Stdlib) (policy : Value) : Except Exc ℤ := do
  let expires ← policyDate lib policy "expires_on".toList
  let reviewed ← policyDate lib policy "reviewed_on".toList
  pure (expires - reviewed)

/-- `set(v)` -/
def setOf (v : Value) : Except Exc (List Value) := do
  let elements ← v.iterate
  elements.mapM Value.hashed

/-- `v.values()` -/
def values (v : Value) : Except Exc (List Value) := do
  let members ← v.items
  pure (members.map Prod.snd)

/-- The keys of the artifact of a policy. -/
def artifactKeys : List Text := ["name".toList, "version".toList, "type".toList, "purl".toList]

/-- The artifact of a policy has the four keys and no empty value. -/
def checkArtifact (artifact : Value) : Except Exc Unit := do
  let keys ← setOf artifact
  require (eqSet keys (texts artifactKeys)) (.valueError "invalid Python exception artifact".toList)
  let fields ← values artifact
  require (fields.all Value.isNonemptyStr) (.valueError "invalid Python exception artifact".toList)

/-- `type(part) is int and part >= 0` -/
def isVersionPart : Value → Bool
  | .int n => 0 ≤ n
  | _ => false

/-- A version is three integers. -/
def isVersion : Value → Bool
  | .list parts => parts.length = 3 && parts.all isVersionPart
  | _ => false

/-- A text that matches `[0-9a-f]{64}` -/
def isDigest : Value → Bool
  | .str text => text.length = 64 && text.all isLowerHex
  | _ => false

/-- The keys of the runtime of a policy. -/
def runtimeKeys : List Text := ["python".toList, "expat".toList, "files".toList]

/-- The runtime of a policy has two versions and a SHA-256 for each file. -/
def checkRuntime (files : List Text) (runtime : Value) : Except Exc Unit := do
  let keys ← setOf runtime
  require (eqSet keys (texts runtimeKeys)) (.valueError "invalid Python exception runtime".toList)
  let python ← runtime.getItem "python".toList
  require (isVersion python) (.valueError "invalid Python exception runtime".toList)
  let expat ← runtime.getItem "expat".toList
  require (isVersion expat) (.valueError "invalid Python exception runtime".toList)
  let hashes ← runtime.getItem "files".toList
  let names ← setOf hashes
  require (eqSet names (texts files)) (.valueError "invalid Python exception file hashes".toList)
  let digests ← values hashes
  require (digests.all isDigest) (.valueError "invalid Python exception file hashes".toList)

/-- `re.fullmatch(r"CVE-\d{4}-\d{4,}", id)` -/
def isCve (lib : Stdlib) (id : Text) : Bool :=
  id.take 4 = "CVE-".toList && ((id.drop 4).take 4).length = 4 &&
    ((id.drop 4).take 4).all lib.isDecimal && (id.drop 8).head? = some '-' &&
    4 ≤ (id.drop 9).length && (id.drop 9).all lib.isDecimal

/-- `url.startswith("https://")` -/
def isHttpsUrl (url : Value) : Except Exc Bool :=
  match url with
  | .str text => .ok ("https://".toList.isPrefixOf text)
  | _ => .error .attributeError

/-- `re.fullmatch`, of a value -/
def matchesCve (lib : Stdlib) (id : Value) : Except Exc Bool :=
  match id with
  | .str text => .ok (isCve lib text)
  | _ => .error .typeError

/-- The error of `checkItem` -/
def evidenceError : Exc := .valueError "Python exception requires advisory evidence".toList

/-- A vulnerability of a policy has an ID, a reason and evidence. -/
def checkItem (lib : Stdlib) (item : Value) : Except Exc Unit := do
  let id ← item.getItem "id".toList
  let known ← matchesCve lib id
  require known evidenceError
  let reason ← item.getItem "reason".toList
  require reason.truthy evidenceError
  let evidence ← item.getItem "evidence".toList
  require evidence.truthy evidenceError
  let urls ← evidence.iterate
  let https ← forAll isHttpsUrl urls
  require https evidenceError

/-- `{item["id"] for item in items}`, with repetitions -/
def idsOf (items : List Value) : Except Exc (List Value) :=
  items.mapM fun item => do
    let id ← item.getItem "id".toList
    id.hashed

/-- The vulnerabilities of a policy have distinct IDs, and at least one. -/
def checkVulnerabilities (lib : Stdlib) (vulnerabilities : Value) : Except Exc Unit := do
  let error : Exc := .valueError "empty or duplicate Python exception vulnerabilities".toList
  require vulnerabilities.truthy error
  let items ← vulnerabilities.iterate
  let ids ← idsOf items
  require ((distinct ids).length = items.length) error
  items.forM (checkItem lib)

/-- The checks of `load_python_exception_policy` -/
def checkPolicy (lib : Stdlib) (files : List Text) (policy : Value) : Except Exc Unit := do
  let version ← policy.getItem "schema_version".toList
  require (version.eq (.int 1)) (.valueError "unknown Python exception policy schema".toList)
  let days ← reviewDays lib policy
  require (0 < days && days ≤ 31)
    (.valueError "Python exception review period must be at most 31 days".toList)
  let artifact ← policy.getItem "artifact".toList
  checkArtifact artifact
  let id ← policy.getItem "id".toList
  require id.truthy (.valueError "invalid Python exception identity".toList)
  let space ← policy.getItem "namespace".toList
  require (space.eq (.str "nvd:cpe".toList))
    (.valueError "invalid Python exception identity".toList)
  let runtime ← policy.getItem "runtime".toList
  checkRuntime files runtime
  let vulnerabilities ← policy.getItem "vulnerabilities".toList
  checkVulnerabilities lib vulnerabilities

/-- `isinstance(policy.get(key), str) and policy[key].strip()` -/
def isFilled (lib : Stdlib) (policy : Value) (key : Text) : Except Exc Bool := do
  let value ← policy.get key .none
  pure (match value with
    | .str text => !(text.all lib.isSpace)
    | _ => false)

/-- The checks of `load_python_risk_policy` -/
def checkRiskPolicy (lib : Stdlib) (policy : Value) : Except Exc Unit := do
  let error : Exc := .valueError "invalid temporary Python risk acceptance".toList
  let kind ← policy.get "kind".toList .none
  require (kind.eq (.str "risk-acceptance".toList)) error
  let targets ← policy.get "targets".toList .none
  require (targets.eq (.list (texts ["backend".toList, "runner".toList]))) error
  let vulnerabilities ← policy.getItem "vulnerabilities".toList
  let items ← vulnerabilities.iterate
  let ids ← items.mapM (·.getItem "id".toList)
  require (Value.eq (.list ids) (.list (texts ["CVE-2026-82049".toList]))) error
  let filled ← forAll (isFilled lib policy)
    ["accepted_by".toList, "exposure".toList, "remediation".toList, "revoke_when".toList]
  require filled error
  let days ← reviewDays lib policy
  require (days ≤ 14) error

/-- `load_python_exception_policy` and `load_python_risk_policy` -/
def loadPolicy (lib : Stdlib) (risk : Bool) : M Value := do
  let policy : Value ← call (.readPolicy risk)
  Prog.unwrap (checkPolicy lib (policyFiles risk) policy)
  Prog.unwrap (if risk then checkRiskPolicy lib policy else .ok ())
  pure policy

/-! ### The inspection -/

/-- `if condition: raise error` -/
def raiseIf (condition : Bool) (error : Exc) : M Unit :=
  if condition then throw error else pure ()

/-- `re.fullmatch(r"sha256:[0-9a-f]{64}", image_id)` -/
def isImageId (imageId : Text) : Bool :=
  imageId.take 7 = "sha256:".toList && (imageId.drop 7).length = 64 &&
    (imageId.drop 7).all isLowerHex

/-- What the container is started for -/
def runInspection : M Value := do
  call .start
  let code : ℤ ← call .wait
  raiseIf (code ≠ 0) (.runtimeError "Python runtime inspection failed".toList)
  let result : Value ← call .logs
  raiseIf (!result.isDict) (.valueError "invalid Python runtime inspection result".toList)
  pure result

/-- `inspect_python_runtime` -/
def inspectPythonRuntime (imageId : Text) (files : List Text) : M Value := do
  raiseIf (!isImageId imageId)
    (.valueError "Python inspection requires an immutable image ID".toList)
  let host : Text ← call .dockerHost
  raiseIf (!"unix://".toList.isPrefixOf host)
    (.runtimeError "set DOCKER_HOST to a local rootless Unix socket".toList)
  call .fromEnv
  Prog.finally'
    (do
      let options : List Text ← call .securityOptions
      raiseIf (!options.contains "name=rootless".toList)
        (.runtimeError "rootful Docker is not allowed".toList)
      call (.createContainer imageId files)
      runInspection.finally' (call .remove))
    (call .close)

/-! ### The application of a policy -/

/-- `match.get("artifact", {}).get(key) == value` -/
def hasField (found : Value) (field : Text × Value) : Except Exc Bool := do
  let artifact ← found.get "artifact".toList (.dict [])
  let value ← artifact.get field.1 .none
  pure (value.eq field.2)

/-- `{location["path"] for location in ...} == set(PYTHON_RUNTIME_FILES[:2])` -/
def hasLocations (found : Value) : Except Exc Bool := do
  let artifact ← found.get "artifact".toList (.dict [])
  let locations ← artifact.get "locations".toList (.list [])
  let locations ← locations.iterate
  let paths ← locations.mapM fun location => do
    let path ← location.getItem "path".toList
    path.hashed
  pure (eqSet paths (texts (pythonRuntimeFiles.take 2)))

/-- The condition of `candidates` -/
def isCandidate (policy : Value) (ids : List Value) (found : Value) : Except Exc Bool := do
  let vulnerability ← found.getItem "vulnerability".toList
  let id ← vulnerability.get "id".toList .none
  if ← id.inSet ids then do
    let space ← vulnerability.get "namespace".toList .none
    let expected ← policy.getItem "namespace".toList
    if space.eq expected then do
      let artifact ← policy.getItem "artifact".toList
      let fields ← artifact.items
      if ← forAll (hasField found) fields then hasLocations found else pure false
    else pure false
  else pure false

/-- `re.fullmatch(r"docker:sha256:[0-9a-f]{64}", source)` -/
def isDockerSource (source : Text) : Bool :=
  source.take 7 = "docker:".toList && isImageId (source.drop 7)

/-- `{item["id"] for item in policy["vulnerabilities"]}` -/
def policyIds (policy : Value) : Except Exc (List Value) := do
  let vulnerabilities ← policy.getItem "vulnerabilities".toList
  let items ← vulnerabilities.iterate
  idsOf items

/-- `reviewed_on <= today < expires_on` -/
def isActive (lib : Stdlib) (policy : Value) (today : Date) : Except Exc Bool := do
  let reviewed ← policyDate lib policy "reviewed_on".toList
  if reviewed ≤ today then do
    let expires ← policyDate lib policy "expires_on".toList
    pure (today < expires)
  else pure false

/-- The kind that a policy must have. -/
def policyKind (risk : Bool) : Text :=
  if risk then "risk-acceptance".toList else "verified-fix".toList

/-- The name of the report of a policy. -/
def policySuffix (risk : Bool) : Text :=
  if risk then "python-risk-acceptance".toList else "python-exceptions".toList

/-- The record before the inspection -/
def firstRecord (risk : Bool) (policy : Value) (today : Date) (source : Text) (active : Bool)
    (candidates : List Value) : PolicyRecord where
  kind := policyKind risk
  policy := policy
  evaluatedOn := today
  source := source
  status :=
    if !active then "inactive".toList
    else if candidates.isEmpty then "not-applicable".toList
    else "unverified".toList
  applied := []
  runtime := none

/-- The record of what was inspected -/
def PolicyRecord.inspected (record : PolicyRecord) (runtime : Value) (same : Bool)
    (candidates : List Value) : PolicyRecord :=
  { record with
    runtime := some runtime
    status := if same then "applied".toList else "runtime-mismatch".toList
    applied := if same then candidates else [] }

/-- The inspection for the candidates, when there are any -/
def applyPolicy (reports source target : Text) (risk : Bool) (policy : Value)
    (candidates : List Value) (record : PolicyRecord) : M (List Value) := do
  let runtime ← inspectPythonRuntime (source.drop 7) (policyFiles risk)
  let expected ← Prog.unwrap (policy.getItem "runtime".toList)
  let same := runtime.eq expected
  call (.writeRecord reports target (policySuffix risk) (record.inspected runtime same candidates))
  pure (if same then candidates else [])

/-- `evaluate_python_policy` -/
def evaluatePythonPolicy (lib : Stdlib) (blocked : List Value) (source target reports : Text)
    (risk : Bool) : M (List Value) :=
  if !(["backend".toList, "runner".toList].contains target) then pure []
  else do
    raiseIf (!isDockerSource source)
      (.valueError "Python exceptions require the scanned immutable image ID".toList)
    let policy ← loadPolicy lib risk
    let today : Date ← call .utcToday
    let active ← Prog.unwrap (isActive lib policy today)
    let ids ← Prog.unwrap (policyIds policy)
    let candidates ← Prog.unwrap (select (isCandidate policy ids) blocked)
    let record := firstRecord risk policy today source active candidates
    call (.writeRecord reports target (policySuffix risk) record)
    if active && !candidates.isEmpty then
      applyPolicy reports source target risk policy candidates record
    else pure []

/-- `python_runtime_exceptions` -/
def pythonRuntimeExceptions (lib : Stdlib) (blocked : List Value) (source target reports : Text) :
    M (List Value) :=
  evaluatePythonPolicy lib blocked source target reports false

/-- `python_runtime_risk_acceptances` -/
def pythonRuntimeRiskAcceptances (lib : Stdlib) (blocked : List Value)
    (source target reports : Text) : M (List Value) :=
  evaluatePythonPolicy lib blocked source target reports true

/-! ### The scan -/

/-- The severities that Grype gives. -/
def severities : List Text :=
  ["Unknown".toList, "Negligible".toList, "Low".toList, "Medium".toList, "High".toList,
    "Critical".toList]

/-- The fix states that Grype gives. -/
def fixStates : List Text :=
  ["fixed".toList, "not-fixed".toList, "unknown".toList, "wont-fix".toList]

/-- The severities that block where a fix exists. -/
def blockingSeverities : List Text := ["High".toList, "Critical".toList]

/-- `fix["state"] == "" and not fix.get("versions")` -/
def isUnset (fix state : Value) : Except Exc Bool :=
  if state.eq (.str []) then do
    let versions ← fix.get "versions".toList .none
    pure !versions.truthy
  else pure false

/-- The body of the loop of `blocking_findings`: whether the finding blocks -/
def checkFinding (found : Value) : Except Exc Bool := do
  let vulnerability ← found.getItem "vulnerability".toList
  let severity ← vulnerability.getItem "severity".toList
  let known ← severity.inSet (texts severities)
  require known (.valueError "unknown Grype severity".toList)
  let fix ← vulnerability.getItem "fix".toList
  let state ← fix.getItem "state".toList
  let unset ← isUnset fix state
  if unset then pure false
  else do
    let known ← state.inSet (texts fixStates)
    require known (.valueError "unknown Grype fix state".toList)
    let high ← severity.inSet (texts blockingSeverities)
    pure (high && state.eq (.str "fixed".toList))

/-- `blocking_findings` -/
def blockingFindings (report : Value) : Except Exc (List Value) := do
  let findings ← report.get "matches".toList .none
  require findings.isList (.valueError "invalid Grype report".toList)
  let descriptor ← report.get "descriptor".toList .none
  require descriptor.isDict (.valueError "invalid Grype report".toList)
  let findings ← findings.iterate
  select checkFinding findings

/-- `run` -/
def run (command : Command) : M Unit := do
  let code : ℤ ← call (.run command)
  raiseIf (code ≠ 0)
    (.runtimeError (command.tool ++ " failed with exit ".toList ++ (toString code).toList))

/-- `{"fastapi", "react"} <= {package["name"] for package in ...}` -/
def hasBothLocks (artifacts : Value) : Except Exc Bool := do
  let packages ← artifacts.iterate
  let names ← packages.mapM fun package => do
    let name ← package.getItem "name".toList
    name.hashed
  pure ((texts ["fastapi".toList, "react".toList]).all fun name => names.any fun v => v.eq name)

/-- The inventory has packages, and is complete. -/
def checkInventory (name : Text) (artifacts : Value) : Except Exc Unit := do
  require artifacts.truthy (.runtimeError (name ++ ": package inventory is empty".toList))
  let complete ← if name = "dependencies".toList then hasBothLocks artifacts else pure true
  require complete
    (.runtimeError "both Python and frontend lock inventories are required".toList)

/-- `scan` -/
def scan (lib : Stdlib) (tools source reports name : Text) : M Bool := do
  run (.syft tools source name reports)
  let inventory : Value ← call (.readInventory reports name)
  let artifacts ← Prog.unwrap (inventory.get "artifacts".toList .none)
  Prog.unwrap (checkInventory name artifacts)
  run (.grype tools reports name)
  let result : Value ← call (.readReport reports name)
  let blocked ← Prog.unwrap (blockingFindings result)
  let exempted ← pythonRuntimeExceptions lib blocked source name reports
  let accepted ← pythonRuntimeRiskAcceptances lib
    (blocked.filter fun found => !exempted.any fun e => e.eq found) source name reports
  let packages ← Prog.unwrap artifacts.len
  let findings ← Prog.unwrap (do (← result.getItem "matches".toList).len)
  let summary : Summary := {
    target := name
    packages := packages
    findings := findings
    blockingBeforeExceptions := blocked.length
    exceptions := exempted.length
    riskAcceptances := accepted.length
    blocking := blocked.length - exempted.length - accepted.length }
  call (.writeSummary reports name summary)
  call (.print summary)
  pure (blocked.length = exempted.length + accepted.length)

/-! ### Reports -/

/-- `report["matches"]` -/
def findingsOf (report : Value) : List Value :=
  match report.field "matches".toList with
  | some (.list items) => items
  | _ => []

/-- `match["vulnerability"][key]` -/
def vulnerabilityField (found : Value) (key : Text) : Option Value :=
  (found.field "vulnerability".toList).bind (·.field key)

/-- `match["vulnerability"]["fix"][key]` -/
def fixField (found : Value) (key : Text) : Option Value :=
  (vulnerabilityField found "fix".toList).bind (·.field key)

/-- The severity is one of the six, and the state of the fix one of the four, or empty and without
versions. -/
structure KnownFinding (found : Value) : Prop where
  severity : ∃ severity ∈ severities,
    vulnerabilityField found "severity".toList = some (.str severity)
  state : (∃ state ∈ fixStates, fixField found "state".toList = some (.str state)) ∨
    (fixField found "state".toList = some (.str []) ∧
      ((fixField found "versions".toList).getD .none).truthy = false)

/-- The report of Grype lists its findings, and each of them can be judged. -/
structure CompleteReport (report : Value) : Prop where
  findings : ∃ items, report.field "matches".toList = some (.list items)
  descriptor : ∃ members, report.field "descriptor".toList = some (.dict members)
  known : ∀ found ∈ findingsOf report, KnownFinding found

/-- High or Critical, and fixed -/
def isBlocking (found : Value) : Bool :=
  match vulnerabilityField found "severity".toList, fixField found "state".toList with
  | some (.str severity), some (.str state) =>
    blockingSeverities.contains severity && state = "fixed".toList
  | _, _ => false

theorem require_ok {condition : Bool} {error : Exc} {u : Unit}
    (h : require condition error = .ok u) : condition = true := by
  cases condition with
  | false => cases h
  | true => rfl

/-- A value that is in a set of texts is one of them. -/
theorem inSet_texts {v : Value} {s : List Text} (h : v.inSet (texts s) = .ok true) :
    ∃ text ∈ s, v = .str text := by
  obtain ⟨w, hw, heq⟩ := inSet_ok h
  obtain ⟨text, htext, rfl⟩ := List.mem_map.1 hw
  exact ⟨text, htext, eq_str.1 heq⟩

theorem inSet_str {text : Text} {s : List Text} :
    (Value.str text).inSet (texts s) = .ok (s.contains text) := by
  show Except.ok _ = _
  refine congrArg Except.ok (Bool.eq_iff_iff.2 ?_)
  simp [texts, eq_str]

theorem checkFinding_ok {found : Value} {blocks : Bool} (h : checkFinding found = .ok blocks) :
    KnownFinding found ∧ blocks = isBlocking found := by
  obtain ⟨vulnerability, hvulnerability, h⟩ := bind_eq_ok.1 h
  obtain ⟨severity, hseverity, h⟩ := bind_eq_ok.1 h
  obtain ⟨known, hknown, h⟩ := bind_eq_ok.1 h
  obtain ⟨_, hrequire, h⟩ := bind_eq_ok.1 h
  obtain ⟨fix, hfix, h⟩ := bind_eq_ok.1 h
  obtain ⟨state, hstate, h⟩ := bind_eq_ok.1 h
  obtain ⟨unset, hunset, h⟩ := bind_eq_ok.1 h
  rw [require_ok hrequire] at hknown
  obtain ⟨severity, hmem, rfl⟩ := inSet_texts hknown
  have hvulnerabilityField : ∀ key, vulnerabilityField found key = vulnerability.field key := by
    intro key
    rw [vulnerabilityField, getItem_ok.1 hvulnerability]
    rfl
  have hfixField : ∀ key, fixField found key = fix.field key := by
    intro key
    rw [fixField, hvulnerabilityField, getItem_ok.1 hfix]
    rfl
  have hseverityField := (hvulnerabilityField _).trans (getItem_ok.1 hseverity)
  have hstateField := (hfixField _).trans (getItem_ok.1 hstate)
  -- no fix state: then no version may have a fix, and the finding does not block
  cases unset with
  | true =>
    obtain rfl := Except.ok.inj h
    have hempty : state = .str [] ∧ ((fix.field "versions".toList).getD .none).truthy = false := by
      unfold isUnset at hunset
      split at hunset
      · next heq =>
        obtain ⟨versions, hversions, hunset⟩ := bind_eq_ok.1 hunset
        rw [get_ok hversions]
        exact ⟨eq_str.1 heq, by simpa using Except.ok.inj hunset⟩
      · cases hunset
    obtain ⟨rfl, hversions⟩ := hempty
    refine ⟨⟨⟨severity, hmem, hseverityField⟩, .inr ⟨hstateField, ?_⟩⟩, ?_⟩
    · rw [hfixField]
      exact hversions
    · rw [isBlocking, hseverityField, hstateField]
      simp
  | false =>
    -- a fix state has to be a known one
    obtain ⟨known', hknown', h⟩ := bind_eq_ok.1 h
    obtain ⟨_, hrequire', h⟩ := bind_eq_ok.1 h
    rw [require_ok hrequire'] at hknown'
    obtain ⟨state, hmem', rfl⟩ := inSet_texts hknown'
    obtain ⟨high, hhigh, h⟩ := bind_eq_ok.1 h
    rw [inSet_str] at hhigh
    obtain rfl := Except.ok.inj hhigh
    obtain rfl := Except.ok.inj h
    refine ⟨⟨⟨severity, hmem, hseverityField⟩, .inl ⟨state, hmem', hstateField⟩⟩, ?_⟩
    rw [isBlocking, hseverityField, hstateField]
    simp [Value.eq]

/-- A report is complete, or it is refused. -/
theorem blockingFindings_ok {report : Value} {blocked : List Value}
    (h : blockingFindings report = .ok blocked) :
    CompleteReport report ∧ blocked = (findingsOf report).filter isBlocking := by
  obtain ⟨findings, hfindings, h⟩ := bind_eq_ok.1 h
  obtain ⟨_, hlist, h⟩ := bind_eq_ok.1 h
  obtain ⟨descriptor, hdescriptor, h⟩ := bind_eq_ok.1 h
  obtain ⟨_, hdict, h⟩ := bind_eq_ok.1 h
  obtain ⟨items, hitems, h⟩ := bind_eq_ok.1 h
  obtain ⟨items', rfl⟩ := isList_iff.1 (require_ok hlist)
  obtain ⟨members, rfl⟩ := isDict_iff.1 (require_ok hdict)
  have hfield := field_of_get hfindings (by simp)
  have hdescribed := field_of_get hdescriptor (by simp)
  obtain rfl := Except.ok.inj hitems
  have hof : findingsOf report = items' := by rw [findingsOf, hfield]
  obtain ⟨hall, rfl⟩ := select_ok h
  refine ⟨⟨⟨items', hfield⟩, ⟨members, hdescribed⟩, fun found hfound => ?_⟩, ?_⟩
  · obtain ⟨blocks, hblocks⟩ := hall found (hof ▸ hfound)
    exact (checkFinding_ok hblocks).1
  · rw [hof]
    refine List.filter_congr fun found hfound => ?_
    obtain ⟨blocks, hblocks⟩ := hall found hfound
    rw [hblocks, (checkFinding_ok hblocks).2]
    rfl

/-! ### What a policy covers -/

/-- `match["artifact"][key]` -/
def artifactField (found : Value) (key : Text) : Option Value :=
  (found.field "artifact".toList).bind (·.field key)

/-- The policy is about the vulnerability with this ID. -/
def PolicyId (policy : Value) (id : Text) : Prop :=
  ∃ vulnerabilities items, policy.field "vulnerabilities".toList = some vulnerabilities ∧
    vulnerabilities.iterate = .ok items ∧ ∃ item ∈ items, item.field "id".toList = some (.str id)

/-- The finding is one of those that the policy is about: by its ID, its namespace, the fields of its
artifact, and the set of its locations. -/
structure Covered (policy found : Value) : Prop where
  id : ∃ id, vulnerabilityField found "id".toList = some (.str id) ∧ PolicyId policy id
  space : ∃ space, vulnerabilityField found "namespace".toList = some (.str space) ∧
    policy.field "namespace".toList = some (.str space)
  artifact : ∃ members, policy.field "artifact".toList = some (.dict members) ∧
    ∀ member ∈ members, artifactField found member.1 = some member.2
  locations : ∃ locations items, artifactField found "locations".toList = some locations ∧
    locations.iterate = .ok items ∧
    (∀ item ∈ items, ∃ path ∈ pythonRuntimeFiles.take 2,
      item.field "path".toList = some (.str path)) ∧
    ∀ path ∈ pythonRuntimeFiles.take 2, ∃ item ∈ items,
      item.field "path".toList = some (.str path)

/-- What the checks of a policy say about the values that findings are compared with. -/
structure Checked (policy : Value) : Prop where
  ids : ∀ vulnerabilities items, policy.field "vulnerabilities".toList = some vulnerabilities →
    vulnerabilities.iterate = .ok items → ∀ item ∈ items, ∃ id,
      item.field "id".toList = some (.str id)
  space : policy.field "namespace".toList = some (.str "nvd:cpe".toList)
  artifact : ∃ members, policy.field "artifact".toList = some (.dict members) ∧
    ∀ member ∈ members, ∃ text, member.2 = .str text

theorem checkItem_ok {lib : Stdlib} {item : Value} {u : Unit} (h : checkItem lib item = .ok u) :
    ∃ id, item.field "id".toList = some (.str id) := by
  obtain ⟨id, hid, h⟩ := bind_eq_ok.1 h
  obtain ⟨known, hknown, h⟩ := bind_eq_ok.1 h
  cases id with
  | str text => exact ⟨text, getItem_ok.1 hid⟩
  | _ => cases hknown

theorem checkArtifact_ok {artifact : Value} {u : Unit} (h : checkArtifact artifact = .ok u) :
    ∃ members, artifact = .dict members ∧ ∀ member ∈ members, ∃ text, member.2 = .str text := by
  obtain ⟨keys, -, h⟩ := bind_eq_ok.1 h
  obtain ⟨_, -, h⟩ := bind_eq_ok.1 h
  obtain ⟨fields, hfields, h⟩ := bind_eq_ok.1 h
  obtain ⟨members, hmembers, hvalues⟩ := bind_eq_ok.1 hfields
  obtain rfl := Except.ok.inj hvalues
  cases artifact with
  | dict members' =>
    obtain rfl := Except.ok.inj hmembers
    refine ⟨members', rfl, fun member hmember => ?_⟩
    exact isNonemptyStr_ok (List.all_eq_true.1 (require_ok h) _ (List.mem_map_of_mem hmember))
  | _ => cases hmembers

theorem checkPolicy_ok {lib : Stdlib} {files : List Text} {policy : Value} {u : Unit}
    (h : checkPolicy lib files policy = .ok u) : Checked policy := by
  -- the checks in their order, of which four matter here
  obtain ⟨version, -, h⟩ := bind_eq_ok.1 h
  obtain ⟨_, -, h⟩ := bind_eq_ok.1 h
  obtain ⟨days, -, h⟩ := bind_eq_ok.1 h
  obtain ⟨_, -, h⟩ := bind_eq_ok.1 h
  obtain ⟨artifact, hartifact, h⟩ := bind_eq_ok.1 h
  obtain ⟨_, hcheck, h⟩ := bind_eq_ok.1 h
  obtain ⟨id, -, h⟩ := bind_eq_ok.1 h
  obtain ⟨_, -, h⟩ := bind_eq_ok.1 h
  obtain ⟨space, hspace, h⟩ := bind_eq_ok.1 h
  obtain ⟨_, hcpe, h⟩ := bind_eq_ok.1 h
  obtain ⟨runtime, -, h⟩ := bind_eq_ok.1 h
  obtain ⟨_, -, h⟩ := bind_eq_ok.1 h
  obtain ⟨vulnerabilities, hvulnerabilities, h⟩ := bind_eq_ok.1 h
  obtain ⟨_, -, h⟩ := bind_eq_ok.1 h
  obtain ⟨items, hitems, h⟩ := bind_eq_ok.1 h
  obtain ⟨ids, -, h⟩ := bind_eq_ok.1 h
  obtain ⟨_, -, hall⟩ := bind_eq_ok.1 h
  obtain ⟨members, rfl, htexts⟩ := checkArtifact_ok hcheck
  obtain rfl := eq_str.1 (require_ok hcpe)
  refine ⟨fun vulnerabilities' items' hfield hiterate item hitem => ?_, getItem_ok.1 hspace,
    members, getItem_ok.1 hartifact, htexts⟩
  obtain rfl := Option.some.inj ((getItem_ok.1 hvulnerabilities).symm.trans hfield)
  obtain rfl := Except.ok.inj (hitems.symm.trans hiterate)
  exact checkItem_ok (forM_ok hall item hitem)

theorem artifactField_of_get {found artifact v : Value} {key : Text}
    (h : found.get "artifact".toList (.dict []) = .ok artifact) (hfield : artifact.field key = some v) :
    artifactField found key = some v := by
  rw [artifactField, field_of_get h]
  · exact hfield
  · rintro rfl
    cases hfield

theorem hasField_ok {found : Value} {key text : Text}
    (h : hasField found (key, .str text) = .ok true) : artifactField found key = some (.str text) := by
  obtain ⟨artifact, hartifact, h⟩ := bind_eq_ok.1 h
  obtain ⟨value, hvalue, h⟩ := bind_eq_ok.1 h
  obtain rfl := eq_str.1 (Except.ok.inj h)
  exact artifactField_of_get hartifact (field_of_get hvalue (by simp))

theorem hasLocations_ok {found : Value} (h : hasLocations found = .ok true) :
    ∃ locations items, artifactField found "locations".toList = some locations ∧
      locations.iterate = .ok items ∧
      (∀ item ∈ items, ∃ path ∈ pythonRuntimeFiles.take 2,
        item.field "path".toList = some (.str path)) ∧
      ∀ path ∈ pythonRuntimeFiles.take 2, ∃ item ∈ items,
        item.field "path".toList = some (.str path) := by
  obtain ⟨artifact, hartifact, h⟩ := bind_eq_ok.1 h
  obtain ⟨locations, hlocations, h⟩ := bind_eq_ok.1 h
  obtain ⟨items, hitems, h⟩ := bind_eq_ok.1 h
  obtain ⟨paths, hpaths, h⟩ := bind_eq_ok.1 h
  obtain ⟨hsub, hsuper⟩ := eqSet_texts.1 (Except.ok.inj h)
  have hpath : ∀ {item path : Value}, (do
      let path ← item.getItem "path".toList
      path.hashed) = .ok path → item.field "path".toList = some path := by
    intro item path h
    obtain ⟨path', hpath', hhashed⟩ := bind_eq_ok.1 h
    rw [hashed_ok hhashed]
    exact getItem_ok.1 hpath'
  obtain ⟨hforth, hwitness⟩ := mapM_ok hpaths
  -- the set of the paths is that of the two files
  have hback : ∀ path ∈ pythonRuntimeFiles.take 2, ∃ item ∈ items,
      item.field "path".toList = some (.str path) := by
    intro path hmem
    obtain ⟨item, hitem, h⟩ := hwitness _ (hsuper path hmem)
    exact ⟨item, hitem, hpath h⟩
  -- so there is a location, and the default was not read
  have hne : locations ≠ .list [] := by
    rintro rfl
    obtain rfl := Except.ok.inj hitems
    obtain ⟨_, hnil, _⟩ := hback "/usr/local/bin/python3.12".toList (by decide)
    cases hnil
  refine ⟨locations, items, artifactField_of_get hartifact (field_of_get hlocations hne), hitems,
    fun item hitem => ?_, hback⟩
  obtain ⟨path, hmem, h⟩ := hforth item hitem
  obtain ⟨text, htext, rfl⟩ := hsub path hmem
  exact ⟨text, htext, hpath h⟩

theorem isCandidate_ok {policy found : Value} {ids : List Value} (hchecked : Checked policy)
    (hids : policyIds policy = .ok ids) (h : isCandidate policy ids found = .ok true) :
    Covered policy found := by
  obtain ⟨vulnerability, hvulnerability, h⟩ := bind_eq_ok.1 h
  obtain ⟨id, hid, h⟩ := bind_eq_ok.1 h
  obtain ⟨known, hknown, h⟩ := bind_eq_ok.1 h
  have hfield : ∀ {key : Text} {text : Text}, vulnerability.get key .none = .ok (.str text) →
      vulnerabilityField found key = some (.str text) := by
    intro key text hget
    rw [vulnerabilityField, getItem_ok.1 hvulnerability]
    exact field_of_get hget (by simp)
  -- each comparison that fails ends with false
  cases known with
  | false => cases h
  | true =>
    rw [if_pos rfl] at h
    obtain ⟨space, hspace, h⟩ := bind_eq_ok.1 h
    obtain ⟨expected, hexpected, h⟩ := bind_eq_ok.1 h
    obtain rfl := Option.some.inj (hchecked.space.symm.trans (getItem_ok.1 hexpected))
    cases hsame : space.eq (.str "nvd:cpe".toList) with
    | false =>
      rw [hsame] at h
      cases h
    | true =>
      rw [if_pos hsame] at h
      rw [eq_str.1 hsame] at hspace
      obtain ⟨artifact, hartifact, h⟩ := bind_eq_ok.1 h
      obtain ⟨fields, hfields, h⟩ := bind_eq_ok.1 h
      obtain ⟨equal, hequal, h⟩ := bind_eq_ok.1 h
      cases equal with
      | false => cases h
      | true =>
        refine ⟨?_, ⟨_, hfield hspace, hchecked.space⟩, ?_, hasLocations_ok h⟩
        -- the ID of the finding equals one of the policy, which is a text
        · obtain ⟨vulnerabilities, hvulnerabilities, hids⟩ := bind_eq_ok.1 hids
          obtain ⟨items, hitems, hids⟩ := bind_eq_ok.1 hids
          obtain ⟨w, hw, heq⟩ := inSet_ok hknown
          obtain ⟨item, hitem, hitemId⟩ := (mapM_ok hids).2 w hw
          obtain ⟨w', hw', hhashed⟩ := bind_eq_ok.1 hitemId
          obtain rfl := hashed_ok hhashed
          have hpolicy := getItem_ok.1 hvulnerabilities
          obtain ⟨text, htext⟩ := hchecked.ids _ _ hpolicy hitems item hitem
          obtain rfl := Option.some.inj (htext.symm.trans (getItem_ok.1 hw'))
          obtain rfl := eq_str.1 heq
          exact ⟨text, hfield hid, _, items, hpolicy, hitems, item, hitem, htext⟩
        -- the artifact of the finding has every member of that of the policy
        · obtain ⟨members, hmembers, htexts⟩ := hchecked.artifact
          obtain rfl := Option.some.inj (hmembers.symm.trans (getItem_ok.1 hartifact))
          obtain rfl := Except.ok.inj hfields
          refine ⟨members, hmembers, fun member hmember => ?_⟩
          obtain ⟨text, htext⟩ := htexts member hmember
          have hmember := forAll_ok hequal member hmember
          obtain ⟨key, value⟩ := member
          obtain rfl : value = .str text := htext
          exact hasField_ok hmember

/-! ### What a policy takes -/

section

variable {β : Type} {past : Past} {b : β}

theorem ends_call_bind {a : Action} {f : a.Result → M β}
    (h : Prog.Ends (call a >>= f) past (.ok b)) :
    ∃ value rest, past = ⟨a, .ok value⟩ :: rest ∧ Prog.Ends (f value) rest (.ok b) := by
  obtain ⟨front, back, value, rfl, hcall, hf⟩ := h.of_bind_ok
  obtain ⟨answer, rest, rfl, hanswer⟩ := hcall.of_perform_bind
  obtain ⟨rfl, rfl⟩ := Prog.ends_done.1 hanswer
  exact ⟨value, back, rfl, hf⟩

theorem ends_raiseIf_bind {condition : Bool} {error : Exc} {f : Unit → M β}
    (h : Prog.Ends (raiseIf condition error >>= f) past (.ok b)) :
    condition = false ∧ Prog.Ends (f ()) past (.ok b) := by
  cases condition with
  | false => exact ⟨rfl, h⟩
  | true => exact nomatch (Prog.ends_done.1 h).2

theorem ends_run_bind {command : Command} {f : Unit → M β}
    (h : Prog.Ends (run command >>= f) past (.ok b)) :
    ∃ code rest, past = ⟨.run command, code⟩ :: rest ∧ Prog.Ends (f ()) rest (.ok b) := by
  obtain ⟨front, back, _, rfl, hrun, hf⟩ := h.of_bind_ok
  obtain ⟨code, rest, rfl, hrest⟩ := ends_call_bind hrun
  cases hcode : decide (code ≠ 0) with
  | false =>
    rw [hcode] at hrest
    obtain ⟨rfl, -⟩ := Prog.ends_done.1 hrest
    exact ⟨_, back, rfl, hf⟩
  | true =>
    rw [hcode] at hrest
    exact nomatch (Prog.ends_done.1 hrest).2

end

/-- The policy was read and is valid, the day is in its period of review, and the runtime that was
inspected is the one of the policy. -/
structure InForce (lib : Stdlib) (risk : Bool) (source target : Text) (past : Past)
    (policy : Value) : Prop where
  target : target = "backend".toList ∨ target = "runner".toList
  loaded : ⟨.readPolicy risk, .ok policy⟩ ∈ past
  valid : checkPolicy lib (policyFiles risk) policy = .ok ()
  acceptance : risk = true → checkRiskPolicy lib policy = .ok ()
  period : ∃ today reviewed expires, ⟨.utcToday, .ok today⟩ ∈ past ∧
    policyDate lib policy "reviewed_on".toList = .ok reviewed ∧
    policyDate lib policy "expires_on".toList = .ok expires ∧ reviewed ≤ today ∧ today < expires
  runtime : ∃ front inspection back inspected expected, past = front ++ (inspection ++ back) ∧
    Prog.Ends (inspectPythonRuntime (source.drop 7) (policyFiles risk)) inspection (.ok inspected) ∧
    policy.field "runtime".toList = some expected ∧ inspected.eq expected = true

/-- The findings that were taken are some of the blocking ones, and a policy covers them. -/
structure Taken (lib : Stdlib) (risk : Bool) (source target : Text) (past : Past)
    (blocked taken : List Value) : Prop where
  selected : ∃ p : Value → Bool, taken = blocked.filter p
  covered : ∀ found ∈ taken, ∃ policy,
    InForce lib risk source target past policy ∧ Covered policy found

section

variable {lib : Stdlib} {risk : Bool} {source target reports : Text} {past : Past}
  {blocked taken : List Value}

theorem taken_nil : Taken lib risk source target past blocked [] :=
  ⟨⟨fun _ => false, by simp⟩, by simp⟩

theorem loadPolicy_ok {policy : Value} (h : Prog.Ends (loadPolicy lib risk) past (.ok policy)) :
    past = [⟨.readPolicy risk, .ok policy⟩] ∧ checkPolicy lib (policyFiles risk) policy = .ok () ∧
      (risk = true → checkRiskPolicy lib policy = .ok ()) := by
  obtain ⟨policy', rest, rfl, h₁⟩ := ends_call_bind h
  obtain ⟨_, hcheck, h₂⟩ := h₁.of_unwrap_bind
  obtain ⟨_, hrisk, h₃⟩ := h₂.of_unwrap_bind
  obtain ⟨rfl, heq⟩ := Prog.ends_done.1 h₃
  obtain rfl := Except.ok.inj heq
  refine ⟨rfl, hcheck, fun htrue => ?_⟩
  rw [htrue, if_pos rfl] at hrisk
  exact hrisk

theorem isActive_ok {policy : Value} {today : Date} (h : isActive lib policy today = .ok true) :
    ∃ reviewed expires, policyDate lib policy "reviewed_on".toList = .ok reviewed ∧
      policyDate lib policy "expires_on".toList = .ok expires ∧ reviewed ≤ today ∧
      today < expires := by
  obtain ⟨reviewed, hreviewed, h⟩ := bind_eq_ok.1 h
  by_cases hle : reviewed ≤ today
  · rw [if_pos hle] at h
    obtain ⟨expires, hexpires, h⟩ := bind_eq_ok.1 h
    exact ⟨reviewed, expires, hreviewed, hexpires, hle, of_decide_eq_true (Except.ok.inj h)⟩
  · rw [if_neg hle] at h
    cases h

theorem applyPolicy_ok {policy : Value} {candidates : List Value} {record : PolicyRecord}
    (h : Prog.Ends (applyPolicy reports source target risk policy candidates record) past
      (.ok taken)) :
    taken = [] ∨ (taken = candidates ∧
      ∃ inspection back inspected expected, past = inspection ++ back ∧
        Prog.Ends (inspectPythonRuntime (source.drop 7) (policyFiles risk)) inspection
          (.ok inspected) ∧
        policy.field "runtime".toList = some expected ∧ inspected.eq expected = true) := by
  obtain ⟨inspection, back, inspected, rfl, hinspection, h₁⟩ := h.of_bind_ok
  obtain ⟨expected, hexpected, h₂⟩ := h₁.of_unwrap_bind
  obtain ⟨_, rest, rfl, h₃⟩ := ends_call_bind h₂
  have heq := Except.ok.inj (Prog.ends_done.1 h₃).2
  by_cases hsame : inspected.eq expected = true
  · rw [if_pos hsame] at heq
    exact .inr ⟨heq, inspection, _, inspected, expected, rfl, hinspection, getItem_ok.1 hexpected,
      hsame⟩
  · rw [if_neg hsame] at heq
    exact .inl heq

/-- A policy takes what it covers, when it is in force. -/
theorem evaluatePythonPolicy_ok
    (h : Prog.Ends (evaluatePythonPolicy lib blocked source target reports risk) past (.ok taken)) :
    Taken lib risk source target past blocked taken := by
  unfold evaluatePythonPolicy at h
  cases htarget : ["backend".toList, "runner".toList].contains target with
  | false =>
    rw [htarget] at h
    obtain rfl := Except.ok.inj (Prog.ends_done.1 h).2
    exact taken_nil
  | true =>
    rw [htarget] at h
    -- the steps of the policy in their order; each of them has returned
    obtain ⟨-, h₁⟩ := ends_raiseIf_bind h
    obtain ⟨front, rest, policy, rfl, hload, h₂⟩ := h₁.of_bind_ok
    obtain ⟨rfl, hvalid, hacceptance⟩ := loadPolicy_ok hload
    obtain ⟨today, rest, rfl, h₃⟩ := ends_call_bind h₂
    obtain ⟨active, hactive, h₄⟩ := h₃.of_unwrap_bind
    obtain ⟨ids, hids, h₅⟩ := h₄.of_unwrap_bind
    obtain ⟨candidates, hcandidates, h₆⟩ := h₅.of_unwrap_bind
    obtain ⟨written, rest, rfl, h₇⟩ := ends_call_bind h₆
    cases happly : active && !candidates.isEmpty with
    | false =>
      rw [happly] at h₇
      obtain rfl := Except.ok.inj (Prog.ends_done.1 h₇).2
      exact taken_nil
    | true =>
      rw [if_pos happly] at h₇
      rcases applyPolicy_ok h₇ with rfl |
        ⟨rfl, inspection, back, inspected, expected, rfl, hinspection, hexpected, hsame⟩
      · exact taken_nil
      -- something was taken, so the policy was in force and its runtime was inspected
      · obtain rfl : active = true := by
          cases active with
          | false => cases happly
          | true => rfl
        obtain ⟨-, hselected⟩ := select_ok hcandidates
        obtain ⟨reviewed, expires, hperiod⟩ := isActive_ok hactive
        refine ⟨⟨_, hselected⟩, fun found hfound => ⟨policy, ?_, ?_⟩⟩
        · exact {
            target := by simpa using htarget
            loaded := List.mem_cons_self
            valid := hvalid
            acceptance := hacceptance
            period := ⟨today, reviewed, expires, List.mem_cons_of_mem _ List.mem_cons_self,
              hperiod⟩
            runtime := ⟨[_, _, ⟨_, .ok written⟩], inspection, back, inspected, expected, rfl,
              hinspection, hexpected, hsame⟩ }
        · rw [hselected, List.mem_filter] at hfound
          refine isCandidate_ok (checkPolicy_ok hvalid) hids ?_
          cases hcandidate : isCandidate policy ids found with
          | error e =>
            rw [hcandidate] at hfound
            cases hfound.2
          | ok candidate =>
            rw [hcandidate] at hfound
            exact congrArg Except.ok hfound.2

end

/-! ### The verdict -/

/-- Two selections of a list that do not overlap are part of it, and all of it if their lengths
say so. -/
theorem selections {α : Type} {xs : List α} {p q : α → Bool}
    (h : ∀ x ∈ xs, p x = true → q x = false) :
    (xs.filter p ++ xs.filter q).Perm (xs.filter fun x => p x || q x) := by
  have hp : (xs.filter fun x => p x || q x).filter p = xs.filter p := by
    rw [List.filter_filter]
    exact List.filter_congr fun x _ => by cases p x <;> rfl
  have hq : ((xs.filter fun x => p x || q x).filter fun x => !p x) = xs.filter q := by
    rw [List.filter_filter]
    refine List.filter_congr fun x hx => ?_
    cases hpx : p x with
    | false => rfl
    | true => rw [h x hx hpx]; rfl
  have hperm := List.filter_append_perm p (xs.filter fun x => p x || q x)
  rw [hp, hq] at hperm
  exact hperm

/-- The findings that the exceptions leave -/
def remaining (blocked exempted : List Value) : List Value :=
  blocked.filter fun found => !exempted.any fun e => e.eq found

/-- The lists of the exceptions and of the accepted risks, against all blocking findings -/
structure Balanced (blocked exempted accepted : List Value) : Prop where
  all : blocked.length = exempted.length + accepted.length ↔
    ∀ found ∈ blocked, found ∈ exempted ∨ found ∈ accepted
  perm : blocked.length = exempted.length + accepted.length ↔ (exempted ++ accepted).Perm blocked
  subperm : (exempted ++ accepted).Subperm blocked
  apart : ∀ found ∈ accepted, found ∉ exempted

theorem balanced {blocked exempted accepted : List Value} {p q : Value → Bool}
    (hp : exempted = blocked.filter p) (hq : accepted = (remaining blocked exempted).filter q) :
    Balanced blocked exempted accepted := by
  -- both lists are selections of the blocking findings
  let r : Value → Bool := fun found => q found && !exempted.any fun e => e.eq found
  have hr : accepted = blocked.filter r := by rw [hq, remaining, List.filter_filter]
  have hmemp : ∀ {found}, found ∈ exempted ↔ found ∈ blocked ∧ p found = true := by
    rw [hp]
    exact List.mem_filter
  have hmemr : ∀ {found}, found ∈ accepted ↔ found ∈ blocked ∧ r found = true := by
    rw [hr]
    exact List.mem_filter
  have hdisjoint : ∀ found ∈ blocked, p found = true → r found = false := by
    intro found hfound hpfound
    have hany : (exempted.any fun e => e.eq found) = true :=
      List.any_eq_true.2 ⟨found, hmemp.2 ⟨hfound, hpfound⟩, eq_refl found⟩
    show (q found && !exempted.any fun e => e.eq found) = false
    rw [hany, Bool.not_true, Bool.and_false]
  have hperm : (exempted ++ accepted).Perm (blocked.filter fun found => p found || r found) := by
    rw [hr, hp]
    exact selections hdisjoint
  -- every finding is selected exactly when the lengths add up
  have hall : blocked.length = exempted.length + accepted.length ↔
      ∀ found ∈ blocked, (p found || r found) = true := by
    rw [← List.length_append, hperm.length_eq, eq_comm]
    exact List.length_filter_eq_length_iff
  refine ⟨hall.trans (forall₂_congr fun found hfound => ?_), ?_, ?_, fun found hfound hmem => ?_⟩
  · rw [hmemp, hmemr, Bool.or_eq_true]
    exact ⟨Or.imp (⟨hfound, ·⟩) (⟨hfound, ·⟩), Or.imp And.right And.right⟩
  · constructor
    · intro h
      rw [List.filter_eq_self.2 (hall.1 h)] at hperm
      exact hperm
    · intro h
      rw [← List.length_append]
      exact h.length_eq.symm
  · exact hperm.subperm.trans List.filter_sublist.subperm
  · have hfalse := hdisjoint found (hmemp.1 hmem).1 (hmemp.1 hmem).2
    rw [(hmemr.1 hfound).2] at hfalse
    cases hfalse

/-- The findings that have to be taken -/
def blocking (report : Value) : List Value := (findingsOf report).filter isBlocking

/-- What `scan` decides about a complete report.  The exceptions are those that it took in `past₁`
from the blocking findings, the accepted risks those that it took in `past₂` from the others. -/
structure Decided (lib : Stdlib) (source name : Text) (past₁ past₂ : Past) (report : Value)
    (passed : Bool) (exempted accepted : List Value) : Prop where
  verdict : passed = true ↔ ∀ found ∈ blocking report, found ∈ exempted ∨ found ∈ accepted
  /-- with repetitions -/
  counted : passed = true ↔ (exempted ++ accepted).Perm (blocking report)
  /-- No finding is counted twice. -/
  once : (exempted ++ accepted).Subperm (blocking report)
  apart : ∀ found ∈ accepted, found ∉ exempted
  exempted : ∀ found ∈ exempted, ∃ policy,
    InForce lib false source name past₁ policy ∧ Covered policy found
  accepted : ∀ found ∈ accepted, ∃ policy,
    InForce lib true source name past₂ policy ∧ Covered policy found

/-! ### The scan -/

/-- The action reads the report of Grype. -/
def Action.isReport : Action → Bool
  | .readReport _ _ => true
  | _ => false

/-- A program that reads no report -/
abbrev Blind {α : Type} (p : M α) : Prop := Prog.Only (fun a => a.isReport = false) p

theorem blind_call {a : Action} (ha : a.isReport = false) : Blind (call a) :=
  ⟨ha, fun _ => Prog.only_unwrap _⟩

theorem blind_raiseIf (condition : Bool) (error : Exc) : Blind (raiseIf condition error) :=
  Prog.only_ite (fun _ => Prog.only_throw error) fun _ => Prog.only_pure ()

theorem blind_inspectPythonRuntime (imageId : Text) (files : List Text) :
    Blind (inspectPythonRuntime imageId files) := by
  have hrun : Blind runInspection := by
    refine (blind_call rfl).bind fun _ => (blind_call rfl).bind fun code => ?_
    refine (blind_raiseIf _ _).bind fun _ => (blind_call rfl).bind fun result => ?_
    exact (blind_raiseIf _ _).bind fun _ => Prog.only_pure result
  refine (blind_raiseIf _ _).bind fun _ => (blind_call rfl).bind fun host => ?_
  refine (blind_raiseIf _ _).bind fun _ => (blind_call rfl).bind fun _ => ?_
  refine Prog.Only.finally' ?_ (blind_call rfl)
  refine (blind_call rfl).bind fun options => (blind_raiseIf _ _).bind fun _ => ?_
  exact (blind_call rfl).bind fun _ => hrun.finally' (blind_call rfl)

theorem blind_evaluatePythonPolicy (lib : Stdlib) (blocked : List Value)
    (source target reports : Text) (risk : Bool) :
    Blind (evaluatePythonPolicy lib blocked source target reports risk) := by
  refine Prog.only_ite (fun _ => Prog.only_pure []) fun _ => ?_
  refine (blind_raiseIf _ _).bind fun _ => Prog.Only.bind ?_ fun policy => ?_
  · refine (blind_call rfl).bind fun policy => (Prog.only_unwrap _).bind fun _ => ?_
    exact (Prog.only_unwrap _).bind fun _ => Prog.only_pure policy
  refine (blind_call rfl).bind fun today => (Prog.only_unwrap _).bind fun active => ?_
  refine (Prog.only_unwrap _).bind fun ids => (Prog.only_unwrap _).bind fun candidates => ?_
  refine (blind_call rfl).bind fun _ => Prog.only_ite (fun _ => ?_) fun _ => Prog.only_pure []
  refine (blind_inspectPythonRuntime _ _).bind fun runtime => (Prog.only_unwrap _).bind fun _ => ?_
  exact (blind_call rfl).bind fun _ => Prog.only_pure _

section

variable {lib : Stdlib} {tools source reports name : Text} {past : Past}

/-- A scan that returns, step by step -/
theorem scan_ok {passed : Bool} (h : Prog.Ends (scan lib tools source reports name) past (.ok passed)) :
    ∃ front report past₁ past₂ back exempted accepted,
      past = front ++ ⟨.readReport reports name, .ok report⟩ :: (past₁ ++ (past₂ ++ back)) ∧
      (∀ e ∈ front, e.1.isReport = false) ∧ (∀ e ∈ back, e.1.isReport = false) ∧
      CompleteReport report ∧
      Prog.Ends (pythonRuntimeExceptions lib (blocking report) source name reports) past₁
        (.ok exempted) ∧
      Prog.Ends (pythonRuntimeRiskAcceptances lib (remaining (blocking report) exempted) source name
        reports) past₂ (.ok accepted) ∧
      passed = decide ((blocking report).length = exempted.length + accepted.length) := by
  obtain ⟨code, rest, rfl, h₁⟩ := ends_run_bind h
  obtain ⟨inventory, rest, rfl, h₂⟩ := ends_call_bind h₁
  obtain ⟨artifacts, -, h₃⟩ := h₂.of_unwrap_bind
  obtain ⟨_, -, h₄⟩ := h₃.of_unwrap_bind
  obtain ⟨code', rest, rfl, h₅⟩ := ends_run_bind h₄
  obtain ⟨report, rest, rfl, h₆⟩ := ends_call_bind h₅
  obtain ⟨blocked, hblocked, h₇⟩ := h₆.of_unwrap_bind
  obtain ⟨hcomplete, rfl⟩ := blockingFindings_ok hblocked
  obtain ⟨past₁, rest, exempted, rfl, hexempted, h₈⟩ := h₇.of_bind_ok
  obtain ⟨past₂, rest, accepted, rfl, haccepted, h₉⟩ := h₈.of_bind_ok
  obtain ⟨packages, -, h₁₀⟩ := h₉.of_unwrap_bind
  obtain ⟨findings, -, h₁₁⟩ := h₁₀.of_unwrap_bind
  obtain ⟨_, rest, rfl, h₁₂⟩ := ends_call_bind h₁₁
  obtain ⟨_, rest, rfl, h₁₃⟩ := ends_call_bind h₁₂
  obtain ⟨rfl, hpassed⟩ := Prog.ends_done.1 h₁₃
  refine ⟨[_, _, _], report, past₁, past₂, _, exempted, accepted, rfl, ?_, ?_, hcomplete, hexempted,
    haccepted, Except.ok.inj hpassed⟩
  · simp [Action.isReport]
  · simp [Action.isReport]

/-- The vulnerability gate fails closed: a report that is not complete is refused, and what passes
has every blocking finding taken by a policy in force. -/
theorem vulnerability_gate_fails_closed {r : Except Exc Bool}
    (h : Prog.Ends (scan lib tools source reports name) past r) :
    (∀ report, ⟨.readReport reports name, .ok report⟩ ∈ past → ¬ CompleteReport report →
      ∃ error, r = .error error) ∧
    ∀ passed, r = .ok passed → ∃ front report past₁ past₂ back exempted accepted,
      past = front ++ ⟨.readReport reports name, .ok report⟩ :: (past₁ ++ (past₂ ++ back)) ∧
      Prog.Ends (pythonRuntimeExceptions lib (blocking report) source name reports) past₁
        (.ok exempted) ∧
      Prog.Ends (pythonRuntimeRiskAcceptances lib (remaining (blocking report) exempted) source name
        reports) past₂ (.ok accepted) ∧
      Decided lib source name past₁ past₂ report passed exempted accepted := by
  constructor
  · intro report hread hincomplete
    cases r with
    | error e => exact ⟨e, rfl⟩
    | ok passed =>
      -- the scan reads one report, and has checked that it is complete
      obtain ⟨front, report', past₁, past₂, back, exempted, accepted, rfl, hfront, hback, hcomplete,
        hexempted, haccepted, -⟩ := scan_ok h
      -- nothing else in the run reads it
      have hblind : ∀ {events : Past}, (∀ e ∈ events, e.1.isReport = false) →
          ⟨.readReport reports name, .ok report⟩ ∉ events := by
        intro events hevents hmem
        cases hevents _ hmem
      have hpast₁ := (blind_evaluatePythonPolicy _ _ _ _ _ _).path hexempted
      have hpast₂ := (blind_evaluatePythonPolicy _ _ _ _ _ _).path haccepted
      rcases List.mem_append.1 hread with hread | hread
      · exact absurd hread (hblind hfront)
      · rcases List.mem_cons.1 hread with heq | hread
        · obtain ⟨-, heq⟩ := Sigma.mk.inj heq
          obtain rfl := Except.ok.inj (eq_of_heq heq)
          exact absurd hcomplete hincomplete
        · rcases List.mem_append.1 hread with hread | hread
          · exact absurd hread (hblind hpast₁)
          · rcases List.mem_append.1 hread with hread | hread
            · exact absurd hread (hblind hpast₂)
            · exact absurd hread (hblind hback)
  · rintro passed rfl
    obtain ⟨front, report, past₁, past₂, back, exempted, accepted, rfl, -, -, -, hexempted, haccepted,
      rfl⟩ := scan_ok h
    obtain ⟨⟨p, hp⟩, hcovered⟩ := evaluatePythonPolicy_ok hexempted
    obtain ⟨⟨q, hq⟩, hcovered'⟩ := evaluatePythonPolicy_ok haccepted
    -- what is taken and what is left make up the blocking findings
    obtain ⟨hall, hperm, hsubperm, hapart⟩ := balanced hp hq
    refine ⟨front, report, past₁, past₂, back, exempted, accepted, rfl, hexempted, haccepted,
      ?_, ?_, hsubperm, hapart, hcovered, hcovered'⟩
    · rw [decide_eq_true_iff]
      exact hall
    · rw [decide_eq_true_iff]
      exact hperm

end

/-! A scan with one finding that is an exception. -/

/-- Two dates are known, and a digit is an ASCII one. -/
def sampleLib : Stdlib where
  fromisoformat text := .ok (if text = "2026-09-05".toList then 5 else 15)
  isDecimal := Char.isDigit
  isSpace c := c = ' '

/-- The Python of an image. -/
def sampleArtifact : List (Text × Value) :=
  artifactKeys.zip (texts ["python".toList, "3.12.14".toList, "binary".toList,
    "pkg:generic/python@3.12.14".toList])

/-- The runtime of a policy. -/
def sampleRuntime (files : List Text) : Value :=
  .dict [("python".toList, .list [.int 3, .int 12, .int 14]),
    ("expat".toList, .list [.int 2, .int 8, .int 3]),
    ("files".toList, .dict (files.map fun file => (file, .str (List.replicate 64 'a'))))]

/-- An exempted vulnerability. -/
def sampleItem (id : Text) : Value :=
  .dict [("id".toList, .str id), ("reason".toList, .str "fixed".toList),
    ("evidence".toList, .list [.str "https://example".toList])]

/-- A policy that exempts one vulnerability. -/
def samplePolicy (risk : Bool) (id : Text) : Value :=
  .dict [("schema_version".toList, .int 1), ("id".toList, .str "SOJ-022".toList),
    ("reviewed_on".toList, .str "2026-09-05".toList), ("expires_on".toList, .str "2026-09-15".toList),
    ("artifact".toList, .dict sampleArtifact), ("namespace".toList, .str "nvd:cpe".toList),
    ("runtime".toList, sampleRuntime (policyFiles risk)),
    ("vulnerabilities".toList, .list [sampleItem id]),
    ("kind".toList, .str "risk-acceptance".toList),
    ("targets".toList, .list (texts ["backend".toList, "runner".toList])),
    ("accepted_by".toList, .str ['x']), ("exposure".toList, .str ['x']),
    ("remediation".toList, .str ['x']), ("revoke_when".toList, .str ['x'])]

/-- A finding of high severity in Python, with a fix. -/
def sampleFinding : Value :=
  .dict [("vulnerability".toList, .dict [("id".toList, .str "CVE-2026-3644".toList),
      ("namespace".toList, .str "nvd:cpe".toList), ("severity".toList, .str "High".toList),
      ("fix".toList, .dict [("state".toList, .str "fixed".toList)])]),
    ("artifact".toList, .dict (sampleArtifact ++ [("locations".toList,
      .list ((pythonRuntimeFiles.take 2).map fun path => .dict [("path".toList, .str path)]))]))]

/-- The report with this finding alone. -/
def sampleReport : Value :=
  .dict [("matches".toList, .list [sampleFinding]), ("descriptor".toList, .dict [])]

/-- Every tool succeeds and the finding is exempted. -/
def sampleAnswer : (a : Action) → Except Exc a.Result
  | .run _ | .wait => .ok (0 : ℤ)
  | .readInventory _ _ => .ok (.dict [("artifacts".toList, .list [.none])])
  | .readReport _ _ => .ok sampleReport
  | .readPolicy false => .ok (samplePolicy false "CVE-2026-3644".toList)
  | .readPolicy true => .ok (samplePolicy true "CVE-2026-82049".toList)
  | .utcToday => .ok (7 : ℤ)
  | .dockerHost => .ok "unix:///run/docker.sock".toList
  | .securityOptions => .ok ["name=rootless".toList]
  | .logs => .ok (sampleRuntime pythonRuntimeFiles)
  | .writeRecord _ _ _ _ | .writeSummary _ _ _ | .print _ | .fromEnv | .createContainer _ _
  | .start | .remove | .close => .ok ()

/-- The image that is scanned. -/
def sampleSource : Text := "docker:sha256:".toList ++ List.replicate 64 'b'

/-- The scan of this image. -/
def sampleScan : M Bool :=
  scan sampleLib "tools".toList sampleSource "reports".toList "backend".toList

theorem vulnerability_gate_fails_closed_exempted : ∃ risk past policy,
    InForce sampleLib risk sampleSource "backend".toList past policy ∧
      Covered policy sampleFinding := by
  have hpassed : (Prog.play sampleAnswer sampleScan).2 = .ok true := by decide +kernel
  have hends := Prog.ends_play sampleAnswer sampleScan
  rw [hpassed] at hends
  obtain ⟨front, report, past₁, past₂, back, exempted, accepted, hpast, -, -, hdecided⟩ :=
    (vulnerability_gate_fails_closed hends).2 true rfl
  have hread : ⟨.readReport "reports".toList "backend".toList, .ok report⟩ ∈
      (Prog.play sampleAnswer sampleScan).1 := by
    rw [hpast]
    exact List.mem_append_right _ List.mem_cons_self
  obtain rfl : report = sampleReport := Except.ok.inj (Prog.mem_play hread)
  have hblocking : sampleFinding ∈ blocking sampleReport :=
    List.mem_filter.2 ⟨List.mem_singleton.2 rfl, by decide⟩
  rcases hdecided.verdict.1 rfl sampleFinding hblocking with hfound | hfound
  · obtain ⟨policy, hforce, hcovered⟩ := hdecided.exempted sampleFinding hfound
    exact ⟨false, past₁, policy, hforce, hcovered⟩
  · obtain ⟨policy, hforce, hcovered⟩ := hdecided.accepted sampleFinding hfound
    exact ⟨true, past₂, policy, hforce, hcovered⟩

end SupplyChain
