/-
The gate in front of a production update (ci/deploy.py).

The functions are programs whose actions are the calls of the API, of Git and of the
commands; an action may raise.  What an API call answers is read as the fields that the
code looks at.

* `launched_after_passing_poll` — an update is launched only behind one poll in which the
  commit was the head, the latest run of each workflow for it had succeeded and its images
  were built, behind the download of what that run reported, both signature checks and
  another look at the head;
* `scope_spares` — the images are only spared for a diff that is documentation and nothing
  else;
* `wait_ends` — the wait ends within 166 looks at the clock;
* `remote_words` — the remote shell runs exactly the words that were given.
-/
import Mathlib.Algebra.Order.Ring.Rat
import Mathlib.Data.List.Sort
import Mathlib.Tactic.Linarith
import ShellgeiOnlineJudge.ProductionDeployment
import ShellgeiOnlineJudge.ProgReach
import ShellgeiOnlineJudge.ProgRely
import ShellgeiOnlineJudge.ShellSyntax

namespace DeployGate

open Utf8
open ProductionDeployment (isSha)

/-! ### What is read -/

/-- A run of a workflow -/
structure Run where
  id : ℕ
  runAttempt : ℕ
  headSha : Text
  headBranch : Text
  event : Text
  path : Text
  /-- `head_repository.full_name` -/
  repository : Text
  status : Text
  conclusion : Option Text
  deriving DecidableEq

/-- A step of a job, as the API returns it. -/
structure JobStep where
  name : Text
  conclusion : Option Text
  deriving DecidableEq

/-- A job; one without steps has none. -/
structure Job where
  name : Text
  conclusion : Option Text
  steps : List JobStep
  deriving DecidableEq

/-- What the deployment job may raise. -/
inductive Exc
  | keyError
  | typeError
  | valueError (message : Text)
  | osError
  /-- `TimeoutError`, an `OSError` -/
  | timeoutError (message : Text)
  | subprocessError
  | runtimeError (message : Text)
  | assertionError
  /-- any other exception -/
  | other
  /-- no exception of the code: the model looked at the clock too often -/
  | outOfFuel
  deriving DecidableEq

/-- The commands of the later jobs -/
inductive Command
  | attest (file : Text)
  | mkdirIncoming
  | rsync
  /-- `systemd-run --wait`, up to where the host has it -/
  | update
  | catCurrent
  deriving DecidableEq

/-- What the job asks of GitHub, of Git, of the runner and of the host. -/
inductive Action
  /-- `git/ref/heads/main` -/
  | mainHead (repo : Text)
  /-- the push runs of a workflow on main for a commit -/
  | workflowRuns (repo workflow sha : Text)
  /-- the last 30 completed push runs of `deploy.yaml` on main -/
  | deployRuns (repo : Text)
  | jobs (repo : Text) (runId : ℕ) (all : Bool)
  /-- `git diff --no-renames --name-only -z` -/
  | gitDiff (base head : Text)
  /-- the base of the pull request, in the file of the event -/
  | readEventBase
  | monotonic
  | sleep (seconds : ℕ)
  | print (line : Text)
  /-- a line of `GITHUB_OUTPUT` -/
  | writeOutput (line : Text)
  /-- the archive and its record from the run -/
  | download (runId : ℕ)
  | mkdtemp
  | writePrivate (file content : Text)
  | cleanup (directory : Text)
  | printElapsed (what : Text)
  | run (c : Command) (argv : List Text)
  /-- the rest of `systemd-run --wait` -/
  | awaitUpdate
  /-- `source_commit` of what was read -/
  | parseCurrent
  /-- the step "Record completed production update" -/
  | record
  deriving DecidableEq

/-- What an action that does not raise returns. -/
abbrev Action.Result : Action → Type
  | mainHead _ => Text
  | workflowRuns _ _ _ => List Run
  | deployRuns _ => List Run
  | jobs _ _ _ => List Job
  | gitDiff _ _ => Text
  | readEventBase => Text
  | monotonic => ℚ
  | mkdtemp => Text
  | parseCurrent => Option Text
  | _ => Unit

/-- An action returns or raises. -/
abbrev Reply (a : Action) : Type := Except Exc a.Result

/-- A part of the job. -/
abbrev M (α : Type) := Prog Action Reply Exc α

/-- Do an action and use its answer. -/
def call (a : Action) : M a.Result := do
  let reply ← Prog.perform a
  Prog.unwrap reply

/-- `if condition: raise error` -/
def raiseIf (condition : Bool) (error : Exc) : M Unit :=
  if condition then throw error else pure ()

/-- Which characters are letters, digits or the underscore, the digits among them, and the
characters that `strip` removes. -/
structure CharTables where
  isWord : Char → Bool
  decimal : Char → Option ℕ
  isSpace : Char → Bool

/-! ### The names -/

/-- The workflow of the backend. -/
def fastapiCi : Text := "fastapi_ci.yaml".toList

/-- The workflow of the frontend. -/
def reactCi : Text := "react_ci.yaml".toList

/-- The workflow that builds and scans the images. -/
def supplyChain : Text := "supply_chain.yaml".toList

/-- `WORKFLOWS` -/
def workflows : List Text := [fastapiCi, reactCi, supplyChain]

/-- `RUNTIME_JOB` -/
def runtimeJob : Text := "Rootless runtime build and image scan".toList

/-- `DEPLOY_RECORD_STEP` -/
def deployRecordStep : Text := "Record completed production update".toList

/-- `TRANSFER_BASIS` -/
def transferBasis : Text := ".soj-deploy/basis".toList

/-- `IMAGE_INPUT_PREFIXES` -/
def imageInputPrefixes : List Text :=
  ["problems/".toList, "frontend/src/".toList, "frontend/public/".toList,
    "backend/soj_backend/".toList, "backend/soj_runner/".toList, "backend/soj_shared/".toList,
    "deploy/".toList]

/-- The branch that is deployed. -/
def mainText : Text := "main".toList

/-- The event of a push. -/
def pushText : Text := "push".toList

/-- The status of a run that is over. -/
def completedText : Text := "completed".toList

/-- The conclusion of a run that passed. -/
def successText : Text := "success".toList

/-- Where a workflow is kept. -/
def workflowPath (workflow : Text) : Text := ".github/workflows/".toList ++ workflow

/-! ### The environment -/

section

variable (tables : CharTables) (environ : Text → Option Text)

/-- `os.environ[name]` -/
def getenv (name : String) : Except Exc Text :=
  match environ name.toList with
  | some value => .ok value
  | none => .error .keyError

/-- `re.fullmatch(r"[\w.-]+/[\w.-]+", repo)` -/
def isRepository (repo : Text) : Bool :=
  let part (text : Text) : Bool :=
    !text.isEmpty && text.all fun c => tables.isWord c || c = '.' || c = '-'
  match repo.splitOn '/' with
  | [owner, name] => part owner && part name
  | _ => false

/-- `context` -/
def context : Except Exc (Text × Text) := do
  let repo ← getenv environ "GITHUB_REPOSITORY"
  let sha ← getenv environ "GITHUB_SHA"
  let event ← getenv environ "GITHUB_EVENT_NAME"
  let error := Exc.valueError "deployment requires a main push".toList
  if event != pushText then throw error
  let ref ← getenv environ "GITHUB_REF"
  if ref != "refs/heads/main".toList || !isRepository tables repo || !isSha sha then throw error
  pure (repo, sha)

end

/-! ### The runs of the workflows -/

/-- Whether a run is a push of the commit to main of this repository, by a workflow. -/
def isCandidate (repo sha workflow : Text) (run : Run) : Bool :=
  run.headSha = sha && run.headBranch = mainText && run.event = pushText &&
    run.path = workflowPath workflow && run.repository = repo

/-- `(run.id, run.run_attempt) < (other.id, other.run_attempt)` -/
def isNewer (run other : Run) : Bool :=
  run.id < other.id || (run.id = other.id && run.runAttempt < other.runAttempt)

/-- `max(runs, key=...)` -/
def latestOf : List Run → Option Run
  | [] => none
  | run :: runs => some (runs.foldl (fun best run => if isNewer best run then run else best) run)

/-- `successful_run` -/
def successfulRun (runs : List Run) (repo sha workflow : Text) : Except Exc (Option ℕ) :=
  match latestOf (runs.filter (isCandidate repo sha workflow)) with
  | none => .ok none
  | some latest =>
    if latest.status != completedText then .ok none
    else if latest.conclusion != some successText then
      .error (.runtimeError (workflow ++ " did not succeed".toList))
    else .ok (some latest.id)

/-- `latest_main` -/
def latestMain (repo sha : Text) : M Bool := do
  let head : Text ← call (.mainHead repo)
  pure (head = sha)

/-! ### What changed -/

/-- A Markdown file outside the inputs of the images. -/
def isDocumentation (path : Text) : Bool :=
  ".md".toList.isSuffixOf path && !imageInputPrefixes.any fun p => p.isPrefixOf path

/-- `documentation_only` -/
def documentationOnly (paths : List Text) : Bool := !paths.isEmpty && paths.all isDocumentation

/-- `[path for path in stdout.split("\0") if path]` -/
def splitPaths (stdout : Text) : List Text :=
  (stdout.splitOn (Char.ofNat 0)).filter fun path => !path.isEmpty

/-- `changed_paths` -/
def changedPaths (base head : Text) : M (Option (List Text)) :=
  if !isSha base || !isSha head then pure none
  else MonadExcept.tryCatch
    (do
      let stdout : Text ← call (.gitDiff base head)
      pure (some (splitPaths stdout)))
    fun error => match error with
      | .osError | .timeoutError _ | .subprocessError => pure none
      | error => throw error

/-- Whether the jobs of a run show that production was updated by it. -/
def confirms (jobs : List Job) : Bool :=
  jobs.any fun job => job.name = "deploy".toList &&
    job.steps.any fun step => step.name = deployRecordStep && step.conclusion = some successText

/-- Whether a run is one of `deploy.yaml` for a push to main of this repository. -/
def isDeployRun (repo : Text) (run : Run) : Bool :=
  run.path = workflowPath "deploy.yaml".toList && run.headBranch = mainText &&
    run.event = pushText && run.repository = repo && isSha run.headSha

/-- The loop of `deployed_commit` -/
def findDeployed (repo : Text) : List Run → M (Option Text)
  | [] => pure none
  | run :: runs =>
    if isDeployRun repo run then do
      let jobs : List Job ← call (.jobs repo run.id true)
      if confirms jobs then pure (some run.headSha) else findDeployed repo runs
    else findDeployed repo runs

/-- `sorted(runs, key=lambda run: run["id"], reverse=True)` -/
def sortRuns (runs : List Run) : List Run := runs.insertionSort fun run other => other.id ≤ run.id

/-- `deployed_commit` -/
def deployedCommit (repo : Text) : M (Option Text) := do
  let runs : List Run ← call (.deployRuns repo)
  findDeployed repo (sortRuns runs)

/-- `deployment_unchanged` -/
def deploymentUnchanged (repo sha : Text) : M Bool := do
  let base ← MonadExcept.tryCatch
    (do
      let base ← deployedCommit repo
      pure (some base))
    fun error => match error with
      | .keyError | .typeError | .valueError _ | .osError | .timeoutError _ | .subprocessError => do
        call (.print "Deployed commit unavailable; treating the change as deployable.".toList)
        pure none
      | error => throw error
  match base with
  | none => pure false
  | some none => do
    call (.print
      "No confirmed production update found; treating the change as deployable.".toList)
    pure false
  | some (some base) => do
    let paths ← changedPaths base sha
    match paths with
    | none => do
      call (.print
        "Diff from deployed commit unavailable; treating the change as deployable.".toList)
      pure false
    | some paths => pure (documentationOnly paths)

/-- `runtime_job_succeeded` -/
def runtimeJobSucceeded (repo : Text) (runId : ℕ) : M Bool := do
  let jobs : List Job ← call (.jobs repo runId false)
  pure (jobs.any fun job => job.name = runtimeJob && job.conclusion = some successText)

/-! ### `scope` -/

section

variable (tables : CharTables) (environ : Text → Option Text)

/-- Whether nothing that needs an image has changed; the events other than a pull request
and a push to main need one. -/
def scopeUnchanged (repo sha : Text) : M Bool :=
  let eventName := environ "GITHUB_EVENT_NAME".toList
  if eventName = some "pull_request".toList then do
    let _ ← Prog.unwrap (getenv environ "GITHUB_EVENT_PATH")
    let base : Text ← call .readEventBase
    let paths ← changedPaths base sha
    pure (paths.any documentationOnly)
  else if eventName = some pushText && environ "GITHUB_REF".toList = some "refs/heads/main".toList
  then deploymentUnchanged repo sha
  else pure false

/-- `scope`, with what it writes -/
def scope : M Bool := do
  let repo ← Prog.unwrap (getenv environ "GITHUB_REPOSITORY")
  let sha ← Prog.unwrap (getenv environ "GITHUB_SHA")
  let unchanged ← MonadExcept.tryCatch (scopeUnchanged environ repo sha) fun error =>
    match error with
    | .keyError | .typeError | .valueError _ | .osError | .timeoutError _ => pure false
    | error => throw error
  let required := if unchanged then "false".toList else "true".toList
  call (.print ("Runtime image verification required: ".toList ++ required))
  let _ ← Prog.unwrap (getenv environ "GITHUB_OUTPUT")
  call (.writeOutput ("runtime=".toList ++ required ++ ['\n']))
  pure (!unchanged)

/-! ### `wait_for_ci` -/

/-- The results of the workflows -/
def workflowResults (repo sha : Text) : List Text → M (List (Option ℕ))
  | [] => pure []
  | workflow :: rest => do
    let runs : List Run ← call (.workflowRuns repo workflow sha)
    let result ← Prog.unwrap (successfulRun runs repo sha workflow)
    let results ← workflowResults repo sha rest
    pure (result :: results)

/-- What is printed where only documentation has changed. -/
def docsOnlyLine : Text :=
  "Only documentation changed since the deployed commit; deployment skipped.".toList

/-- What is printed where main has a newer commit. -/
def supersededLine : Text := "Superseded by a newer main commit; deployment skipped.".toList

/-- What the gate does once all workflows have succeeded: the run that it hands on, if any. -/
def conclude (repo sha : Text) (runId : ℕ) : M (Option ℕ) := do
  let unchanged ← deploymentUnchanged repo sha
  if unchanged then do
    call (.print docsOnlyLine)
    pure none
  else do
    let built ← runtimeJobSucceeded repo runId
    raiseIf (!built) (.runtimeError
      "deployment requires runtime images; re-run Supply Chain CI for this commit".toList)
    let _ ← Prog.unwrap (getenv environ "GITHUB_OUTPUT")
    call (.writeOutput ("run_id=".toList ++ Nat.toDigits 10 runId ++ ['\n']))
    pure (some runId)

/-- One turn of the loop: nothing, or how the function returns. -/
def poll (repo sha : Text) : M (Option (Option ℕ)) := do
  let latest ← latestMain repo sha
  if !latest then do
    call (.print supersededLine)
    pure (some none)
  else do
    let results ← workflowResults repo sha workflows
    -- `all(results)`; zero is false as well
    if results.all fun result => result.any fun id => id != 0 then
      match results.getLast?.join with
      | none => throw .assertionError
      | some runId => do
        let outcome ← conclude environ repo sha runId
        pure (some outcome)
    else do
      call (.sleep 20)
      pure none

/-- The loop; the argument is the number of looks at the clock. -/
def waitLoop (repo sha : Text) (deadline : ℚ) : ℕ → M (Option ℕ)
  | 0 => throw .outOfFuel
  | n + 1 => do
    let now : ℚ ← call .monotonic
    if now < deadline then do
      let outcome ← poll environ repo sha
      match outcome with
      | some result => pure result
      | none => waitLoop repo sha deadline n
    else throw (.timeoutError "CI did not complete within 55 minutes".toList)

/-- `wait_for_ci`, with the run ID that it writes -/
def waitForCi (fuel : ℕ) : M (Option ℕ) := do
  let (repo, sha) ← Prog.unwrap (context tables environ)
  let start : ℚ ← call .monotonic
  waitLoop environ repo sha (start + 55 * 60) fuel

/-! ### `verify` -/

/-- The command that checks who built a file, and from what. -/
def attestCommand (repo sha reports file : Text) : List Text :=
  ["gh".toList, "attestation".toList, "verify".toList, reports ++ '/' :: file, "--repo".toList,
    repo, "--signer-workflow".toList, repo ++ '/' :: workflowPath supplyChain,
    "--source-digest".toList, sha, "--source-ref".toList, "refs/heads/main".toList,
    "--deny-self-hosted-runners".toList]

/-- The archive of the images. -/
def runtimeTar : Text := "runtime.tar".toList

/-- The record of their build. -/
def buildRecord : Text := "build-record.json".toList

/-- The loop of `verify` -/
def verifyFiles (repo sha reports : Text) : List Text → M Unit
  | [] => pure ()
  | file :: files => do
    call (.run (.attest file) (attestCommand repo sha reports file))
    verifyFiles repo sha reports files

/-- `verify` -/
def verify (reports : Text) : M Unit := do
  let (repo, sha) ← Prog.unwrap (context tables environ)
  verifyFiles repo sha reports [runtimeTar, buildRecord]

/-! ### `transfer` -/

/-- The host and the account there, as the checks leave them. -/
structure Target where
  host : Text
  user : Text
  region : Text
  port : Text
  repository : Text
  run : Text
  deriving DecidableEq

/-- `[a-z]` -/
def isLower (c : Char) : Bool := 'a' ≤ c && c ≤ 'z'

/-- `[0-9]` -/
def isDigit (c : Char) : Bool := '0' ≤ c && c ≤ '9'

/-- `i-(?:[0-9a-f]{8}|[0-9a-f]{17})` -/
def isInstanceId (host : Text) : Bool :=
  "i-".toList.isPrefixOf host && (host.drop 2).all RunnerProtocol.isLowerHex &&
    (host.length = 10 || host.length = 19)

/-- `[a-z]{2}(?:-[a-z]+)+-[0-9]+` -/
def isRegion (region : Text) : Bool :=
  match region.splitOn '-' with
  | front :: rest =>
    front.length = 2 && front.all isLower && 2 ≤ rest.length &&
      (rest.dropLast.all fun part => !part.isEmpty && part.all isLower) &&
      rest.getLast?.any fun part => !part.isEmpty && part.all isDigit
  | [] => false

/-- `[a-z_][a-z0-9_-]*` -/
def isUser : Text → Bool
  | [] => false
  | c :: rest =>
    (isLower c || c = '_') && rest.all fun c => isLower c || isDigit c || c = '_' || c = '-'

/-- `port.isdecimal() and 1 <= int(port) <= 65535` -/
def isPort (port : Text) : Bool :=
  match port.mapM tables.decimal with
  | none => false
  | some digits =>
    let n := digits.foldl (fun n digit => 10 * n + digit) 0
    !port.isEmpty && 1 ≤ n && n ≤ 65535

/-- An absolute path of letters, digits and `_`, `.`, `-`, without a part `..` -/
def isDeployPath (path : Text) : Bool :=
  match path with
  | [] => false
  | c :: rest =>
    c = '/' && !rest.isEmpty && (rest.all fun c => c.isAlphanum || ['_', '.', '/', '-'].contains c) &&
      !(path.splitOn '/').contains "..".toList

/-- `[0-9]+-[0-9]+` -/
def isRunIdentity (run : Text) : Bool :=
  match run.splitOn '-' with
  | [id, attempt] =>
    !id.isEmpty && id.all isDigit && !attempt.isEmpty && attempt.all isDigit
  | _ => false

/-- The checks of `transfer` -/
def target : Except Exc Target := do
  let host ← getenv environ "DEPLOY_INSTANCE_ID"
  let user ← getenv environ "DEPLOY_USER"
  let region ← getenv environ "DEPLOY_AWS_REGION"
  let port ← getenv environ "DEPLOY_PORT"
  let repository ← getenv environ "DEPLOY_REPOSITORY"
  if !isInstanceId host then
    throw (.valueError "DEPLOY_INSTANCE_ID must be an EC2 instance ID".toList)
  if !isRegion region then throw (.valueError "invalid AWS region".toList)
  if !isUser user || !isPort tables port then
    throw (.valueError "invalid SSH user or port".toList)
  if !isDeployPath repository then
    throw (.valueError "deployment paths must be absolute, without spaces or traversal".toList)
  let id ← getenv environ "GITHUB_RUN_ID"
  let attempt ← getenv environ "GITHUB_RUN_ATTEMPT"
  let run := id ++ '-' :: attempt
  if !isRunIdentity run then throw (.valueError "invalid run identity".toList)
  pure ⟨host, user, region, port, repository, run⟩

/-- The directory of the host that receives the files of this run. -/
def Target.incoming (t : Target) : Text := t.repository ++ "/.soj-deploy/incoming-".toList ++ t.run

/-- The options of every SSH connection. -/
def Target.sshOptions (t : Target) (temporary : Text) : List Text :=
  ["-F".toList, "/dev/null".toList, "-i".toList, temporary ++ "/key".toList, "-o".toList,
    "BatchMode=yes".toList, "-o".toList, "IdentitiesOnly=yes".toList, "-o".toList,
    "StrictHostKeyChecking=yes".toList, "-o".toList,
    "UserKnownHostsFile=".toList ++ temporary ++ "/known_hosts".toList, "-o".toList,
    "ConnectTimeout=20".toList, "-o".toList, "ServerAliveInterval=15".toList, "-o".toList,
    "ServerAliveCountMax=4".toList, "-o".toList, "ForwardAgent=no".toList, "-o".toList,
    "ProxyCommand=".toList ++ Shell.join ["aws".toList, "ssm".toList, "start-session".toList,
      "--region".toList, t.region, "--target".toList, t.host, "--document-name".toList,
      "AWS-StartSSHSession".toList, "--parameters".toList, "portNumber=".toList ++ t.port]]

/-- A command of the remote shell -/
def Target.ssh (t : Target) (temporary : Text) (words : List Text) : List Text :=
  ["ssh".toList] ++ t.sshOptions temporary ++
    ["-p".toList, t.port, t.user ++ '@' :: t.host, Shell.join words]

/-- The command that makes the incoming directory. -/
def Target.mkdirWords (t : Target) : List Text :=
  ["mkdir".toList, "-m".toList, "700".toList, "--".toList, t.incoming]

/-- The command that sends the images, their record and the deployment program. -/
def Target.rsyncCommand (t : Target) (temporary reports : Text) : List Text :=
  ["rsync".toList, "--rsh".toList,
    Shell.join (["ssh".toList] ++ t.sshOptions temporary ++ ["-p".toList, t.port]),
    "--ignore-times".toList, "--copy-dest=".toList ++ t.repository ++ '/' :: transferBasis,
    "--stats".toList, reports ++ '/' :: runtimeTar, reports ++ '/' :: buildRecord,
    "deploy/production.py".toList,
    t.user ++ '@' :: t.host ++ ':' :: t.incoming ++ "/".toList]

/-- The update, with the bus of the user's systemd -/
def Target.updateWords (t : Target) (sha : Text) : List Text :=
  ["sh".toList, "-c".toList,
    "export XDG_RUNTIME_DIR=\"/run/user/$(id -u)\"; exec \"$@\"".toList, "sh".toList,
    "systemd-run".toList, "--user".toList, "--wait".toList, "--collect".toList,
    "--unit=soj-deploy-".toList ++ t.run, "--property=RuntimeMaxSec=2400".toList,
    "--property=UMask=0077".toList, "--property=TimeoutStopSec=120".toList, "python3".toList,
    t.incoming ++ "/production.py".toList, t.repository, t.incoming, sha]

/-- The command that reads the record of the deployed commit. -/
def Target.catWords (t : Target) : List Text :=
  ["cat".toList, "--".toList, t.repository ++ "/.soj-deploy/current.json".toList]

/-- A variable of the environment in a file that nobody else reads. -/
def writeSecret (temporary file : Text) (name : String) : M Unit := do
  let value ← Prog.unwrap (getenv environ name)
  let value := (value.dropWhile tables.isSpace).rdropWhile tables.isSpace
  raiseIf value.isEmpty (.valueError (name.toList ++ " is required".toList))
  call (.writePrivate (temporary ++ '/' :: file) (value ++ ['\n']))

/-- Behind the transfer: whether production runs the commit now. -/
def updateHost (t : Target) (sha temporary : Text) : M Bool := do
  call (.run .update (t.ssh temporary (t.updateWords sha)))
  call .awaitUpdate
  call (.printElapsed "Host update completed".toList)
  call (.run .catCurrent (t.ssh temporary t.catWords))
  let commit : Option Text ← call .parseCurrent
  if commit = some sha then do
    let _ ← Prog.unwrap (getenv environ "GITHUB_OUTPUT")
    call (.writeOutput "deployed=true\n".toList)
    pure true
  else do
    call (.print "Production kept another commit; this candidate was not deployed.".toList)
    pure false

/-- `transfer`, inside its temporary directory -/
def transferFiles (t : Target) (sha temporary reports : Text) : M Bool := do
  writeSecret tables environ temporary "key".toList "DEPLOY_SSH_KEY"
  writeSecret tables environ temporary "known_hosts".toList "DEPLOY_KNOWN_HOSTS"
  call (.run .mkdirIncoming (t.ssh temporary t.mkdirWords))
  call (.run .rsync (t.rsyncCommand temporary reports))
  call (.printElapsed "Image transfer completed".toList)
  updateHost environ t sha temporary

/-- `transfer`, with whether it writes `deployed=true` -/
def transfer (reports : Text) : M Bool := do
  let (repo, sha) ← Prog.unwrap (context tables environ)
  let latest ← latestMain repo sha
  if !latest then do
    call (.print supersededLine)
    pure false
  else do
    let t ← Prog.unwrap (target tables environ)
    let temporary : Text ← call .mkdtemp
    Prog.finally' (transferFiles tables environ t sha temporary reports) (call (.cleanup temporary))

/-! ### The workflow -/

/-- The job `deploy` -/
def deployJob (reports : Text) (runId : ℕ) : M Unit := do
  call (.download runId)
  verify tables environ reports
  let deployed ← transfer tables environ reports
  if deployed then call .record else pure ()

/-- An attempt of a run of `deploy.yaml`: the job `gate`, and the job `deploy` when that wrote
a run ID. -/
def attempt (fuel : ℕ) (reports : Text) : M Unit := do
  let runId ← waitForCi tables environ fuel
  match runId with
  | none => pure ()
  | some runId => deployJob tables environ reports runId

end

/-! ### Events -/

/-- An action of the job with its reply. -/
abbrev Event := Prog.Event Action Reply

theorem ends_call {a : Action} {events : List Event} {r : Except Exc a.Result}
    (h : Prog.Ends (call a) events r) : events = [⟨a, r⟩] := by
  obtain ⟨reply, rest, rfl, hrest⟩ := Prog.Ends.of_perform_bind h
  obtain ⟨rfl, rfl⟩ := Prog.ends_done.1 hrest
  rfl

theorem ends_call_bind {a : Action} {α : Type} {f : a.Result → M α} {events : List Event} {v : α}
    (h : Prog.Ends (call a >>= f) events (.ok v)) :
    ∃ value rest, events = ⟨a, .ok value⟩ :: rest ∧ Prog.Ends (f value) rest (.ok v) := by
  obtain ⟨front, back, value, rfl, hfront, hback⟩ := h.of_bind_ok
  obtain rfl := ends_call hfront
  exact ⟨value, back, rfl, hback⟩

theorem ends_raiseIf_bind {condition : Bool} {error : Exc} {α : Type} {f : Unit → M α}
    {events : List Event} {v : α} (h : Prog.Ends (raiseIf condition error >>= f) events (.ok v)) :
    condition = false ∧ Prog.Ends (f ()) events (.ok v) := by
  cases condition with
  | false => exact ⟨rfl, h⟩
  | true =>
    obtain ⟨-, hr⟩ := Prog.ends_done.1 (show Prog.Ends (.done (.error error) : M α) events _ from h)
    cases hr

/-! ### The latest run -/

theorem latestOf_spec {runs : List Run} {latest : Run} (h : latestOf runs = some latest) :
    latest ∈ runs ∧ ∀ other ∈ runs, isNewer latest other = false := by
  have hself : ∀ run : Run, isNewer run run = false := by
    intro run
    simp [isNewer]
  have htrans : ∀ a b c : Run, isNewer b a = false → isNewer c b = false → isNewer c a = false := by
    intro a b c
    simp only [isNewer, Bool.or_eq_false_iff, Bool.and_eq_false_iff, decide_eq_false_iff_not]
    omega
  have hasymm : ∀ a b : Run, isNewer a b = true → isNewer b a = false := by
    intro a b
    simp only [isNewer, Bool.or_eq_true, Bool.and_eq_true, Bool.or_eq_false_iff,
      Bool.and_eq_false_iff, decide_eq_true_eq, decide_eq_false_iff_not]
    omega
  cases runs with
  | nil => cases h
  | cons first runs =>
    obtain rfl := Option.some.inj h
    -- the best run so far is at least as new as all that came before it
    have hfold : ∀ (runs : List Run) (best : Run) (seen : List Run), best ∈ seen →
        (∀ other ∈ seen, isNewer best other = false) →
        runs.foldl (fun best run => if isNewer best run then run else best) best ∈ seen ++ runs ∧
          ∀ other ∈ seen ++ runs, isNewer
            (runs.foldl (fun best run => if isNewer best run then run else best) best) other =
              false := by
      intro runs
      induction runs with
      | nil =>
        intro best seen hmem hseen
        rw [List.append_nil]
        exact ⟨hmem, hseen⟩
      | cons run runs ih =>
        intro best seen hmem hseen
        have hstep := ih (if isNewer best run then run else best) (seen ++ [run]) (by
            split
            · simp
            · simp [hmem]) (by
            intro other hother
            split
            · next hnewer =>
              rcases List.mem_append.1 hother with hother | hother
              · exact htrans _ best _ (hseen other hother) (hasymm best run hnewer)
              · rw [List.mem_singleton.1 hother]
                exact hself run
            · next hnewer =>
              rcases List.mem_append.1 hother with hother | hother
              · exact hseen other hother
              · rw [List.mem_singleton.1 hother]
                exact Bool.eq_false_iff.2 hnewer)
        rw [List.append_assoc, List.singleton_append] at hstep
        exact hstep
    have hspec := hfold runs first [first] List.mem_cons_self (by
      intro other hother
      rw [List.mem_singleton.1 hother]
      exact hself first)
    rw [List.singleton_append] at hspec
    exact hspec

/-- The newest of the runs for the commit has succeeded. -/
def LatestSucceeded (runs : List Run) (repo sha workflow : Text) (id : ℕ) : Prop :=
  ∃ run ∈ runs, isCandidate repo sha workflow run = true ∧ run.id = id ∧
    run.status = completedText ∧ run.conclusion = some successText ∧
    ∀ other ∈ runs, isCandidate repo sha workflow other = true → isNewer run other = false

theorem successfulRun_spec {runs : List Run} {repo sha workflow : Text} {id : ℕ}
    (h : successfulRun runs repo sha workflow = .ok (some id)) :
    LatestSucceeded runs repo sha workflow id := by
  rw [successfulRun] at h
  cases hlatest : latestOf (runs.filter (isCandidate repo sha workflow)) with
  | none =>
    rw [hlatest] at h
    cases h
  | some latest =>
    rw [hlatest] at h
    obtain ⟨hmem, hnewest⟩ := latestOf_spec hlatest
    obtain ⟨hruns, hcandidate⟩ := List.mem_filter.1 hmem
    simp only at h
    split at h
    · cases h
    · next hstatus =>
      split at h
      · cases h
      · next hconclusion =>
        refine ⟨latest, hruns, hcandidate, Option.some.inj (Except.ok.inj h), ?_, ?_, ?_⟩
        · simpa using hstatus
        · simpa using hconclusion
        · exact fun other hother hc => hnewest other (List.mem_filter.2 ⟨hother, hc⟩)

/-! ### A poll that passes -/

/-- What one turn of the loop has seen when it hands on a run. -/
structure PassingPoll (repo sha : Text) (runId : ℕ) (events : List Event) : Prop where
  head : (⟨.mainHead repo, .ok sha⟩ : Event) ∈ events
  /-- The answers are those of one turn. -/
  awake : ∀ e ∈ events, ∀ seconds, e.1 ≠ .sleep seconds
  succeeded : ∀ workflow ∈ workflows, ∃ runs id,
    (⟨.workflowRuns repo workflow sha, .ok runs⟩ : Event) ∈ events ∧
      LatestSucceeded runs repo sha workflow id ∧ (workflow = supplyChain → id = runId)
  built : ∃ jobs : List Job, (⟨.jobs repo runId false, .ok jobs⟩ : Event) ∈ events ∧
    ∃ job ∈ jobs, job.name = runtimeJob ∧ job.conclusion = some successText

/-- The action is not a wait. -/
def isAwake (a : Action) : Prop := ∀ seconds, a ≠ .sleep seconds

/-- The action does not start the update of the host. -/
def isNotUpdate (a : Action) : Prop := ∀ argv, a ≠ .run .update argv

theorem only_call {P : Action → Prop} {a : Action} (h : P a) : Prog.Only P (call a) :=
  ⟨h, fun _ => trivial⟩

theorem only_raiseIf {P : Action → Prop} (condition : Bool) (error : Exc) :
    Prog.Only P (raiseIf condition error) := by
  cases condition with
  | false => trivial
  | true => trivial

section

variable {P : Action → Prop} (tables : CharTables) (environ : Text → Option Text)

theorem only_workflowResults (h : ∀ repo workflow sha, P (.workflowRuns repo workflow sha))
    (repo sha : Text) (names : List Text) : Prog.Only P (workflowResults repo sha names) := by
  induction names with
  | nil => trivial
  | cons name names ih =>
    exact .bind (only_call (h repo name sha)) fun _ => .bind (Prog.only_unwrap _) fun _ =>
      .bind ih fun _ => trivial

theorem only_findDeployed (h : ∀ repo id all, P (.jobs repo id all)) (repo : Text)
    (runs : List Run) : Prog.Only P (findDeployed repo runs) := by
  induction runs with
  | nil => trivial
  | cons run runs ih =>
    refine Prog.only_ite (fun _ => .bind (only_call (h repo run.id true)) fun _ => ?_) fun _ => ih
    exact Prog.only_ite (fun _ => trivial) fun _ => ih

theorem only_changedPaths (h : ∀ base head, P (.gitDiff base head)) (base head : Text) :
    Prog.Only P (changedPaths base head) := by
  refine Prog.only_ite (fun _ => trivial) fun _ => ?_
  refine .tryCatch (.bind (only_call (h base head)) fun _ => trivial) fun error => ?_
  cases error with
  | osError | timeoutError _ | subprocessError => trivial
  | _ => trivial

/-- The reading actions of the gate -/
structure Reads (P : Action → Prop) : Prop where
  mainHead : ∀ repo, P (.mainHead repo)
  workflowRuns : ∀ repo workflow sha, P (.workflowRuns repo workflow sha)
  deployRuns : ∀ repo, P (.deployRuns repo)
  jobs : ∀ repo id all, P (.jobs repo id all)
  gitDiff : ∀ base head, P (.gitDiff base head)
  print : ∀ line, P (.print line)
  writeOutput : ∀ line, P (.writeOutput line)

theorem only_deploymentUnchanged (h : Reads P) (repo sha : Text) :
    Prog.Only P (deploymentUnchanged repo sha) := by
  refine .bind (.tryCatch (.bind (.bind (only_call (h.deployRuns repo)) fun _ =>
    only_findDeployed h.jobs repo _) fun _ => trivial) fun error => ?_) fun base => ?_
  · have hprint : Prog.Only P (do
        call (.print "Deployed commit unavailable; treating the change as deployable.".toList)
        pure none : M (Option (Option Text))) :=
      .bind (only_call (h.print _)) fun _ => trivial
    cases error with
    | keyError | typeError | valueError _ | osError | timeoutError _ | subprocessError =>
      exact hprint
    | _ => trivial
  · cases base with
    | none => trivial
    | some base =>
      cases base with
      | none => exact .bind (only_call (h.print _)) fun _ => trivial
      | some base =>
        refine .bind (only_changedPaths h.gitDiff base sha) fun paths => ?_
        cases paths with
        | none => exact .bind (only_call (h.print _)) fun _ => trivial
        | some paths => trivial

theorem only_conclude (h : Reads P) (repo sha : Text) (runId : ℕ) :
    Prog.Only P (conclude environ repo sha runId) := by
  refine .bind (only_deploymentUnchanged h repo sha) fun _ => Prog.only_ite (fun _ => ?_) fun _ => ?_
  · exact .bind (only_call (h.print _)) fun _ => trivial
  · exact .bind (.bind (only_call (h.jobs _ _ _)) fun _ => trivial) fun _ =>
      .bind (only_raiseIf _ _) fun _ => .bind (Prog.only_unwrap _) fun _ =>
        .bind (only_call (h.writeOutput _)) fun _ => trivial

theorem only_poll (h : Reads P) (hsleep : P (.sleep 20)) (repo sha : Text) :
    Prog.Only P (poll environ repo sha) := by
  refine .bind (.bind (only_call (h.mainHead repo)) fun _ => trivial) fun _ =>
    Prog.only_ite (fun _ => .bind (only_call (h.print _)) fun _ => trivial) fun _ => ?_
  refine .bind (only_workflowResults h.workflowRuns repo sha _) fun results =>
    Prog.only_ite (fun _ => ?_) fun _ => .bind (only_call hsleep) fun _ => trivial
  cases results.getLast?.join with
  | none => trivial
  | some runId => exact .bind (only_conclude environ h repo sha runId) fun _ => trivial

theorem only_waitLoop (h : Reads P) (hsleep : P (.sleep 20)) (hclock : P .monotonic)
    (repo sha : Text) (deadline : ℚ) (n : ℕ) :
    Prog.Only P (waitLoop environ repo sha deadline n) := by
  induction n with
  | zero => trivial
  | succ n ih =>
    refine .bind (only_call hclock) fun _ => Prog.only_ite (fun _ => ?_) fun _ => trivial
    refine .bind (only_poll environ h hsleep repo sha) fun outcome => ?_
    cases outcome with
    | none => exact ih
    | some result => trivial

theorem ends_workflowResults {repo sha : Text} {names : List Text} {events : List Event}
    {results : List (Option ℕ)}
    (h : Prog.Ends (workflowResults repo sha names) events (.ok results)) :
    List.Forall₂ (fun name result => ∃ runs,
      (⟨.workflowRuns repo name sha, .ok runs⟩ : Event) ∈ events ∧
        successfulRun runs repo sha name = .ok result) names results := by
  induction names generalizing events results with
  | nil =>
    obtain ⟨-, hr⟩ := Prog.ends_done.1 h
    obtain rfl := Except.ok.inj hr
    exact .nil
  | cons name names ih =>
    obtain ⟨runs, rest, rfl, hrest⟩ := ends_call_bind h
    obtain ⟨result, hresult, hrest⟩ := hrest.of_unwrap_bind
    obtain ⟨front, back, results', rfl, hfront, hback⟩ := hrest.of_bind_ok
    obtain ⟨-, hr⟩ := Prog.ends_done.1 hback
    obtain rfl := Except.ok.inj hr
    refine .cons ⟨runs, List.mem_cons_self, hresult⟩ ((ih hfront).imp ?_)
    rintro name result ⟨runs', hmem, hok⟩
    exact ⟨runs', List.mem_cons_of_mem _ (List.mem_append_left _ hmem), hok⟩

/-- What `conclude` has seen when it hands on a run. -/
theorem ends_conclude {repo sha : Text} {runId runId' : ℕ} {events : List Event}
    (h : Prog.Ends (conclude environ repo sha runId) events (.ok (some runId'))) :
    runId' = runId ∧ ∃ jobs : List Job, (⟨.jobs repo runId false, .ok jobs⟩ : Event) ∈ events ∧
      ∃ job ∈ jobs, job.name = runtimeJob ∧ job.conclusion = some successText := by
  obtain ⟨front, back, unchanged, rfl, -, hback⟩ := h.of_bind_ok
  -- an unchanged deployment hands on no run
  cases unchanged with
  | true =>
    obtain ⟨_, _, rfl, hrest⟩ := ends_call_bind hback
    obtain ⟨-, hr⟩ := Prog.ends_done.1 hrest
    cases hr
  | false =>
    have hback : Prog.Ends (runtimeJobSucceeded repo runId >>= fun built =>
        raiseIf (!built) _ >>= fun _ => Prog.unwrap (getenv environ "GITHUB_OUTPUT") >>= fun _ =>
          call (.writeOutput _) >>= fun _ => pure (some runId)) back (.ok (some runId')) := hback
    obtain ⟨front', back', built, rfl, hbuilt, hback⟩ := hback.of_bind_ok
    obtain ⟨jobs, rest, rfl, hjobs⟩ := ends_call_bind hbuilt
    obtain ⟨-, hr⟩ := Prog.ends_done.1 hjobs
    obtain rfl := Except.ok.inj hr
    obtain ⟨hbuilt, hwrite⟩ := ends_raiseIf_bind hback
    obtain ⟨_, -, hwrite⟩ := hwrite.of_unwrap_bind
    obtain ⟨_, _, rfl, hreturn⟩ := ends_call_bind hwrite
    obtain ⟨-, hr⟩ := Prog.ends_done.1 hreturn
    obtain rfl := Option.some.inj (Except.ok.inj hr)
    obtain ⟨job, hmem, hjob⟩ := List.any_eq_true.1 (Bool.not_eq_false' _ ▸ hbuilt)
    obtain ⟨hname, hconclusion⟩ := Bool.and_eq_true_iff.1 hjob
    exact ⟨rfl, jobs, by simp, job, hmem, of_decide_eq_true hname, of_decide_eq_true hconclusion⟩

theorem awake_of_only {α : Type} {p : M α} {events : List Event} {r : Except Exc α}
    (hp : Prog.Only isAwake p) (h : Prog.Ends p events r) :
    ∀ e ∈ events, ∀ seconds, e.1 ≠ .sleep seconds :=
  fun e he => hp.path h e he

theorem reads_isAwake : Reads isAwake := by
  constructor
  · exact fun _ _ h => nomatch h
  · exact fun _ _ _ _ h => nomatch h
  · exact fun _ _ h => nomatch h
  · exact fun _ _ _ _ h => nomatch h
  · exact fun _ _ _ h => nomatch h
  · exact fun _ _ h => nomatch h
  · exact fun _ _ h => nomatch h

theorem passingPoll_of_ends {repo sha : Text} {runId : ℕ} {events : List Event}
    (h : Prog.Ends (poll environ repo sha) events (.ok (some (some runId)))) :
    PassingPoll repo sha runId events := by
  obtain ⟨front, back, latest, rfl, hlatest, hback⟩ := h.of_bind_ok
  obtain ⟨head, rest, rfl, hrest⟩ := ends_call_bind hlatest
  obtain ⟨rfl, hr⟩ := Prog.ends_done.1 hrest
  obtain rfl := Except.ok.inj hr
  by_cases hhead : head = sha
  · have hback : Prog.Ends (workflowResults repo sha workflows >>= fun results =>
        if results.all fun result => result.any fun id => id != 0 then
          match results.getLast?.join with
          | none => throw .assertionError
          | some runId => conclude environ repo sha runId >>= fun outcome => pure (some outcome)
        else call (.sleep 20) >>= fun _ => pure none) back (.ok (some (some runId))) := by
      simpa [hhead] using hback
    obtain ⟨front', back', results, rfl, hresults, hback⟩ := hback.of_bind_ok
    have hall := ends_workflowResults hresults
    split at hback
    · next hfound =>
      -- there are three results, and the last one is that of the supply chain
      obtain ⟨r1, r2, r3, rfl⟩ : ∃ r1 r2 r3, results = [r1, r2, r3] := by
        have hlength := hall.length_eq
        match results, hlength with
        | [r1, r2, r3], _ => exact ⟨r1, r2, r3, rfl⟩
      obtain ⟨hr1, hr2, hr3⟩ : (r1.any fun id => id != 0) = true ∧
          (r2.any fun id => id != 0) = true ∧ (r3.any fun id => id != 0) = true := by
        simpa using hfound
      obtain ⟨id1, rfl, -⟩ := (Option.any_eq_true ..).1 hr1
      obtain ⟨id2, rfl, -⟩ := (Option.any_eq_true ..).1 hr2
      obtain ⟨id3, rfl, -⟩ := (Option.any_eq_true ..).1 hr3
      have hback : Prog.Ends (conclude environ repo sha id3 >>= fun outcome =>
        pure (some outcome)) back' (.ok (some (some runId))) := hback
      obtain ⟨front'', back'', outcome, rfl, hconclude, hback⟩ := hback.of_bind_ok
      obtain ⟨rfl, hr⟩ := Prog.ends_done.1 hback
      obtain rfl := Option.some.inj (Except.ok.inj hr)
      obtain ⟨rfl, jobs, hjobs, hbuilt⟩ := ends_conclude environ hconclude
      rw [List.append_nil]
      refine ⟨?_, ?_, ?_, jobs, by simp [hjobs], hbuilt⟩
      · rw [← hhead]
        exact List.mem_append_left _ List.mem_cons_self
      · intro e he
        rcases List.mem_append.1 he with he | he
        · obtain rfl := List.mem_singleton.1 he
          exact fun _ h => nomatch h
        · rcases List.mem_append.1 he with he | he
          · exact awake_of_only (only_workflowResults reads_isAwake.workflowRuns repo sha _)
              hresults e he
          · exact awake_of_only (only_conclude environ reads_isAwake repo sha _) hconclude e he
      · have hsome : ∀ {name : Text} {id : ℕ}, (∃ runs,
            (⟨.workflowRuns repo name sha, .ok runs⟩ : Event) ∈ front' ∧
              successfulRun runs repo sha name = .ok (some id)) → (name = supplyChain → id = runId) →
            ∃ runs id, (⟨.workflowRuns repo name sha, .ok runs⟩ : Event) ∈
              [⟨.mainHead repo, .ok head⟩] ++ (front' ++ front'') ∧
                LatestSucceeded runs repo sha name id ∧ (name = supplyChain → id = runId) := by
          rintro name id ⟨runs, hmem, hok⟩ hid
          exact ⟨runs, id, by simp [hmem], successfulRun_spec hok, hid⟩
        obtain ⟨h1, hall⟩ := List.forall₂_cons.1 hall
        obtain ⟨h2, hall⟩ := List.forall₂_cons.1 hall
        obtain ⟨h3, -⟩ := List.forall₂_cons.1 hall
        intro name hname
        rcases List.mem_cons.1 hname with rfl | hname
        · exact hsome h1 fun hname => absurd hname (by decide)
        · rcases List.mem_cons.1 hname with rfl | hname
          · exact hsome h2 fun hname => absurd hname (by decide)
          · obtain rfl := List.mem_singleton.1 hname
            exact hsome h3 fun _ => rfl
    · obtain ⟨_, _, rfl, hrest⟩ := ends_call_bind hback
      obtain ⟨-, hr⟩ := Prog.ends_done.1 hrest
      cases hr
  · have hback : Prog.Ends (call (.print supersededLine) >>= fun _ =>
        (pure (some none) : M (Option (Option ℕ)))) back (.ok (some (some runId))) := by
      simpa [hhead] using hback
    obtain ⟨_, _, rfl, hrest⟩ := ends_call_bind hback
    obtain ⟨-, hr⟩ := Prog.ends_done.1 hrest
    cases hr

theorem ends_waitLoop {repo sha : Text} {deadline : ℚ} {runId n : ℕ} {events : List Event}
    (h : Prog.Ends (waitLoop environ repo sha deadline n) events (.ok (some runId))) :
    ∃ before last, events = before ++ last ∧ PassingPoll repo sha runId last := by
  induction n generalizing events with
  | zero =>
    obtain ⟨-, hr⟩ := Prog.ends_done.1 h
    cases hr
  | succ n ih =>
    obtain ⟨now, rest, rfl, hrest⟩ := ends_call_bind h
    split at hrest
    · obtain ⟨front, back, outcome, rfl, hfront, hback⟩ := hrest.of_bind_ok
      cases outcome with
      | none =>
        obtain ⟨before, last, rfl, hlast⟩ := ih hback
        exact ⟨⟨.monotonic, .ok now⟩ :: (front ++ before), last, by simp, hlast⟩
      | some result =>
        obtain ⟨rfl, hr⟩ := Prog.ends_done.1 hback
        obtain rfl := Except.ok.inj hr
        exact ⟨[⟨.monotonic, .ok now⟩], front, by simp, passingPoll_of_ends environ hfront⟩
    · obtain ⟨-, hr⟩ := Prog.ends_done.1 hrest
      cases hr

theorem ends_waitForCi {fuel runId : ℕ} {events : List Event}
    (h : Prog.Ends (waitForCi tables environ fuel) events (.ok (some runId))) :
    ∃ repo sha before last, context tables environ = .ok (repo, sha) ∧ events = before ++ last ∧
      PassingPoll repo sha runId last := by
  obtain ⟨⟨repo, sha⟩, hcontext, hrest⟩ := Prog.Ends.of_unwrap_bind h
  obtain ⟨start, rest, rfl, hloop⟩ := ends_call_bind hrest
  obtain ⟨before, last, rfl, hlast⟩ := ends_waitLoop environ hloop
  exact ⟨repo, sha, ⟨.monotonic, .ok start⟩ :: before, last, hcontext, by simp, hlast⟩

theorem ends_verifyFiles {repo sha reports : Text} {files : List Text} {events : List Event}
    (h : Prog.Ends (verifyFiles repo sha reports files) events (.ok ())) :
    ∀ file ∈ files, (⟨.run (.attest file) (attestCommand repo sha reports file), .ok ()⟩ : Event) ∈
      events := by
  induction files generalizing events with
  | nil =>
    intro file hfile
    cases hfile
  | cons file files ih =>
    obtain ⟨_, rest, rfl, hrest⟩ := ends_call_bind h
    intro other hother
    rcases List.mem_cons.1 hother with rfl | hother
    · exact List.mem_cons_self
    · exact List.mem_cons_of_mem _ (ih hrest other hother)

/-! ### Behind the gate -/

theorem reads_isNotUpdate : Reads isNotUpdate := by
  constructor
  · exact fun _ _ h => nomatch h
  · exact fun _ _ _ _ h => nomatch h
  · exact fun _ _ h => nomatch h
  · exact fun _ _ _ _ h => nomatch h
  · exact fun _ _ _ h => nomatch h
  · exact fun _ _ h => nomatch h
  · exact fun _ _ h => nomatch h

theorem only_waitForCi {P : Action → Prop} (h : Reads P) (hsleep : P (.sleep 20))
    (hclock : P .monotonic) (fuel : ℕ) : Prog.Only P (waitForCi tables environ fuel) :=
  .bind (Prog.only_unwrap _) fun _ => .bind (only_call hclock) fun _ =>
    only_waitLoop environ h hsleep hclock _ _ _ _

theorem only_verify {P : Action → Prop} (h : ∀ file argv, P (.run (.attest file) argv))
    (reports : Text) : Prog.Only P (verify tables environ reports) := by
  have hfiles : ∀ (repo sha : Text) (files : List Text),
      Prog.Only P (verifyFiles repo sha reports files) := by
    intro repo sha files
    induction files with
    | nil => trivial
    | cons file files ih => exact .bind (only_call (h file _)) fun _ => ih
  exact .bind (Prog.only_unwrap _) fun _ => hfiles _ _ _

variable {tables environ}

/-- **An update is launched only behind a poll that passes.** -/
theorem launched_after_passing_poll {fuel : ℕ} {reports : Text} {events : List Event}
    {argv : List Text} {k : Reply (.run .update argv) → M Unit}
    (h : Prog.Path (attempt tables environ fuel reports) events (.act (.run .update argv) k)) :
    ∃ repo sha runId before polled verified looked,
      context tables environ = .ok (repo, sha) ∧
      events = before ++ polled ++ ⟨.download runId, .ok ()⟩ :: (verified ++ looked) ∧
      PassingPoll repo sha runId polled ∧
      (∀ file ∈ [runtimeTar, buildRecord],
        (⟨.run (.attest file) (attestCommand repo sha reports file), .ok ()⟩ : Event) ∈ verified) ∧
      (⟨.mainHead repo, .ok sha⟩ : Event) ∈ looked := by
  have hupdate : ¬ isNotUpdate (.run .update argv) := fun hnot => hnot argv rfl
  obtain ⟨waited, rest, outcome, rfl, hwait, hrest⟩ := h.skip
    (only_waitForCi tables environ reads_isNotUpdate (fun _ h => nomatch h) (fun _ h => nomatch h)
      fuel) hupdate
  cases outcome with
  | none => cases hrest
  | some runId =>
    obtain ⟨repo, sha, before, polled, hcontext, rfl, hpolled⟩ := ends_waitForCi tables environ hwait
    simp only [deployJob] at hrest
    obtain ⟨downloaded, rest, _, rfl, hdownload, hbehind⟩ := Prog.Path.skip hrest
      (only_call (P := isNotUpdate) fun _ h => nomatch h) hupdate
    obtain rfl := ends_call hdownload
    obtain ⟨verified, rest, _, rfl, hverified, hsigned⟩ := Prog.Path.skip hbehind
      (only_verify tables environ (P := isNotUpdate) (fun _ _ _ h => nomatch h) reports) hupdate
    obtain ⟨_, hcontext', hverify⟩ := Prog.Ends.of_unwrap_bind hverified
    rw [hcontext] at hcontext'
    obtain rfl := Except.ok.inj hcontext'
    -- the step that records the update does not launch it
    obtain ⟨k', htransfer⟩ := Prog.Path.within hsigned (P := isNotUpdate) (by
      intro r
      cases r with
      | error e => trivial
      | ok deployed =>
        exact Prog.only_ite (fun _ => only_call fun _ h => nomatch h) fun _ => trivial) hupdate
    obtain ⟨none', rest', values, rfl, hunwrap, hrest'⟩ := Prog.Path.skip htransfer
      (Prog.only_unwrap (P := isNotUpdate) _) hupdate
    have hvalues : none' = [] ∧ values = (repo, sha) := by
      rw [hcontext] at hunwrap
      obtain ⟨hnil, hvalue⟩ := Prog.ends_done.1 hunwrap
      exact ⟨hnil, Except.ok.inj hvalue⟩
    obtain ⟨rfl, rfl⟩ := hvalues
    obtain ⟨looked, rest'', latest, rfl, hlatest, hrest''⟩ := Prog.Path.skip hrest'
      (.bind (only_call (P := isNotUpdate) fun _ h => nomatch h) fun _ => trivial) hupdate
    obtain ⟨head, tail, rfl, hhead⟩ := ends_call_bind hlatest
    obtain ⟨rfl, hr⟩ := Prog.ends_done.1 hhead
    obtain rfl := Except.ok.inj hr
    by_cases heq : head = sha
    · refine ⟨repo, sha, runId, before, polled, verified,
        [⟨.mainHead repo, .ok head⟩] ++ rest'', hcontext, by simp, hpolled, ?_, ?_⟩
      · exact fun file hfile => ends_verifyFiles hverify file hfile
      · rw [← heq]
        exact List.mem_append_left _ List.mem_cons_self
    · have hprint : Prog.Path (call (.print supersededLine) >>= fun _ => (pure false : M Bool))
          rest'' (.act (.run .update argv) k') := by
        simpa [heq] using hrest''
      obtain ⟨_, _, _, rfl, -, hdone⟩ := Prog.Path.skip hprint
        (only_call (P := isNotUpdate) fun _ h => nomatch h) hupdate
      cases hdone

end

/-! ### What spares the images -/

section

theorem ends_changedPaths {base head : Text} {paths : List Text} {events : List Event}
    (h : Prog.Ends (changedPaths base head) events (.ok (some paths))) :
    ∃ stdout : Text, (⟨.gitDiff base head, .ok stdout⟩ : Event) ∈ events ∧
      paths = splitPaths stdout := by
  rw [changedPaths] at h
  split at h
  · obtain ⟨-, hr⟩ := Prog.ends_done.1 h
    cases hr
  · rcases Prog.Ends.of_tryCatch h with ⟨found, hdiff, hr⟩ | ⟨front, back, e, rfl, -, hback⟩
    · obtain ⟨stdout, rest, rfl, hrest⟩ := ends_call_bind hdiff
      obtain ⟨-, hfound⟩ := Prog.ends_done.1 hrest
      rw [← hr] at hfound
      exact ⟨stdout, List.mem_cons_self, Option.some.inj (Except.ok.inj hfound)⟩
    · -- without a diff there are no paths
      split at hback
      all_goals
        obtain ⟨-, hr⟩ := Prog.ends_done.1 hback
        cases hr

/-- The run whose commit is taken for the deployed one: it is of `deploy.yaml`, and one of
its attempts has recorded a completed update. -/
def Recorded (repo base : Text) (runs : List Run) (events : List Event) : Prop :=
  ∃ run ∈ runs, isDeployRun repo run = true ∧ run.headSha = base ∧
    ∃ jobs : List Job, (⟨.jobs repo run.id true, .ok jobs⟩ : Event) ∈ events ∧
      confirms jobs = true

theorem ends_findDeployed {repo base : Text} {runs : List Run} {events : List Event}
    (h : Prog.Ends (findDeployed repo runs) events (.ok (some base))) :
    Recorded repo base runs events := by
  induction runs generalizing events with
  | nil =>
    obtain ⟨-, hr⟩ := Prog.ends_done.1 h
    cases hr
  | cons run runs ih =>
    have hlater : ∀ {rest : List Event}, Prog.Ends (findDeployed repo runs) rest
        (.ok (some base)) → rest ⊆ events → Recorded repo base (run :: runs) events := by
      intro rest hrest hsub
      obtain ⟨run', hmem, hdeploy, hbase, jobs, hjobs, hconfirms⟩ := ih hrest
      exact ⟨run', List.mem_cons_of_mem _ hmem, hdeploy, hbase, jobs, hsub hjobs, hconfirms⟩
    rw [findDeployed] at h
    split at h
    · next hdeploy =>
      obtain ⟨jobs, rest, rfl, hrest⟩ := ends_call_bind h
      split at hrest
      · next hconfirms =>
        obtain ⟨-, hr⟩ := Prog.ends_done.1 hrest
        have hbase : run.headSha = base := (Option.some.inj (Except.ok.inj hr)).symm
        exact ⟨run, List.mem_cons_self, hdeploy, hbase, jobs, List.mem_cons_self, hconfirms⟩
      · exact hlater hrest (List.subset_cons_self _ _)
    · exact hlater h (List.Subset.refl events)

theorem ends_deployedCommit {repo base : Text} {events : List Event}
    (h : Prog.Ends (deployedCommit repo) events (.ok (some base))) :
    ∃ runs : List Run, (⟨.deployRuns repo, .ok runs⟩ : Event) ∈ events ∧
      Recorded repo base runs events := by
  obtain ⟨runs, rest, rfl, hrest⟩ := ends_call_bind h
  obtain ⟨run, hmem, hdeploy, hbase, jobs, hjobs, hconfirms⟩ := ends_findDeployed hrest
  have hmem : run ∈ runs := (List.perm_insertionSort _ runs).mem_iff.1 hmem
  exact ⟨runs, List.mem_cons_self, run, hmem, hdeploy, hbase, jobs,
    List.mem_cons_of_mem _ hjobs, hconfirms⟩

/-- A diff from `base` shows documentation and nothing else. -/
def DocumentationFrom (base sha : Text) (events : List Event) : Prop :=
  ∃ stdout : Text, (⟨.gitDiff base sha, .ok stdout⟩ : Event) ∈ events ∧
    documentationOnly (splitPaths stdout) = true

theorem ends_deploymentUnchanged {repo sha : Text} {events : List Event}
    (h : Prog.Ends (deploymentUnchanged repo sha) events (.ok true)) :
    ∃ base, DocumentationFrom base sha events ∧
      ∃ runs : List Run, (⟨.deployRuns repo, .ok runs⟩ : Event) ∈ events ∧
        Recorded repo base runs events := by
  obtain ⟨front, back, base, rfl, hbase, hback⟩ := h.of_bind_ok
  have hsaid : ∀ {line : Text} {rest : List Event},
      ¬ Prog.Ends (call (.print line) >>= fun _ => (pure false : M Bool)) rest (.ok true) := by
    intro line rest hsay
    obtain ⟨_, _, rfl, hrest⟩ := ends_call_bind hsay
    obtain ⟨-, hr⟩ := Prog.ends_done.1 hrest
    cases hr
  cases base with
  | none =>
    obtain ⟨-, hr⟩ := Prog.ends_done.1 hback
    cases hr
  | some found =>
    cases found with
    | none => exact absurd hback hsaid
    | some base =>
      obtain ⟨diffed, rest, paths, rfl, hpaths, hrest⟩ := hback.of_bind_ok
      cases paths with
      | none => exact absurd hrest hsaid
      | some paths =>
        obtain ⟨-, hr⟩ := Prog.ends_done.1 hrest
        obtain ⟨stdout, hdiff, rfl⟩ := ends_changedPaths hpaths
        refine ⟨base, ⟨stdout, by simp [hdiff], (Except.ok.inj hr).symm⟩, ?_⟩
        -- the commit comes out of the runs, and not out of an exception
        rcases Prog.Ends.of_tryCatch hbase with ⟨found, hfound, hr⟩ |
          ⟨failed, handled, e, rfl, -, hcaught⟩
        · obtain ⟨looked, done, base', rfl, hdeployed, hdone⟩ := hfound.of_bind_ok
          obtain ⟨rfl, hvalue⟩ := Prog.ends_done.1 hdone
          rw [← hr] at hvalue
          obtain rfl := Option.some.inj (Except.ok.inj hvalue)
          obtain ⟨runs, hruns, run, hmem, hdeploy, hhead, jobs, hjobs, hconfirms⟩ :=
            ends_deployedCommit hdeployed
          exact ⟨runs, by simp [hruns], run, hmem, hdeploy, hhead, jobs, by simp [hjobs],
            hconfirms⟩
        · split at hcaught
          all_goals first
            | obtain ⟨_, _, rfl, hrest'⟩ := ends_call_bind hcaught
              obtain ⟨-, hr⟩ := Prog.ends_done.1 hrest'
              cases hr
            | obtain ⟨-, hr⟩ := Prog.ends_done.1 hcaught
              cases hr

/-- What the event of a run is compared with: the base of a pull request, or a commit that
a run has recorded as deployed. -/
def IsScopeBase (environ : Text → Option Text) (repo base : Text) (events : List Event) : Prop :=
  (environ "GITHUB_EVENT_NAME".toList = some "pull_request".toList ∧
      (⟨.readEventBase, .ok base⟩ : Event) ∈ events) ∨
    (environ "GITHUB_EVENT_NAME".toList = some pushText ∧
      environ "GITHUB_REF".toList = some "refs/heads/main".toList ∧
      ∃ runs : List Run, (⟨.deployRuns repo, .ok runs⟩ : Event) ∈ events ∧
        Recorded repo base runs events)

theorem ends_scopeUnchanged {repo sha : Text} {events : List Event}
    (h : Prog.Ends (scopeUnchanged environ repo sha) events (.ok true)) :
    ∃ base, IsScopeBase environ repo base events ∧ DocumentationFrom base sha events := by
  rw [scopeUnchanged] at h
  split at h
  · next hevent =>
    obtain ⟨_, -, hread⟩ := h.of_unwrap_bind
    obtain ⟨base, rest, rfl, hrest⟩ := ends_call_bind hread
    obtain ⟨diffed, done, paths, rfl, hpaths, hdone⟩ := hrest.of_bind_ok
    obtain ⟨-, hr⟩ := Prog.ends_done.1 hdone
    cases paths with
    | none => cases hr
    | some paths =>
      obtain ⟨stdout, hdiff, rfl⟩ := ends_changedPaths hpaths
      exact ⟨base, .inl ⟨hevent, List.mem_cons_self⟩, stdout, by simp [hdiff],
        (Except.ok.inj hr).symm⟩
  · split at h
    · next hpush =>
      obtain ⟨hevent, href⟩ := Bool.and_eq_true_iff.1 hpush
      obtain ⟨base, hdocs, hruns⟩ := ends_deploymentUnchanged h
      exact ⟨base, .inr ⟨of_decide_eq_true hevent, of_decide_eq_true href, hruns⟩, hdocs⟩
    · obtain ⟨-, hr⟩ := Prog.ends_done.1 h
      cases hr

/-- **The images are only spared for documentation**: `runtime=false` is written for a pull
request or a push to main whose diff from its base is documentation and nothing else. -/
theorem scope_spares {events : List Event}
    (h : Prog.Ends (scope environ) events (.ok false)) :
    ∃ repo sha base, getenv environ "GITHUB_REPOSITORY" = .ok repo ∧
      getenv environ "GITHUB_SHA" = .ok sha ∧ IsScopeBase environ repo base events ∧
      DocumentationFrom base sha events ∧
      (⟨.writeOutput "runtime=false\n".toList, .ok ()⟩ : Event) ∈ events := by
  obtain ⟨repo, hrepo, h⟩ := h.of_unwrap_bind
  obtain ⟨sha, hsha, h⟩ := h.of_unwrap_bind
  obtain ⟨front, back, unchanged, rfl, hunchanged, hback⟩ := h.of_bind_ok
  obtain ⟨_, rest, rfl, hprinted⟩ := ends_call_bind hback
  obtain ⟨_, -, houtput⟩ := hprinted.of_unwrap_bind
  obtain ⟨_, written, rfl, hwritten⟩ := ends_call_bind houtput
  obtain ⟨-, hr⟩ := Prog.ends_done.1 hwritten
  obtain rfl : unchanged = true := by simpa using hr
  rcases Prog.Ends.of_tryCatch hunchanged with ⟨found, hfound, hr⟩ |
    ⟨failed, handled, e, rfl, -, hcaught⟩
  · obtain rfl := Except.ok.inj hr
    obtain ⟨base, hbase, stdout, hdiff, hdocs⟩ := ends_scopeUnchanged hfound
    refine ⟨repo, sha, base, hrepo, hsha, ?_, ⟨stdout, by simp [hdiff], hdocs⟩, by simp⟩
    rcases hbase with ⟨hevent, hread⟩ | ⟨hevent, href, runs, hruns, run, hmem, hdeploy, hhead,
      jobs, hjobs, hconfirms⟩
    · exact .inl ⟨hevent, by simp [hread]⟩
    · exact .inr ⟨hevent, href, runs, by simp [hruns], run, hmem, hdeploy, hhead, jobs,
        by simp [hjobs], hconfirms⟩
  · -- an exception that is caught makes the images required
    split at hcaught
    all_goals
      obtain ⟨-, hr⟩ := Prog.ends_done.1 hcaught
      cases hr

end

/-! ### A run that gets there -/

section

/-- A commit. -/
def someSha : Text := List.replicate 40 'a'

/-- The environment of a deployment job. -/
def someEnvironment : List (Text × Text) :=
  [("GITHUB_REPOSITORY".toList, "owner/judge".toList), ("GITHUB_SHA".toList, someSha),
    ("GITHUB_EVENT_NAME".toList, pushText), ("GITHUB_REF".toList, "refs/heads/main".toList),
    ("GITHUB_OUTPUT".toList, "output".toList), ("DEPLOY_INSTANCE_ID".toList, "i-0123abcd".toList),
    ("DEPLOY_USER".toList, "judge".toList), ("DEPLOY_AWS_REGION".toList, "ap-northeast-1".toList),
    ("DEPLOY_PORT".toList, "22".toList), ("DEPLOY_REPOSITORY".toList, "/srv/judge".toList),
    ("GITHUB_RUN_ID".toList, "7".toList), ("GITHUB_RUN_ATTEMPT".toList, "1".toList),
    ("DEPLOY_SSH_KEY".toList, "key".toList), ("DEPLOY_KNOWN_HOSTS".toList, "hosts".toList)]

/-- The environment of a run of the workflow -/
def someEnviron (name : Text) : Option Text := someEnvironment.lookup name

/-- The characters of ASCII -/
def asciiTables : CharTables where
  isWord c := c.isAlphanum || c = '_'
  decimal c := if c.isDigit then some (c.toNat - '0'.toNat) else none
  isSpace c := c.isWhitespace

/-- All workflows have succeeded for the head of main; nothing has been deployed. -/
def someReply : (a : Action) → Reply a
  | .mainHead _ => .ok someSha
  | .workflowRuns repo workflow sha =>
    .ok [⟨5, 1, sha, mainText, pushText, workflowPath workflow, repo, completedText,
      some successText⟩]
  | .deployRuns _ => .ok []
  | .jobs _ _ _ => .ok [⟨runtimeJob, some successText, []⟩]
  | .gitDiff _ _ => .ok []
  | .readEventBase => .ok someSha
  | .monotonic => .ok 0
  | .mkdtemp => .ok "/tmp/soj-ssh-1".toList
  | .parseCurrent => .ok (some someSha)
  | .sleep _ | .print _ | .writeOutput _ | .download _ | .writePrivate _ _ | .cleanup _
  | .printElapsed _ | .run _ _ | .awaitUpdate | .record => .ok ()

/-- The action starts the update of the host. -/
def isUpdate : Action → Bool
  | .run .update _ => true
  | _ => false

end

theorem launched_after_passing_poll_some : ∃ repo sha runId before polled verified looked,
    context asciiTables someEnviron = .ok (repo, sha) ∧
    (Prog.playUntil someReply isUpdate (attempt asciiTables someEnviron 1 "reports".toList)).1 =
      before ++ polled ++ ⟨.download runId, .ok ()⟩ :: (verified ++ looked) ∧
    PassingPoll repo sha runId polled ∧
    (∀ file ∈ [runtimeTar, buildRecord],
      (⟨.run (.attest file) (attestCommand repo sha "reports".toList file), .ok ()⟩ : Event) ∈
        verified) ∧
    (⟨.mainHead repo, .ok sha⟩ : Event) ∈ looked := by
  have hpath := Prog.path_playUntil someReply isUpdate
    (attempt asciiTables someEnviron 1 "reports".toList)
  obtain ⟨argv, hhead⟩ : ∃ argv, (Prog.playUntil someReply isUpdate
      (attempt asciiTables someEnviron 1 "reports".toList)).2.head = some (.run .update argv) := by
    refine ⟨(⟨"i-0123abcd".toList, "judge".toList, "ap-northeast-1".toList, "22".toList,
      "/srv/judge".toList, "7-1".toList⟩ : Target).ssh "/tmp/soj-ssh-1".toList
      ((⟨"i-0123abcd".toList, "judge".toList, "ap-northeast-1".toList, "22".toList,
      "/srv/judge".toList, "7-1".toList⟩ : Target).updateWords someSha), ?_⟩
    decide +kernel
  obtain ⟨k, hk, -⟩ := Prog.eq_act_of_head hhead
  rw [hk] at hpath
  exact launched_after_passing_poll hpath

/-! ### The wait ends -/

/-- The clock does not go back, and a sleep lasts as long as it was asked to.  The code has
no exception for too many looks at the clock. -/
def clockSem (a : Action) (now : ℚ) (reply : Reply a) : Option ℚ :=
  match a, reply with
  | _, .error .outOfFuel => none
  | .monotonic, .ok seen => if seen = now then some now else none
  | .sleep seconds, .ok _ => some (now + seconds)
  | _, _ => some now

/-- Time passes -/
def passes (now later : ℚ) : Prop := now ≤ later

/-- The program ended with fuel left, and the clock did not go back. -/
def isQuick {α : Type} (since : ℚ) (r : Except Exc α) (now : ℚ) : Prop :=
  r ≠ .error .outOfFuel ∧ since ≤ now

/-- From any time on, the program ends with a result of the code. -/
def Quick {α : Type} (since : ℚ) (p : M α) : Prop :=
  ∀ now, since ≤ now → Prog.Withstands clockSem passes (fun _ _ => True) (isQuick since) p now

section

variable {since : ℚ}

theorem stable_le : Prog.Stable passes fun now => since ≤ now :=
  fun _ _ hnow hpasses => le_trans (show since ≤ _ from hnow) hpasses

theorem stable_isQuick {α : Type} (r : Except Exc α) : Prog.Stable passes (isQuick since r) :=
  (Prog.stable_const _ _).and stable_le

theorem clockSem_spec {a : Action} {now later : ℚ} {reply : Reply a}
    (h : clockSem a now reply = some later) : now ≤ later ∧ reply ≠ .error .outOfFuel := by
  cases reply with
  | error e =>
    cases e with
    | outOfFuel => cases a <;> cases h
    | _ =>
      constructor
      · cases a <;> exact le_of_eq (Option.some.inj h)
      · exact fun hreply => nomatch hreply
  | ok _ =>
    refine ⟨?_, fun hreply => nomatch hreply⟩
    cases a with
    | monotonic =>
      rw [clockSem] at h
      split at h
      · exact le_of_eq (Option.some.inj h)
      · cases h
    | sleep seconds =>
      have hlater : now + seconds = later := Option.some.inj h
      have hseconds : (0 : ℚ) ≤ seconds := Nat.cast_nonneg seconds
      linarith
    | _ => exact le_of_eq (Option.some.inj h)

theorem quick_done {α : Type} {r : Except Exc α} (h : r ≠ .error .outOfFuel) :
    Quick since (.done r) :=
  fun _ hnow => Prog.withstands_done (stable_isQuick r) ⟨h, hnow⟩

theorem quick_call (a : Action) : Quick since (call a) := by
  intro now hnow
  refine Prog.withstands_perform_bind stable_le hnow (fun _ _ => trivial) ?_
  intro before reply after hbefore hsem
  obtain ⟨hafter, hreply⟩ := clockSem_spec hsem
  exact Prog.withstands_done (stable_isQuick _) ⟨hreply, le_trans hbefore hafter⟩

theorem Quick.handle {α β : Type} {p : M α} {f : Except Exc α → M β} (hp : Quick since p)
    (hf : ∀ r, r ≠ .error .outOfFuel → Quick since (f r)) : Quick since (p.handle f) :=
  fun now hnow => (hp now hnow).handle fun r later h => hf r h.1 later h.2

theorem Quick.bind {α β : Type} {p : M α} {f : α → M β} (hp : Quick since p)
    (hf : ∀ value, Quick since (f value)) : Quick since (p >>= f) :=
  hp.handle fun r hr => match r with
    | .ok value => hf value
    | .error _ => quick_done fun h => hr (congrArg Except.error (Except.error.inj h))

theorem Quick.tryCatch {α : Type} {p : M α} {f : Exc → M α} (hp : Quick since p)
    (hf : ∀ e, e ≠ .outOfFuel → Quick since (f e)) : Quick since (MonadExcept.tryCatch p f) :=
  hp.handle fun r hr => match r with
    | .ok _ => quick_done fun h => nomatch h
    | .error e => hf e fun h => hr (congrArg Except.error h)

theorem quick_ite {α : Type} {c : Prop} [Decidable c] {p q : M α} (hp : Quick since p)
    (hq : Quick since q) : Quick since (if c then p else q) := by
  split
  · exact hp
  · exact hq

theorem quick_pure {α : Type} (value : α) : Quick since (pure value : M α) :=
  quick_done fun h => nomatch h

theorem quick_throw {α : Type} {e : Exc} (h : e ≠ .outOfFuel) : Quick since (throw e : M α) :=
  quick_done fun he => h (Except.error.inj he)

theorem quick_findDeployed (repo : Text) (runs : List Run) :
    Quick since (findDeployed repo runs) := by
  induction runs with
  | nil => exact quick_pure none
  | cons run runs ih =>
    refine quick_ite ((quick_call _).bind fun jobs => ?_) ih
    exact quick_ite (quick_pure _) ih

theorem quick_changedPaths (base head : Text) : Quick since (changedPaths base head) := by
  refine quick_ite (quick_pure none) (((quick_call _).bind fun _ => quick_pure _).tryCatch ?_)
  intro e he
  cases e with
  | osError | timeoutError _ | subprocessError => exact quick_pure none
  | _ => exact quick_throw he

theorem quick_deploymentUnchanged (repo sha : Text) :
    Quick since (deploymentUnchanged repo sha) := by
  have hbase : Quick since (do
      let base ← deployedCommit repo
      pure (some base) : M (Option (Option Text))) :=
    ((quick_call _).bind fun _ => quick_findDeployed repo _).bind fun _ => quick_pure _
  refine (hbase.tryCatch ?_).bind ?_
  · intro e he
    cases e with
    | keyError | typeError | valueError _ | osError | timeoutError _ | subprocessError =>
      exact (quick_call _).bind fun _ => quick_pure none
    | _ => exact quick_throw he
  · intro base
    cases base with
    | none => exact quick_pure false
    | some base =>
      cases base with
      | none => exact (quick_call _).bind fun _ => quick_pure false
      | some base =>
        refine (quick_changedPaths base sha).bind fun paths => ?_
        cases paths with
        | none => exact (quick_call _).bind fun _ => quick_pure false
        | some paths => exact quick_pure _

theorem quick_unwrap {α : Type} {r : Except Exc α} (h : r ≠ .error .outOfFuel) :
    Quick since (Prog.unwrap r : M α) :=
  quick_done h

theorem getenv_ne_outOfFuel (environ : Text → Option Text) (name : String) :
    getenv environ name ≠ .error .outOfFuel := by
  rw [getenv]
  split
  · exact fun h => nomatch h
  · exact fun h => nomatch h

theorem quick_conclude (environ : Text → Option Text) (repo sha : Text) (runId : ℕ) :
    Quick since (conclude environ repo sha runId) := by
  refine (quick_deploymentUnchanged repo sha).bind fun unchanged => quick_ite ?_ ?_
  · exact (quick_call _).bind fun _ => quick_pure none
  · refine ((quick_call _).bind fun _ => quick_pure _).bind fun built => ?_
    refine Quick.bind (quick_ite (quick_throw fun h => nomatch h) (quick_pure ())) fun _ => ?_
    exact (quick_unwrap (getenv_ne_outOfFuel environ _)).bind fun _ =>
      (quick_call _).bind fun _ => quick_pure _

theorem successfulRun_ne_outOfFuel (runs : List Run) (repo sha workflow : Text) :
    successfulRun runs repo sha workflow ≠ .error .outOfFuel := by
  rw [successfulRun]
  split
  · exact fun h => nomatch h
  · split
    · exact fun h => nomatch h
    · split
      · exact fun h => nomatch h
      · exact fun h => nomatch h

theorem quick_workflowResults (repo sha : Text) (names : List Text) :
    Quick since (workflowResults repo sha names) := by
  induction names with
  | nil => exact quick_pure []
  | cons name names ih =>
    exact (quick_call _).bind fun runs =>
      (quick_unwrap (successfulRun_ne_outOfFuel runs repo sha name)).bind fun _ =>
        ih.bind fun _ => quick_pure _

/-- A poll without a decision has slept for twenty seconds. -/
def hasSlept (since : ℚ) (r : Except Exc (Option (Option ℕ))) (now : ℚ) : Prop :=
  isQuick since r now ∧ (r = .ok none → since + 20 ≤ now)

/-- A turn of the loop that does not end it sleeps. -/
def Slow (since : ℚ) (p : M (Option (Option ℕ))) : Prop :=
  ∀ now, since ≤ now → Prog.Withstands clockSem passes (fun _ _ => True) (hasSlept since) p now

theorem slow_done {r : Except Exc (Option (Option ℕ))} (h : r ≠ .error .outOfFuel)
    (hr : r ≠ .ok none) : Slow since (.done r) := by
  intro now hnow
  refine Prog.withstands_done ((stable_isQuick r).and ?_) ⟨⟨h, hnow⟩, fun hnone => absurd hnone hr⟩
  exact fun _ _ _ _ hnone => absurd hnone hr

theorem Slow.bind {α : Type} {p : M α} {f : α → M (Option (Option ℕ))} (hp : Quick since p)
    (hf : ∀ value, Slow since (f value)) : Slow since (p >>= f) := by
  intro now hnow
  refine (hp now hnow).bind (fun value later h => hf value later h.2) ?_
  intro e later h
  exact slow_done (fun he => h.1 (congrArg Except.error (Except.error.inj he)))
    (fun he => nomatch he) later h.2

theorem slow_ite {c : Prop} [Decidable c] {p q : M (Option (Option ℕ))} (hp : Slow since p)
    (hq : Slow since q) : Slow since (if c then p else q) := by
  split
  · exact hp
  · exact hq

theorem slow_some (outcome : Option ℕ) : Slow since (pure (some outcome)) :=
  slow_done (fun h => nomatch h) fun h => nomatch h

theorem slow_sleep : Slow since (do
    call (.sleep 20)
    pure none) := by
  intro now hnow
  refine Prog.withstands_perform_bind stable_le hnow (fun _ _ => trivial) ?_
  intro before reply after hbefore hsem
  cases reply with
  | error e =>
    exact slow_done (fun he => (clockSem_spec hsem).2 (congrArg Except.error (Except.error.inj he)))
      (fun he => nomatch he) after (le_trans hbefore (clockSem_spec hsem).1)
  | ok value =>
    have hafter : before + (20 : ℕ) = after := Option.some.inj hsem
    have hslept : since + 20 ≤ after := by
      push_cast at hafter
      linarith
    refine Prog.withstands_done ((stable_isQuick _).and ?_)
      ⟨⟨(fun h => nomatch h), by linarith⟩, fun _ => hslept⟩
    exact fun _ _ h hpasses hnone => le_trans (h hnone) hpasses

theorem slow_poll (environ : Text → Option Text) (repo sha : Text) :
    Slow since (poll environ repo sha) := by
  refine .bind ((quick_call _).bind fun _ => quick_pure _) fun latest => slow_ite ?_ ?_
  · exact .bind (quick_call _) fun _ => slow_some none
  · refine .bind (quick_workflowResults repo sha _) fun results => slow_ite ?_ slow_sleep
    cases results.getLast?.join with
    | none => exact slow_done (fun h => nomatch h) fun h => nomatch h
    | some runId => exact .bind (quick_conclude environ repo sha runId) fun outcome => slow_some _

theorem Quick.since_le {α : Type} {since' : ℚ} {p : M α} (h : Quick since' p)
    (hle : since ≤ since') {now : ℚ} (hnow : since' ≤ now) :
    Prog.Withstands clockSem passes (fun _ _ => True) (isQuick since) p now :=
  (h now hnow).mono fun _ _ hr => ⟨hr.1, le_trans hle hr.2⟩

/-- What is done with a look at the clock -/
theorem quick_monotonic_bind {α : Type} {f : ℚ → M α}
    (hf : ∀ seen, since ≤ seen → Quick seen (f seen)) : Quick since (call .monotonic >>= f) := by
  intro now hnow
  refine Prog.withstands_perform_bind stable_le hnow (fun _ _ => trivial) ?_
  intro before reply after hbefore hsem
  cases reply with
  | error e =>
    exact quick_done (fun he => (clockSem_spec hsem).2 (congrArg Except.error (Except.error.inj he)))
      after (le_trans hbefore (clockSem_spec hsem).1)
  | ok seen =>
    obtain ⟨hseen, hafter⟩ : seen = before ∧ before = after := by
      simpa [clockSem] using hsem
    subst hseen hafter
    exact (hf seen hbefore).since_le hbefore le_rfl

theorem Slow.bind_quick {α : Type} {p : M (Option (Option ℕ))} {f : Option (Option ℕ) → M α}
    (hp : Slow since p) (hsome : ∀ outcome, Quick since (f (some outcome)))
    (hnone : Quick (since + 20) (f none)) : Quick since (p >>= f) := by
  intro now hnow
  refine (hp now hnow).bind ?_ ?_
  · intro outcome later h
    cases outcome with
    | none => exact hnone.since_le (by linarith) (h.2 rfl)
    | some outcome => exact hsome outcome later h.1.2
  · intro e later h
    exact quick_done (fun he => h.1.1 (congrArg Except.error (Except.error.inj he))) later h.1.2

/-- There are enough looks at the clock when there is one more than sleeps to the deadline. -/
theorem quick_waitLoop (environ : Text → Option Text) (repo sha : Text) {deadline : ℚ} {n : ℕ}
    (h : deadline ≤ since + 20 * n) :
    Quick since (waitLoop environ repo sha deadline (n + 1)) := by
  induction n generalizing since with
  | zero =>
    refine quick_monotonic_bind fun seen hseen => ?_
    have hover : ¬ seen < deadline := by
      push_cast at h
      linarith
    rw [if_neg hover]
    exact quick_throw fun h => nomatch h
  | succ n ih =>
    refine quick_monotonic_bind fun seen hseen => quick_ite ?_ (quick_throw fun h => nomatch h)
    refine (slow_poll environ repo sha).bind_quick (fun outcome => quick_pure outcome) (ih ?_)
    push_cast at h
    linarith

end

theorem context_ne_outOfFuel (tables : CharTables) (environ : Text → Option Text) :
    context tables environ ≠ .error .outOfFuel := by
  have hbind : ∀ {α β : Type} {r : Except Exc α} {f : α → Except Exc β}, r ≠ .error .outOfFuel →
      (∀ value, f value ≠ .error .outOfFuel) → (r >>= f) ≠ .error .outOfFuel := by
    intro α β r f hr hf
    cases r with
    | error e => exact fun h => hr (congrArg Except.error (Except.error.inj h))
    | ok value => exact hf value
  have hcheck : ∀ {c : Prop} [Decidable c] {message : Text} {β : Type} {f : Unit → Except Exc β},
      f () ≠ .error .outOfFuel →
      (if c then throw (.valueError message) >>= f else f ()) ≠ .error .outOfFuel := by
    intro c _ message β f hf
    split
    · exact fun h => nomatch Except.error.inj h
    · exact hf
  exact hbind (getenv_ne_outOfFuel _ _) fun repo => hbind (getenv_ne_outOfFuel _ _) fun sha =>
    hbind (getenv_ne_outOfFuel _ _) fun event => hcheck (hbind (getenv_ne_outOfFuel _ _)
      fun ref => hcheck fun h => nomatch h)

/-- **The wait ends**: 166 looks at the clock are enough, whatever is answered, and however
much time passes. -/
theorem wait_ends (tables : CharTables) (environ : Text → Option Text) (start now : ℚ)
    (rest : M (Option ℕ))
    (h : Relation.ReflTransGen (Prog.Turn clockSem passes) (start, waitForCi tables environ 166)
      (now, rest)) : rest ≠ .done (.error .outOfFuel) := by
  have hquick : Quick start (waitForCi tables environ 166) :=
    (quick_unwrap (context_ne_outOfFuel tables environ)).bind fun _ =>
      quick_monotonic_bind fun seen _ => quick_waitLoop environ _ _ (by norm_num)
  rintro rfl
  exact ((hquick start le_rfl).turns h).post_of_done.1 rfl

/-- No workflow has run yet; a sleep takes exactly as long as it was asked to. -/
def pendingReply (a : Action) (now : ℚ) : Reply a :=
  match a with
  | .monotonic => .ok now
  | .workflowRuns _ _ _ => .ok []
  | a => someReply a

theorem wait_ends_pending : (Prog.run clockSem pendingReply 1000
    (0, waitForCi asciiTables someEnviron 166)).2 ≠ .done (.error .outOfFuel) :=
  wait_ends asciiTables someEnviron 0 _ _ (Prog.turns_run passes pendingReply 1000 _)

/-! ### The words of the commands -/

/-- The remote shell gets the last argument of `ssh`, and reads the words of the command. -/
theorem remote_words (t : Target) (temporary sha : Text) :
    ∀ words ∈ [t.mkdirWords, t.updateWords sha, t.catWords],
      ∃ line, (t.ssh temporary words).getLast? = some line ∧
        Shell.script line = some [⟨words, none⟩] := by
  have hname : ∀ (name : Text) (arguments : List Text), Shell.isCommandName name = true →
      ∃ line, (t.ssh temporary (name :: arguments)).getLast? = some line ∧
        Shell.script line = some [⟨name :: arguments, none⟩] := by
    intro name arguments h
    refine ⟨_, ?_, Shell.script_join arguments h⟩
    rw [Target.ssh, List.getLast?_append]
    rfl
  intro words hwords
  rcases List.mem_cons.1 hwords with rfl | hwords
  · exact hname "mkdir".toList _ (by decide)
  · rcases List.mem_cons.1 hwords with rfl | hwords
    · exact hname "sh".toList _ (by decide)
    · obtain rfl := List.mem_singleton.1 hwords
      exact hname "cat".toList _ (by decide)

end DeployGate
