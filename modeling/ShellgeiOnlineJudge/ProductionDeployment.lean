/-
The production deployment (deploy/production.py).

`Deployment.execute` is a program whose actions are the commands, the file
operations and the assignments of the source.  Each of them may raise, before its
effect, in the middle of it or after it: so may the handler of SIGTERM, between any
two statements.  In the failure handler the record is written, since writes to the
state directory succeed, and the stop command may fail.

* `replaceServices_wp` — what holds after each step from the stop of the services on;
* `execute_wp` — how an execution ends, from any host;
* `deployment_fail_stop` — an execution that raises has changed nothing, or has left
  the services stopped and later executions blocked, or had completed the update.
-/
import Mathlib.Data.List.DropRight
import ShellgeiOnlineJudge.ProgRun
import ShellgeiOnlineJudge.RunnerProtocol

namespace ProductionDeployment

open Utf8 RunnerProtocol

/-! ### What is read and written -/

/-- `SERVICES` -/
def services : List Text :=
  ["backend".toList, "runner".toList, "frontend".toList, "db".toList, "sandbox".toList]

/-- `build-record.json` -/
structure BuildRecord where
  sourceCommit : Text
  /-- anything but the literal false -/
  worktreeDirty : Bool
  imageIds : List (Text × Text)
  /-- the digest of `runtime.tar` -/
  runtimeTar : Text
  productVersion : Text
  deriving DecidableEq

/-- What `override_for` makes; every image has the pull policy `never`. -/
structure ComposeOverride where
  deployment : Text
  images : List (Text × Text)
  sandboxImageId : Text
  deriving DecidableEq

/-- `FAILED` -/
structure FailureRecord where
  commit : Text
  phase : Text
  deriving DecidableEq

/-- A file of the state directory; a write that is interrupted leaves it torn. -/
inductive File (α : Type)
  | written (content : α)
  | torn

/-- `docker info`, what the check of the host reads -/
structure DockerInfo where
  securityOptions : List Text
  cgroupVersion : Text

/-- A mount of a container. -/
structure Mount where
  kind : Text
  name : Text
  destination : Text

/-- `docker inspect` of a container -/
structure ContainerInfo where
  running : Bool
  mounts : List Mount
  image : Text

/-- `docker image inspect` -/
structure ImageConfig where
  id : Text
  os : Text
  architecture : Text
  version : Option Text
  env : List Text

/-- `docker compose config` -/
structure ComposeConfig where
  name : Text
  dbDataName : Text
  /-- the volumes of the database: type, source and target -/
  dbVolumes : List (Text × Text × Text)
  serverUrl : Text

/-- `path.stat()` and what it is a path of -/
structure DirectoryInfo where
  isDir : Bool
  isSymlink : Bool
  uid : ℕ
  mode : ℕ

/-- The answer to the smoke test; an ID that is no integer is none. -/
structure SmokeBody where
  apiVersion : ℤ
  status : Text
  exitCode : Option ℤ
  stdout : Text
  persistence : Text
  submissionId : Option ℤ

/-! ### Commands -/

/-- The arguments of a Compose command. -/
inductive Compose
  /-- `--profile maintenance config --format json` -/
  | config
  /-- `ps -q` -/
  | ps (service : Text)
  /-- `stop frontend backend` -/
  | stop
  /-- `up -d --no-build --pull never db` -/
  | upDatabase
  /-- `exec -T db sh -c "pg_isready ..."` -/
  | isReady
  /-- `run --rm --no-deps --pull never -T migrate` -/
  | migrate
  /-- `up -d --no-build --pull never --wait --wait-timeout 180` -/
  | up
  deriving DecidableEq

/-- The commands that `run` is given. -/
inductive Command
  /-- `docker info` -/
  | dockerInfo
  /-- `git status --porcelain` -/
  | gitStatus
  /-- `git rev-parse HEAD` -/
  | gitHead
  /-- `git fetch origin refs/heads/main` -/
  | gitFetch
  /-- `git rev-parse FETCH_HEAD` -/
  | gitFetchHead
  /-- `git merge-base --is-ancestor` -/
  | gitIsAncestor (ancestor sha : Text)
  /-- `git merge --ff-only` -/
  | gitMerge (sha : Text)
  /-- `docker inspect` -/
  | dockerInspect (id : Text)
  /-- `docker load --input` -/
  | dockerLoad (archive : Text)
  /-- `docker image inspect` -/
  | imageInspect (image : Text)
  | compose (front : List Text) (arguments : Compose)
  deriving DecidableEq

/-- What a Compose command prints, as the code reads it. -/
abbrev Compose.Output : Compose → Type
  | config => ComposeConfig
  | ps _ => Text
  | _ => Unit

/-- What a command prints, as the code reads it. -/
abbrev Command.Output : Command → Type
  | dockerInfo => DockerInfo
  | gitStatus => Text
  | gitHead => Text
  | gitFetchHead => Text
  | dockerInspect _ => ContainerInfo
  | imageInspect _ => ImageConfig
  | compose _ arguments => arguments.Output
  | _ => Unit

/-- Whether a command leaves the services, and their data, alone. -/
def Compose.harmless : Compose → Bool
  | config => true
  | ps _ => true
  | _ => false

/-- Only Compose commands may change the services. -/
def Command.harmless : Command → Bool
  | compose _ arguments => arguments.harmless
  | _ => true

/-- A command that was issued, with whether its output was read. -/
inductive Event
  | command (c : Command) (ok : Bool)
  /-- the stop command of the failure handler -/
  | stopAfterFailure (front : List Text) (ok : Bool)
  deriving DecidableEq

/-- Whether an issued command left the services, and their data, alone. -/
def Event.harmless : Event → Bool
  | command c _ => c.harmless
  | stopAfterFailure _ _ => false

/-! ### The host and the deployment -/

/-- The containers of the services, and the image of each. -/
structure Containers where
  idOf : Text → Text
  imageOf : Text → Text

/-- `Deployment`; paths are texts. -/
structure Deployment where
  repository : Text
  incoming : Text
  sha : Text

/-- `self.state` -/
def Deployment.state (d : Deployment) : Text := d.repository ++ "/.soj-deploy".toList

/-- `self.override` -/
def Deployment.override (d : Deployment) : Text :=
  d.repository ++ "/docker-compose.override.yml".toList

/-- `self.candidate` -/
def Deployment.candidate (d : Deployment) : Text := d.state ++ "/candidate.json".toList

/-- The archive of the images, as it arrived. -/
def Deployment.archive (d : Deployment) : Text := d.incoming ++ "/runtime.tar".toList

/-- The host, and the attributes that a deployment on it assigns. -/
structure Machine where
  /-- the content of `build-record.json` -/
  incoming : BuildRecord
  failed : Option (File FailureRecord)
  current : Option (File BuildRecord)
  candidate : Option (File ComposeOverride)
  /-- `docker-compose.override.yml` -/
  override : Option (File ComposeOverride)
  containers : Containers
  phase : Text
  stopped : Bool
  command : List Text
  /-- the commands so far -/
  issued : List Event

/-- `Deployment(repository, incoming, sha)` -/
def Machine.fresh (m : Machine) : Machine :=
  { m with phase := "preflight".toList, stopped := false, command := [], issued := [] }

/-- A command that changes services leaves them with any containers. -/
def Machine.issue (m : Machine) (c : Command) (ok : Bool) (containers : Containers) : Machine :=
  { m with
    issued := m.issued ++ [.command c ok]
    containers := if c.harmless then m.containers else containers }

/-- What a deployment may raise. -/
inductive Exc
  | deploymentError (message : Text)
  | runtimeError (message : Text)
  /-- `TimeoutError`, an `OSError` -/
  | timeoutError (message : Text)
  | subprocessError
  | osError
  /-- the `RuntimeError` of the handler of SIGTERM -/
  | interrupted
  /-- any other `Exception` -/
  | other
  /-- no `Exception` -/
  | keyboardInterrupt
  deriving DecidableEq

/-- What a deployment does to its host, and what it assigns. Every one may raise. -/
inductive Action
  | run (c : Command)
  /-- `self.compose(...)` -/
  | compose (arguments : Compose)
  | print (line : Text)
  | setPhase (name : Text)
  | setStopped (value : Bool)
  | setCommand (command : List Text)
  /-- `self.command[-1] = ...` -/
  | setCommandLast (path : Text)
  | failedExists
  | getuid
  /-- `os.environ.get("DOCKER_HOST")` -/
  | dockerHost
  | setenv (name value : Text)
  | overrideExists
  | overrideIsSymlink
  /-- whether the override has an `x-soj-deployment` -/
  | overrideIsManaged
  | readBuildRecord
  | digestArchive
  | writeCandidate (content : ComposeOverride)
  | writeFailed (content : FailureRecord)
  /-- `candidate.replace(override)` -/
  | replaceOverride
  | writeCurrent (record : BuildRecord)
  | unlinkFailed
  | request (url : Text)
  | sleep (seconds : ℕ)
  | mkdirBasis
  | statBasis
  | replaceArchive
  | unlinkArchive
  /-- `self.stopped`, in the failure handler -/
  | isStopped
  /-- the `FAILED` record of the failure handler -/
  | recordFailed (commit : Text)
  | stopAfterFailure
  deriving DecidableEq

/-- What an action that does not raise returns. -/
abbrev Action.Result : Action → Type
  | run c => c.Output
  | compose arguments => arguments.Output
  | failedExists => Bool
  | getuid => ℕ
  | dockerHost => Option Text
  | overrideExists => Bool
  | overrideIsSymlink => Bool
  | overrideIsManaged => Bool
  | readBuildRecord => BuildRecord
  | digestArchive => Text
  | request _ => SmokeBody
  | statBasis => DirectoryInfo
  | isStopped => Bool
  | _ => Unit

/-- How much of an action was done when it raised. -/
inductive Effect
  | none
  | part
  | whole

/-- The result of an action, or what it raised and how far it had come. -/
inductive Answer (α : Type)
  | ok (value : α)
  | raised (error : Exc) (effect : Effect)

/-- Whether the action returned. -/
def Answer.isOk {α : Type} : Answer α → Bool
  | ok _ => true
  | raised _ _ => false

/-- The containers are those after a command that changes them. -/
structure Reply (α : Type) where
  answer : Answer α
  containers : Containers

/-- The output of a command agrees with the containers. -/
def Command.truthful (containers : Containers) : (c : Command) → Answer c.Output → Bool
  | .compose _ (.ps service), .ok id => id = containers.idOf service
  | .dockerInspect id, .ok info => info.image = containers.imageOf id
  | _, _ => true

/-- The answers there are to an action.  The failure handler reads `self.stopped` and
writes its record without an exception. -/
def Action.allowed (m : Machine) : (a : Action) → Answer a.Result → Bool
  | .run c, answer => c.truthful m.containers answer
  | .compose arguments, answer =>
    Command.truthful m.containers (.compose m.command arguments) answer
  | .failedExists, .ok value => value = m.failed.isSome
  | .overrideExists, .ok value => value = m.override.isSome
  | .readBuildRecord, .ok record => record = m.incoming
  | .replaceOverride, .ok () => m.candidate.isSome
  | .unlinkFailed, .ok () => m.failed.isSome
  | .isStopped, .ok value => value = m.stopped
  | .isStopped, .raised _ _ => false
  | .recordFailed _, .raised _ _ => false
  | _, _ => true

/-- The machine after an action that leaves it as `after`, or as `part` in its middle. -/
def Machine.applied {α : Type} (m part after : Machine) : Answer α → Machine
  | .ok _ => after
  | .raised _ .none => m
  | .raised _ .part => part
  | .raised _ .whole => after

/-- The machine after an action, as far as the answer says that it was done. -/
def Action.after (m : Machine) : (a : Action) → Answer a.Result → Containers → Machine
  | .run c, answer, containers => m.issue c answer.isOk containers
  | .compose arguments, answer, containers =>
    m.issue (.compose m.command arguments) answer.isOk containers
  | .setPhase name, answer, _ => m.applied m { m with phase := name } answer
  | .setStopped value, answer, _ => m.applied m { m with stopped := value } answer
  | .setCommand command, answer, _ => m.applied m { m with command := command } answer
  | .setCommandLast path, answer, _ =>
    m.applied m { m with command := m.command.dropLast ++ [path] } answer
  | .writeCandidate content, answer, _ =>
    m.applied { m with candidate := some .torn } { m with candidate := some (.written content) }
      answer
  | .writeFailed content, answer, _ =>
    m.applied { m with failed := some .torn } { m with failed := some (.written content) } answer
  -- a rename has no middle
  | .replaceOverride, answer, _ =>
    m.applied m { m with override := m.candidate, candidate := none } answer
  | .writeCurrent record, answer, _ =>
    m.applied { m with current := some .torn } { m with current := some (.written record) } answer
  | .unlinkFailed, answer, _ => m.applied m { m with failed := none } answer
  | .recordFailed commit, _, _ => { m with failed := some (.written ⟨commit, m.phase⟩) }
  | .stopAfterFailure, answer, containers =>
    { m with
      issued := m.issued ++ [.stopAfterFailure m.command answer.isOk]
      containers := containers }
  | _, _, _ => m

/-- The machine after an action with the given reply. -/
def sem (a : Action) (m : Machine) (reply : Reply a.Result) : Option Machine :=
  if a.allowed m reply.answer then some (a.after m reply.answer reply.containers) else none

/-! ### The functions -/

/-- A part of the deployment. -/
abbrev M (α : Type) := Prog Action (fun a => Reply a.Result) Exc α

/-- An action that raised raises in the program. -/
def Answer.get {α : Type} : Answer α → M α
  | .ok value => pure value
  | .raised error _ => throw error

/-- Do an action and use its answer. -/
def call (a : Action) : M a.Result := do
  let reply ← Prog.perform a
  reply.answer.get

/-- `if condition: raise error` -/
def raiseIf (condition : Bool) (error : Exc) : M Unit :=
  if condition then throw error else pure ()

/-- `Deployment.stage` -/
def stage (name : Text) : M Unit := do
  call (.setPhase name)
  call (.print ("production deployment: ".toList ++ name))

/-- `dict[key]` -/
def lookup (entries : List (Text × Text)) (key : Text) : Except Exc Text :=
  match entries.find? fun entry => entry.1 = key with
  | some entry => .ok entry.2
  | none => .error .other

/-- `re.fullmatch(r"[0-9a-f]{40}", sha)` -/
def isSha (sha : Text) : Bool := sha.length = 40 && sha.all isLowerHex

/-- `re.fullmatch(r"sha256:[0-9a-f]{64}", value)` -/
def isImageId (value : Text) : Bool :=
  value.take 7 = "sha256:".toList && (value.drop 7).length = 64 && (value.drop 7).all isLowerHex

/-- `set(names) == set(SERVICES)` -/
def isServices (names : List Text) : Bool :=
  names.all services.contains && services.all names.contains

/-- `read_record` -/
def readRecord (d : Deployment) : M BuildRecord := do
  let record : BuildRecord ← call .readBuildRecord
  raiseIf (!isSha d.sha || record.sourceCommit != d.sha || record.worktreeDirty ||
    !isServices (record.imageIds.map Prod.fst) ||
    !(record.imageIds.map Prod.snd).all isImageId)
    (.deploymentError "invalid candidate record or archive".toList)
  let digest : Text ← call .digestArchive
  raiseIf (digest != record.runtimeTar)
    (.deploymentError "invalid candidate record or archive".toList)
  pure record

/-- `private_directory(basis)` -/
def privateDirectory : M Unit := do
  let info : DirectoryInfo ← call .statBasis
  let uid : ℕ ← call .getuid
  raiseIf (!info.isDir || info.isSymlink || info.uid != uid || info.mode &&& 0o077 != 0)
    (.deploymentError "a private, owned directory is required".toList)

/-- `[item for item in env if item.startswith(key + "=")]` -/
def settings (env : List Text) (key : Text) : List Text :=
  env.filter fun item => (key ++ ['=']).isPrefixOf item

/-- Whether an image is the reviewed one, for the architecture of the host. -/
def isReviewed (record : BuildRecord) (old inspected : ImageConfig) (image : Text) : Bool :=
  inspected.id = image && inspected.os = "linux".toList &&
    inspected.architecture = old.architecture && inspected.version = some record.productVersion

/-- Whether a database image reads the data of the one before. -/
def keepsDatabase (old inspected : ImageConfig) : Bool :=
  ["PG_MAJOR".toList, "PGDATA".toList].all fun key =>
    (settings old.env key).length = 1 && settings old.env key = settings inspected.env key

/-- The loop of `check_images` -/
def checkEntries (record : BuildRecord) (old : ImageConfig) : List (Text × Text) → M Unit
  | [] => pure ()
  | (name, image) :: entries => do
    let inspected : ImageConfig ← call (.run (.imageInspect image))
    raiseIf (!isReviewed record old inspected image)
      (.deploymentError "unexpected image identity, architecture or version".toList)
    raiseIf (name = "db".toList && !keepsDatabase old inspected)
      (.deploymentError "DB major or data directory changes require manual migration".toList)
    checkEntries record old entries

/-- `check_images` -/
def checkImages (record : BuildRecord) (oldDb : Text) : M Unit := do
  let old : ImageConfig ← call (.run (.imageInspect oldDb))
  checkEntries record old record.imageIds

/-- `override_for` -/
def overrideFor (record : BuildRecord) : Except Exc ComposeOverride := do
  let images ← (services.filter fun name => name != "sandbox".toList).mapM fun name => do
    pure (name, ← lookup record.imageIds name)
  let backend ← lookup record.imageIds "backend".toList
  let sandbox ← lookup record.imageIds "sandbox".toList
  pure {
    deployment := record.sourceCommit
    images := images ++ [("migrate".toList, backend)]
    sandboxImageId := sandbox }

/-- `smoke` -/
def smoke (url : Text) : M Unit := do
  let body : SmokeBody ← call (.request (url ++ "/api/v3/submissions".toList))
  raiseIf (!(body.apiVersion = 3 && body.status = "completed".toList && body.exitCode = some 0 &&
    body.stdout = "smoke-ok".toList && body.persistence = "saved".toList &&
    body.submissionId.any fun id => decide (0 < id)))
    (.runtimeError "sandbox or persistence smoke test failed".toList)

/-- `keep_transfer_basis` -/
def keepTransferBasis : M Unit :=
  MonadExcept.tryCatch
    (do
      call .mkdirBasis
      privateDirectory
      call .replaceArchive)
    fun error => match error with
      | .osError | .timeoutError _ | .deploymentError _ => do
        call (.print "production deployment: transfer basis not kept".toList)
        call .unlinkArchive
      | error => throw error

/-- `wait_database`; the argument is the number of tries. -/
def waitDatabase : ℕ → M Unit
  | 0 => throw (.timeoutError "database did not become ready".toList)
  | n + 1 => do
    let ready ← MonadExcept.tryCatch
      (do
        call (.compose .isReady)
        pure true)
      fun error => match error with
        | .subprocessError => do
          call (.sleep 2)
          pure false
        | error => throw error
    if ready then pure () else waitDatabase n

/-- `wait_smoke`; the argument is the number of tries. -/
def waitSmoke (origin : Text) : ℕ → M Unit
  | 0 => throw (.runtimeError "public smoke test failed".toList)
  | n + 1 => do
    let answered ← MonadExcept.tryCatch
      (do
        smoke origin
        pure true)
      fun error => match error with
        | .keyboardInterrupt => throw .keyboardInterrupt
        | _ => do
          call (.sleep 5)
          pure false
    if answered then pure () else waitSmoke origin n

/-! ### `update` -/

/-- `docker_host.startswith("unix:///")`, with more than slashes behind it. -/
def isLocalSocket (dockerHost : Text) : Bool :=
  "unix:///".toList.isPrefixOf dockerHost && !(dockerHost.drop 7).all fun c => c = '/'

/-- `override.exists() and (override.is_symlink() or not ...)` -/
def unmanagedOverride : M Bool := do
  let present : Bool ← call .overrideExists
  if present then do
    let symlink : Bool ← call .overrideIsSymlink
    if symlink then pure true
    else do
      let managed : Bool ← call .overrideIsManaged
      pure !managed
  else pure false

/-- The checks of the host. -/
def checkHost : M Unit := do
  let failed : Bool ← call .failedExists
  raiseIf failed (.runtimeError "previous deployment needs manual recovery".toList)
  let uid : ℕ ← call .getuid
  raiseIf (uid = 0) (.deploymentError "run as the rootless Docker owner".toList)
  let uid : ℕ ← call .getuid
  let configured : Option Text ← call .dockerHost
  let dockerHost := configured.getD
    ("unix:///run/user/".toList ++ Nat.toDigits 10 uid ++ "/docker.sock".toList)
  raiseIf (!isLocalSocket dockerHost)
    (.deploymentError "DOCKER_HOST must be a local Unix socket".toList)
  call (.setenv "DOCKER_HOST".toList dockerHost)
  call (.setenv "DOCKER_SOCKET_PATH".toList (dockerHost.drop 7))
  let info : DockerInfo ← call (.run .dockerInfo)
  raiseIf (!info.securityOptions.contains "name=rootless".toList ||
    info.cgroupVersion != "2".toList)
    (.deploymentError "rootless Docker with cgroup v2 is required".toList)
  let status : Text ← call (.run .gitStatus)
  raiseIf (!status.isEmpty) (.deploymentError "production checkout must be clean".toList)
  let unmanaged ← unmanagedOverride
  raiseIf unmanaged (.deploymentError "an unmanaged Compose override exists".toList)

/-- The head of the main branch, fetched. -/
def fetchedSha : M Text := do
  call (.run .gitFetch)
  call (.run .gitFetchHead)

/-- What the candidate has to keep of the database that runs. -/
structure Database where
  project : Text
  volume : Text
  image : Text

/-- Where the database keeps its data. -/
def dataDirectory : Text := "/var/lib/postgresql/data".toList

/-- The database that runs before the update, read with the override that it was started with. -/
def runningDatabase (d : Deployment) (previousSha : Text) : M Database := do
  call (.run (.gitIsAncestor previousSha d.sha))
  let present : Bool ← call .overrideExists
  let previousCommand := ["./deploy/rootless-compose.sh".toList, "-f".toList,
    "docker-compose.yml".toList] ++ if present then ["-f".toList, d.override] else []
  let oldConfig : ComposeConfig ← call (.run (.compose previousCommand .config))
  let previousCommand := previousCommand ++ ["--project-name".toList, oldConfig.name]
  let id : Text ← call (.run (.compose previousCommand (.ps "db".toList)))
  let db : ContainerInfo ← call (.run (.dockerInspect id))
  raiseIf (!db.running) (.deploymentError "existing production DB must be running".toList)
  let oldMounts := (db.mounts.filter fun mount =>
    mount.kind = "volume".toList && mount.destination = dataDirectory).map Mount.name
  raiseIf (oldMounts != [oldConfig.dbDataName])
    (.deploymentError "existing DB volume does not match Compose".toList)
  pure { project := oldConfig.name, volume := oldConfig.dbDataName, image := db.image }

/-- What `urlsplit` finds; nothing is the empty text. -/
structure SplitResult where
  scheme : Text
  hostname : Text
  username : Text
  password : Text
  path : Text
  query : Text
  fragment : Text

/-- The public URL has nothing but a scheme, a host and a port. -/
def SplitResult.isHttpsOrigin (parsed : SplitResult) : Bool :=
  parsed.scheme = "https".toList && !parsed.hostname.isEmpty && parsed.username.isEmpty &&
    parsed.password.isEmpty && parsed.path.isEmpty && parsed.query.isEmpty &&
    parsed.fragment.isEmpty

section

variable (urlsplit : Text → Except Exc SplitResult)

/-- The checks of the candidate, and the origin it will be served from. -/
def candidateOrigin (d : Deployment) (db : Database) : M Text := do
  call (.setCommand ["./deploy/rootless-compose.sh".toList, "--project-name".toList, db.project,
    "-f".toList, "docker-compose.yml".toList, "-f".toList, d.candidate])
  let config : ComposeConfig ← call (.compose .config)
  let dataMounts := config.dbVolumes.filter fun mount => mount.2.2 = dataDirectory
  raiseIf (config.dbDataName != db.volume ||
    dataMounts != [("volume".toList, "db_data".toList, dataDirectory)])
    (.deploymentError "candidate must preserve the existing DB volume".toList)
  let origin := config.serverUrl.rdropWhile fun c => c = '/'
  let parsed ← Prog.unwrap (urlsplit origin)
  raiseIf (!parsed.isHttpsOrigin)
    (.deploymentError "SERVER_URL must be a public HTTPS origin".toList)
  pure origin

/-- The override of the new images is written and checked before any service stops. -/
def prepareCandidate (d : Deployment) (record : BuildRecord) (db : Database) : M Text := do
  let override ← Prog.unwrap (overrideFor record)
  call (.writeCandidate override)
  candidateOrigin urlsplit d db

/-- The services are stopped and the new override is put in place. -/
def stopServices (d : Deployment) : M Unit := do
  stage "stop services".toList
  call (.setStopped true)
  call (.writeFailed ⟨d.sha, "in progress".toList⟩)
  call (.compose .stop)
  call .replaceOverride
  call (.setCommandLast d.override)

/-- The database is migrated while the other services are stopped. -/
def migrateDatabase : M Unit := do
  stage "database migration".toList
  call (.compose .upDatabase)
  waitDatabase 30
  call (.compose .migrate)

/-- The loop that compares the images -/
def compareImages (record : BuildRecord) : List Text → M Unit
  | [] => pure ()
  | name :: names => do
    let id : Text ← call (.compose (.ps name))
    let actual : ContainerInfo ← call (.run (.dockerInspect id))
    let image ← Prog.unwrap (lookup record.imageIds name)
    raiseIf (actual.image != image)
      (.deploymentError "running image differs from reviewed image".toList)
    compareImages record names

/-- The services whose images are compared after the start. -/
def comparedServices : List Text :=
  ["db".toList, "runner".toList, "backend".toList, "frontend".toList]

/-- The services are started and run the images of the record. -/
def startServices (record : BuildRecord) : M Unit := do
  stage "start services".toList
  call (.compose .up)
  compareImages record comparedServices

/-- The smoke test passes, the record becomes current and the failure record goes. -/
def finishUpdate (record : BuildRecord) (origin : Text) : M Unit := do
  stage "public smoke test".toList
  waitSmoke origin 5
  call (.writeCurrent record)
  call .unlinkFailed
  call (.setStopped false)
  stage "success".toList
  keepTransferBasis

/-- What the update does from the stop of the services on. -/
def replaceServices (d : Deployment) (record : BuildRecord) (origin : Text) : M Unit := do
  stopServices d
  migrateDatabase
  startServices record
  finishUpdate record origin

/-- `Deployment.update` -/
def update (d : Deployment) : M Unit := do
  checkHost
  let record ← readRecord d
  let previousSha : Text ← call (.run .gitHead)
  let latest ← fetchedSha
  if latest ≠ d.sha then stage "superseded; no production changes".toList
  else do
    let db ← runningDatabase d previousSha
    call (.run (.dockerLoad d.archive))
    checkImages record db.image
    let latest ← fetchedSha
    if latest ≠ d.sha then stage "superseded after image transfer; no service changes".toList
    else do
      call (.run (.gitMerge d.sha))
      let origin ← prepareCandidate urlsplit d record db
      replaceServices d record origin

/-- The failure handler -/
def failStop (d : Deployment) : M Unit := do
  let stopped : Bool ← call .isStopped
  if stopped then do
    MonadExcept.tryCatch (call (.recordFailed d.sha)) fun error => match error with
      | .osError | .timeoutError _ => pure ()
      | error => throw error
    MonadExcept.tryCatch (call .stopAfterFailure) fun error => match error with
      | .keyboardInterrupt => throw .keyboardInterrupt
      | _ => pure ()
  else pure ()

/-- `Deployment.execute` -/
def execute (d : Deployment) : M Unit :=
  MonadExcept.tryCatch
    (do
      stage "preflight".toList
      update urlsplit d)
    fun error => do
      failStop d
      throw error

end

/-! ### Steps -/

/-- An action may take the machine from the one state to the other. -/
def Step (a : Action) (m : Machine) (answer : Answer a.Result) (m' : Machine) : Prop :=
  a.allowed m answer = true ∧ ∃ containers, a.after m answer containers = m'

theorem step_of_sem {a : Action} {m m' : Machine} {reply : Reply a.Result}
    (h : sem a m reply = some m') : Step a m reply.answer m' := by
  rw [sem] at h
  split at h
  · next hallowed => exact ⟨hallowed, reply.containers, Option.some.inj h⟩
  · cases h

/-- A postcondition for each of the two ways to end. -/
def Post {α : Type} (ok : α → Machine → Prop) (error : Machine → Prop) :
    Except Exc α → Machine → Prop
  | .ok value, m => ok value m
  | .error _, m => error m

theorem wp_call_bind {a : Action} {α : Type} {f : a.Result → M α}
    {Q : Except Exc α → Machine → Prop} {m : Machine}
    (hok : ∀ value m', Step a m (.ok value) m' → Prog.Wp sem (f value) Q m')
    (herror : ∀ error effect m', Step a m (.raised error effect) m' → Q (.error error) m') :
    Prog.Wp sem (call a >>= f) Q m := by
  intro reply m' hsem
  have hstep := step_of_sem hsem
  obtain ⟨answer, containers⟩ := reply
  cases answer with
  | ok value => exact hok value m' hstep
  | raised error effect => exact herror error effect m' hstep

theorem wp_call {a : Action} {Q : Except Exc a.Result → Machine → Prop} {m : Machine}
    (hok : ∀ value m', Step a m (.ok value) m' → Q (.ok value) m')
    (herror : ∀ error effect m', Step a m (.raised error effect) m' → Q (.error error) m') :
    Prog.Wp sem (call a) Q m := by
  intro reply m' hsem
  have hstep := step_of_sem hsem
  obtain ⟨answer, containers⟩ := reply
  cases answer with
  | ok value => exact hok value m' hstep
  | raised error effect => exact herror error effect m' hstep

theorem wp_raiseIf_bind {condition : Bool} {error : Exc} {α : Type} {f : Unit → M α}
    {Q : Except Exc α → Machine → Prop} {m : Machine}
    (hok : condition = false → Prog.Wp sem (f ()) Q m) (herror : Q (.error error) m) :
    Prog.Wp sem (raiseIf condition error >>= f) Q m := by
  cases condition with
  | false => exact hok rfl
  | true => exact herror

/-! ### What stays as it is -/

/-- From the one machine to the other only commands were issued that leave the services
alone. -/
structure Still (m m' : Machine) : Prop where
  incoming : m'.incoming = m.incoming
  failed : m'.failed = m.failed
  current : m'.current = m.current
  candidate : m'.candidate = m.candidate
  override : m'.override = m.override
  containers : m'.containers = m.containers
  stopped : m'.stopped = m.stopped
  phase : m.phase ≠ "success".toList → m'.phase ≠ "success".toList
  issued : ∃ events, m'.issued = m.issued ++ events ∧ ∀ e ∈ events, e.harmless = true

theorem still_attributes (m : Machine) {phase : Text} (command : List Text)
    (hphase : m.phase ≠ "success".toList → phase ≠ "success".toList) :
    Still m { m with phase := phase, command := command } where
  incoming := rfl
  failed := rfl
  current := rfl
  candidate := rfl
  override := rfl
  containers := rfl
  stopped := rfl
  phase := hphase
  issued := ⟨[], (List.append_nil _).symm, by simp⟩

theorem Still.refl (m : Machine) : Still m m := still_attributes m m.command id

theorem Still.trans {m m' m'' : Machine} (h : Still m m') (h' : Still m' m'') : Still m m'' where
  incoming := h'.incoming.trans h.incoming
  failed := h'.failed.trans h.failed
  current := h'.current.trans h.current
  candidate := h'.candidate.trans h.candidate
  override := h'.override.trans h.override
  containers := h'.containers.trans h.containers
  stopped := h'.stopped.trans h.stopped
  phase := h'.phase ∘ h.phase
  issued := by
    obtain ⟨events, hevents, hharmless⟩ := h.issued
    obtain ⟨events', hevents', hharmless'⟩ := h'.issued
    refine ⟨events ++ events', by rw [hevents', hevents, List.append_assoc], fun e he => ?_⟩
    exact (List.mem_append.1 he).elim (hharmless e) (hharmless' e)

/-- The actions that assign no file and no flag and change no service. -/
def Action.quiet : Action → Bool
  | .run c => c.harmless
  | .compose arguments => arguments.harmless
  | .setPhase name => name ≠ "success".toList
  | .setStopped _ | .writeCandidate _ | .writeFailed _ | .replaceOverride | .writeCurrent _ => false
  | .unlinkFailed | .recordFailed _ | .stopAfterFailure => false
  | _ => true

theorem still_issue (m : Machine) {c : Command} (hc : c.harmless = true) (ok : Bool)
    (containers : Containers) : Still m (m.issue c ok containers) :=
  { Still.refl m with
    containers := if_pos hc
    issued := ⟨[.command c ok], rfl, by
      intro e he
      rw [List.mem_singleton.1 he]
      exact hc⟩ }

theorem applied_cases {P : Machine → Prop} {m part after : Machine} {α : Type} (hm : P m)
    (hpart : P part) (hafter : P after) (answer : Answer α) : P (m.applied part after answer) := by
  cases answer with
  | ok value => exact hafter
  | raised error effect =>
    cases effect with
    | none => exact hm
    | part => exact hpart
    | whole => exact hafter

theorem Step.still {a : Action} {m m' : Machine} {answer : Answer a.Result}
    (h : Step a m answer m') (ha : a.quiet = true) : Still m m' := by
  obtain ⟨_, containers, rfl⟩ := h
  cases a with
  | run c => exact still_issue m ha answer.isOk containers
  | compose arguments =>
    exact still_issue m (c := .compose m.command arguments) ha answer.isOk containers
  | setPhase name =>
    have hname : name ≠ "success".toList := of_decide_eq_true ha
    exact applied_cases (Still.refl m) (Still.refl m)
      (still_attributes m m.command fun _ => hname) answer
  | setCommand command =>
    exact applied_cases (Still.refl m) (Still.refl m) (still_attributes m _ id) answer
  | setCommandLast path =>
    exact applied_cases (Still.refl m) (Still.refl m) (still_attributes m _ id) answer
  | setStopped _ | writeCandidate _ | writeFailed _ | replaceOverride | writeCurrent _
  | unlinkFailed | recordFailed _ | stopAfterFailure => cases ha
  | _ => exact Still.refl m

/-- A program of quiet actions. -/
abbrev Quiet {α : Type} (p : M α) : Prop := Prog.Only (fun a => a.quiet = true) p

theorem Quiet.wp {α : Type} {p : M α} (hp : Quiet p) (m : Machine) :
    Prog.Wp sem p (fun _ => Still m) m :=
  Prog.Only.wp hp (fun _ _ _ _ ha hm hsem => hm.trans ((step_of_sem hsem).still ha)) (Still.refl m)

theorem quiet_call {a : Action} (ha : a.quiet = true) : Quiet (call a) := by
  refine ⟨ha, fun reply => ?_⟩
  obtain ⟨answer, containers⟩ := reply
  cases answer with
  | ok value => exact Prog.only_pure value
  | raised error effect => exact Prog.only_throw error

theorem quiet_raiseIf (condition : Bool) (error : Exc) : Quiet (raiseIf condition error) :=
  Prog.only_ite (fun _ => Prog.only_throw error) fun _ => Prog.only_pure ()

theorem quiet_stage {name : Text} (hname : name ≠ "success".toList) : Quiet (stage name) :=
  (quiet_call (a := .setPhase name) (decide_eq_true hname)).bind fun _ => quiet_call rfl

theorem quiet_privateDirectory : Quiet privateDirectory := by
  refine (quiet_call rfl).bind fun info => ?_
  exact (quiet_call rfl).bind fun uid => quiet_raiseIf _ _

theorem quiet_checkEntries (record : BuildRecord) (old : ImageConfig)
    (entries : List (Text × Text)) : Quiet (checkEntries record old entries) := by
  induction entries with
  | nil => exact Prog.only_pure ()
  | cons entry entries ih =>
    refine (quiet_call rfl).bind fun inspected => ?_
    refine (quiet_raiseIf _ _).bind fun _ => ?_
    exact (quiet_raiseIf _ _).bind fun _ => ih

theorem quiet_checkImages (record : BuildRecord) (oldDb : Text) :
    Quiet (checkImages record oldDb) :=
  (quiet_call rfl).bind fun old => quiet_checkEntries record old record.imageIds

theorem quiet_smoke (url : Text) : Quiet (smoke url) :=
  (quiet_call rfl).bind fun _ => quiet_raiseIf _ _

theorem quiet_keepTransferBasis : Quiet keepTransferBasis := by
  refine Prog.Only.tryCatch ?_ fun error => ?_
  · refine (quiet_call rfl).bind fun _ => ?_
    exact quiet_privateDirectory.bind fun _ => quiet_call rfl
  · split
    · exact (quiet_call rfl).bind fun _ => quiet_call rfl
    · exact (quiet_call rfl).bind fun _ => quiet_call rfl
    · exact (quiet_call rfl).bind fun _ => quiet_call rfl
    · exact Prog.only_throw _

theorem quiet_waitSmoke (origin : Text) (n : ℕ) : Quiet (waitSmoke origin n) := by
  induction n with
  | zero => exact Prog.only_throw _
  | succ n ih =>
    refine Prog.Only.bind (Prog.Only.tryCatch ?_ fun error => ?_) fun answered => ?_
    · exact (quiet_smoke origin).bind fun _ => Prog.only_pure true
    · split
      · exact Prog.only_throw _
      · exact (quiet_call rfl).bind fun _ => Prog.only_pure false
    · exact Prog.only_ite (fun _ => Prog.only_pure ()) fun _ => ih

theorem quiet_unmanagedOverride : Quiet unmanagedOverride := by
  refine (quiet_call rfl).bind fun present => ?_
  refine Prog.only_ite (fun _ => ?_) fun _ => Prog.only_pure false
  refine (quiet_call rfl).bind fun symlink => ?_
  refine Prog.only_ite (fun _ => Prog.only_pure true) fun _ => ?_
  exact (quiet_call rfl).bind fun managed => Prog.only_pure (!managed)

theorem quiet_checkHost : Quiet checkHost := by
  refine (quiet_call rfl).bind fun failed => ?_
  refine (quiet_raiseIf _ _).bind fun _ => ?_
  refine (quiet_call rfl).bind fun uid => ?_
  refine (quiet_raiseIf _ _).bind fun _ => ?_
  refine (quiet_call rfl).bind fun uid => ?_
  refine (quiet_call rfl).bind fun configured => ?_
  refine (quiet_raiseIf _ _).bind fun _ => ?_
  refine (quiet_call rfl).bind fun _ => ?_
  refine (quiet_call rfl).bind fun _ => ?_
  refine (quiet_call rfl).bind fun info => ?_
  refine (quiet_raiseIf _ _).bind fun _ => ?_
  refine (quiet_call rfl).bind fun status => ?_
  refine (quiet_raiseIf _ _).bind fun _ => ?_
  exact quiet_unmanagedOverride.bind fun unmanaged => quiet_raiseIf _ _

theorem quiet_fetchedSha : Quiet fetchedSha := (quiet_call rfl).bind fun _ => quiet_call rfl

theorem quiet_runningDatabase (d : Deployment) (previousSha : Text) :
    Quiet (runningDatabase d previousSha) := by
  refine (quiet_call rfl).bind fun _ => ?_
  refine (quiet_call rfl).bind fun present => ?_
  refine (quiet_call rfl).bind fun oldConfig => ?_
  refine (quiet_call rfl).bind fun id => ?_
  refine (quiet_call rfl).bind fun db => ?_
  refine (quiet_raiseIf _ _).bind fun _ => ?_
  exact (quiet_raiseIf _ _).bind fun _ => Prog.only_pure _

/-! ### Where an execution stands -/

/-- Whether the migration was run, with whatever end. -/
def Event.isMigration : Event → Bool
  | command (.compose _ .migrate) _ => true
  | _ => false

/-- A Compose command was issued, and it succeeded. -/
def Succeeded (arguments : Compose) (issued : List Event) : Prop :=
  ∃ front, Event.command (.compose front arguments) true ∈ issued

/-- Every migration comes after the services have stopped and the database was ready. -/
def MigrationOrdered (issued : List Event) : Prop :=
  ∀ before e, before ++ [e] <+: issued → e.isMigration = true →
    Succeeded .stop before ∧ Succeeded .isReady before

theorem Succeeded.append {arguments : Compose} {issued : List Event}
    (h : Succeeded arguments issued) (events : List Event) :
    Succeeded arguments (issued ++ events) := by
  obtain ⟨front, hfront⟩ := h
  exact ⟨front, List.mem_append_left events hfront⟩

theorem migrationOrdered_nil : MigrationOrdered [] := by
  intro before e hprefix _
  simp at hprefix

theorem MigrationOrdered.concat {issued : List Event} {e : Event} (h : MigrationOrdered issued)
    (he : e.isMigration = true → Succeeded .stop issued ∧ Succeeded .isReady issued) :
    MigrationOrdered (issued ++ [e]) := by
  intro before e' hprefix hmigration
  rcases List.prefix_concat_iff.1 hprefix with heq | hprefix
  · obtain ⟨rfl, hcons⟩ := List.append_inj' heq rfl
    obtain rfl : e' = e := by simpa using hcons
    exact he hmigration
  · exact h before e' hprefix hmigration

theorem Event.not_isMigration {e : Event} (h : e.harmless = true) : ¬ e.isMigration = true := by
  intro hmigration
  match e with
  | .command (.compose front .migrate) ok => cases h

theorem MigrationOrdered.append {issued events : List Event} (h : MigrationOrdered issued)
    (hevents : ∀ e ∈ events, e.harmless = true) : MigrationOrdered (issued ++ events) := by
  induction events generalizing issued with
  | nil => simpa using h
  | cons e events ih =>
    obtain ⟨he, hevents⟩ := List.forall_mem_cons.1 hevents
    rw [← List.singleton_append, ← List.append_assoc]
    exact ih (h.concat fun hmigration => absurd hmigration (Event.not_isMigration he)) hevents

/-- Nothing of the host has changed that the services or the next deployment depend on. -/
structure Untouched (m₀ m : Machine) : Prop where
  incoming : m.incoming = m₀.incoming
  failed : m.failed = m₀.failed
  current : m.current = m₀.current
  override : m.override = m₀.override
  containers : m.containers = m₀.containers
  issued : ∀ e ∈ m.issued, e.harmless = true

/-- Before the services are stopped. -/
structure Preflight (m₀ m : Machine) : Prop extends Untouched m₀ m where
  running : m.stopped = false
  phase : m.phase ≠ "success".toList

/-- From the stop of the services on. -/
structure Halted (m₀ m : Machine) : Prop where
  incoming : m.incoming = m₀.incoming
  stopped : m.stopped = true
  ordered : MigrationOrdered m.issued

/-- The override in use is that of the record. -/
def Overridden (m₀ m : Machine) : Prop :=
  ∃ override, overrideFor m₀.incoming = .ok override ∧ m.override = some (.written override)

/-- With the services stopped and the override in its place. -/
structure Replaced (m₀ m : Machine) : Prop extends Halted m₀ m where
  ceased : Succeeded .stop m.issued
  override : Overridden m₀ m

/-- The images that run are those of the record. -/
def ImagesMatch (m₀ m : Machine) (names : List Text) : Prop :=
  ∀ name ∈ names,
    lookup m₀.incoming.imageIds name = .ok (m.containers.imageOf (m.containers.idOf name))

/-- The update is complete. -/
structure Complete (m₀ m : Machine) : Prop where
  failed : m.failed = none
  current : m.current = some (.written m₀.incoming)
  override : Overridden m₀ m
  images : ImagesMatch m₀ m comparedServices

/-- How an execution that completed the update leaves its machine. -/
structure Finished (m₀ m : Machine) : Prop extends Complete m₀ m where
  running : m.stopped = false
  ordered : MigrationOrdered m.issued

section

variable {m₀ m m' : Machine}

theorem Preflight.ordered (h : Preflight m₀ m) : MigrationOrdered m.issued := by
  have hordered := migrationOrdered_nil.append h.issued
  exact hordered

theorem Preflight.still (h : Preflight m₀ m) (hstill : Still m m') : Preflight m₀ m' where
  incoming := hstill.incoming.trans h.incoming
  failed := hstill.failed.trans h.failed
  current := hstill.current.trans h.current
  override := hstill.override.trans h.override
  containers := hstill.containers.trans h.containers
  running := hstill.stopped.trans h.running
  phase := hstill.phase h.phase
  issued := by
    obtain ⟨events, hevents, hharmless⟩ := hstill.issued
    rw [hevents]
    intro e he
    exact (List.mem_append.1 he).elim (h.issued e) (hharmless e)

theorem ordered_still (h : MigrationOrdered m.issued) (hstill : Still m m') :
    MigrationOrdered m'.issued := by
  obtain ⟨events, hevents, hharmless⟩ := hstill.issued
  rw [hevents]
  exact h.append hharmless

theorem Halted.still (h : Halted m₀ m) (hstill : Still m m') : Halted m₀ m' where
  incoming := hstill.incoming.trans h.incoming
  stopped := hstill.stopped.trans h.stopped
  ordered := ordered_still h.ordered hstill

theorem Replaced.still (h : Replaced m₀ m) (hstill : Still m m') : Replaced m₀ m' where
  toHalted := h.toHalted.still hstill
  ceased := by
    obtain ⟨events, hevents, _⟩ := hstill.issued
    rw [hevents]
    exact h.ceased.append events
  override := by
    rw [Overridden, hstill.override]
    exact h.override

theorem ImagesMatch.still {names : List Text} (h : ImagesMatch m₀ m names)
    (hstill : Still m m') : ImagesMatch m₀ m' names := by
  rw [ImagesMatch, hstill.containers]
  exact h

theorem Finished.still (h : Finished m₀ m) (hstill : Still m m') : Finished m₀ m' where
  failed := hstill.failed.trans h.failed
  current := hstill.current.trans h.current
  override := by
    rw [Overridden, hstill.override]
    exact h.override
  images := h.images.still hstill
  running := hstill.stopped.trans h.running
  ordered := ordered_still h.ordered hstill

theorem Halted.issue (h : Halted m₀ m) (c : Command) (ok : Bool) (containers : Containers)
    (hc : (Event.command c ok).isMigration = true →
      Succeeded .stop m.issued ∧ Succeeded .isReady m.issued) :
    Halted m₀ (m.issue c ok containers) where
  incoming := h.incoming
  stopped := h.stopped
  ordered := h.ordered.concat hc

theorem Replaced.issue (h : Replaced m₀ m) (c : Command) (ok : Bool) (containers : Containers)
    (hc : (Event.command c ok).isMigration = true → Succeeded .isReady m.issued) :
    Replaced m₀ (m.issue c ok containers) where
  toHalted := h.toHalted.issue c ok containers fun hmigration => ⟨h.ceased, hc hmigration⟩
  ceased := h.ceased.append _
  override := h.override

end

/-! ### The steps of the update -/

/-- The actions after which the services are as stopped as before. -/
def Action.keepsHalt : Action → Bool
  | .run c => c.harmless
  | .compose arguments => arguments ≠ .migrate
  | .setStopped value => value
  | _ => true

section

variable {m₀ m m' : Machine}

theorem Halted.step {a : Action} {answer : Answer a.Result} (h : Halted m₀ m)
    (ha : a.keepsHalt = true) (hstep : Step a m answer m') : Halted m₀ m' := by
  obtain ⟨_, containers, rfl⟩ := hstep
  -- the files and the other attributes are not part of it
  have hfiles : ∀ failed current candidate override, Halted m₀ { m with
      failed := failed, current := current, candidate := candidate, override := override } :=
    fun _ _ _ _ => ⟨h.incoming, h.stopped, h.ordered⟩
  have hattributes : ∀ phase command, Halted m₀ { m with phase := phase, command := command } :=
    fun _ _ => ⟨h.incoming, h.stopped, h.ordered⟩
  cases a with
  | run c => exact h.still (still_issue m ha answer.isOk containers)
  | compose arguments =>
    refine h.issue (.compose m.command arguments) answer.isOk containers fun hmigration => ?_
    cases arguments with
    | migrate => cases ha
    | _ => cases hmigration
  | setPhase _ | setCommand _ | setCommandLast _ =>
    exact applied_cases (P := Halted m₀) h h (hattributes _ _) answer
  | setStopped value =>
    have hstopped : Halted m₀ { m with stopped := value } := ⟨h.incoming, ha, h.ordered⟩
    exact applied_cases (P := Halted m₀) h h hstopped answer
  | writeCandidate _ | writeFailed _ | replaceOverride | writeCurrent _ | unlinkFailed =>
    exact applied_cases (P := Halted m₀) h (hfiles _ _ _ _) (hfiles _ _ _ _) answer
  | recordFailed _ => exact hfiles _ _ _ _
  | stopAfterFailure =>
    exact ⟨h.incoming, h.stopped, h.ordered.concat fun hmigration => nomatch hmigration⟩
  | _ => exact h

theorem stopServices_wp (d : Deployment) (h : Preflight m₀ m) {override : ComposeOverride}
    (hoverride : overrideFor m₀.incoming = .ok override)
    (hcandidate : m.candidate = some (.written override)) :
    Prog.Wp sem (stopServices d)
      (Post (fun _ => Replaced m₀) fun m' => Preflight m₀ m' ∨ Halted m₀ m') m := by
  refine (Quiet.wp (quiet_stage (by decide)) m).bind (fun _ m₁ hstill => ?_)
    fun _ _ hstill => .inl (h.still hstill)
  have h₁ := h.still hstill
  have hcandidate₁ := hstill.candidate.trans hcandidate
  refine wp_call_bind (fun _ m₂ hstep => ?_) fun _ effect m₂ hstep => ?_
  · have h₂ : Halted m₀ m₂ := by
      obtain ⟨_, _, rfl⟩ := hstep
      exact ⟨h₁.incoming, rfl, h₁.ordered⟩
    have hcandidate₂ : m₂.candidate = some (.written override) := by
      obtain ⟨_, _, rfl⟩ := hstep
      exact hcandidate₁
    refine wp_call_bind (fun _ m₃ hstep₃ => ?_) fun _ _ _ hstep₃ => .inr (h₂.step rfl hstep₃)
    have h₃ := h₂.step rfl hstep₃
    have hcandidate₃ : m₃.candidate = some (.written override) := by
      obtain ⟨_, _, rfl⟩ := hstep₃
      exact hcandidate₂
    refine wp_call_bind (fun _ m₄ hstep₄ => ?_) fun _ _ _ hstep₄ => .inr (h₃.step rfl hstep₄)
    have h₄ := h₃.step rfl hstep₄
    have hceased : Succeeded .stop m₄.issued := by
      obtain ⟨_, _, rfl⟩ := hstep₄
      exact ⟨m₃.command, List.mem_append_right _ (List.mem_singleton.2 rfl)⟩
    have hcandidate₄ : m₄.candidate = some (.written override) := by
      obtain ⟨_, _, rfl⟩ := hstep₄
      exact hcandidate₃
    refine wp_call_bind (fun _ m₅ hstep₅ => ?_) fun _ _ _ hstep₅ => .inr (h₄.step rfl hstep₅)
    have h₅ : Replaced m₀ m₅ := by
      refine ⟨h₄.step rfl hstep₅, ?_, override, hoverride, ?_⟩
      · obtain ⟨_, _, rfl⟩ := hstep₅
        exact hceased
      · obtain ⟨_, _, rfl⟩ := hstep₅
        exact hcandidate₄
    exact wp_call (fun _ _ hstep₆ => h₅.still (hstep₆.still rfl))
      fun _ _ _ hstep₆ => .inr (h₅.toHalted.step rfl hstep₆)
  · -- the exception came before the flag was set, or after it
    have hstopped : Halted m₀ { m₁ with stopped := true } := ⟨h₁.incoming, rfl, h₁.ordered⟩
    obtain ⟨_, _, rfl⟩ := hstep
    exact applied_cases (P := fun m => Preflight m₀ m ∨ Halted m₀ m) (.inl h₁) (.inl h₁)
      (.inr hstopped) _

theorem waitDatabase_wp (h : Replaced m₀ m) (n : ℕ) :
    Prog.Wp sem (waitDatabase n)
      (Post (fun _ m' => Replaced m₀ m' ∧ Succeeded .isReady m'.issued) (Halted m₀)) m := by
  induction n generalizing m with
  | zero => exact h.toHalted
  | succ n ih =>
    -- one attempt; a failure is an answer, as the error is caught
    have htry : Prog.Wp sem
        (do
          call (.compose .isReady)
          pure true)
        (Post (fun ready m' => Replaced m₀ m' ∧ (ready = true → Succeeded .isReady m'.issued))
          (Replaced m₀)) m := by
      refine wp_call_bind (fun _ m' hstep => ?_) fun _ _ m' hstep => ?_
      · obtain ⟨_, containers, rfl⟩ := hstep
        refine ⟨h.issue _ _ containers (fun hmigration => nomatch hmigration), fun _ => ?_⟩
        exact ⟨m.command, List.mem_append_right _ (List.mem_singleton.2 rfl)⟩
      · obtain ⟨_, containers, rfl⟩ := hstep
        exact h.issue _ _ containers fun hmigration => nomatch hmigration
    refine Prog.Wp.bind (Q := Post (fun ready m' => Replaced m₀ m' ∧
      (ready = true → Succeeded .isReady m'.issued)) (Halted m₀))
      (htry.tryCatch (fun _ _ hready => hready) fun error m' hm' => ?_) ?_ fun _ _ hm' => hm'
    · split
      · exact wp_call_bind
          (fun _ _ hstep => ⟨hm'.still (hstep.still rfl), fun hready => nomatch hready⟩)
          fun _ _ _ hstep => hm'.toHalted.step rfl hstep
      · exact hm'.toHalted
    · intro ready m' hm'
      cases ready with
      | false => exact ih hm'.1
      | true => exact ⟨hm'.1, hm'.2 rfl⟩

theorem migrateDatabase_wp (h : Replaced m₀ m) :
    Prog.Wp sem migrateDatabase (Post (fun _ => Replaced m₀) (Halted m₀)) m := by
  refine (Quiet.wp (quiet_stage (by decide)) m).bind (fun _ m₁ hstill => ?_)
    fun _ _ hstill => h.toHalted.still hstill
  have h₁ := h.still hstill
  refine wp_call_bind (fun _ m₂ hstep => ?_) fun _ _ _ hstep => h₁.toHalted.step rfl hstep
  have h₂ : Replaced m₀ m₂ := by
    obtain ⟨_, containers, rfl⟩ := hstep
    exact h₁.issue _ _ containers fun hmigration => nomatch hmigration
  refine (waitDatabase_wp h₂ 30).bind (fun _ m₃ h₃ => ?_) fun _ _ h₃ => h₃
  have hmigrate : ∀ ok containers,
      Replaced m₀ (m₃.issue (.compose m₃.command .migrate) ok containers) :=
    fun ok containers => h₃.1.issue _ ok containers fun _ => h₃.2
  refine wp_call (fun _ _ hstep₃ => ?_) fun _ _ _ hstep₃ => ?_
  · obtain ⟨_, containers, rfl⟩ := hstep₃
    exact hmigrate true containers
  · obtain ⟨_, containers, rfl⟩ := hstep₃
    exact (hmigrate false containers).toHalted

theorem compareImages_wp (m₀ : Machine) (names : List Text) :
    Prog.Wp sem (compareImages m₀.incoming names)
      (Post (fun _ m' => Still m m' ∧ ImagesMatch m₀ m' names) (Still m)) m := by
  induction names generalizing m with
  | nil => exact ⟨Still.refl m, by simp [ImagesMatch]⟩
  | cons name names ih =>
    refine wp_call_bind (fun id m₁ hid => ?_) fun _ _ _ hstep => hstep.still rfl
    have hstill₁ : Still m m₁ := hid.still rfl
    refine wp_call_bind (fun actual m₂ hactual => ?_)
      fun _ _ _ hstep => hstill₁.trans (hstep.still rfl)
    have hstill₂ : Still m m₂ := hstill₁.trans (hactual.still rfl)
    have himage : actual.image = m₂.containers.imageOf (m₂.containers.idOf name) := by
      have hid : id = m.containers.idOf name := of_decide_eq_true hid.1
      have hactual : actual.image = m₁.containers.imageOf id := of_decide_eq_true hactual.1
      rw [hactual, hid, hstill₂.containers, hstill₁.containers]
    refine Prog.Wp.unwrap_bind (fun image hlookup => ?_) fun _ _ => hstill₂
    refine wp_raiseIf_bind (fun hequal => ?_) hstill₂
    refine ih.mono fun r m' hr => ?_
    cases r with
    | error e => exact hstill₂.trans hr
    | ok u =>
      refine ⟨hstill₂.trans hr.1, List.forall_mem_cons.2 ⟨?_, hr.2⟩⟩
      have hequal : actual.image = image := by simpa using hequal
      rw [hlookup, ← hequal, himage, hr.1.containers]

theorem startServices_wp (h : Replaced m₀ m) :
    Prog.Wp sem (startServices m₀.incoming)
      (Post (fun _ m' => Replaced m₀ m' ∧ ImagesMatch m₀ m' comparedServices) (Halted m₀)) m := by
  refine (Quiet.wp (quiet_stage (by decide)) m).bind (fun _ m₁ hstill => ?_)
    fun _ _ hstill => h.toHalted.still hstill
  have h₁ := h.still hstill
  refine wp_call_bind (fun _ m₂ hstep => ?_) fun _ _ _ hstep => h₁.toHalted.step rfl hstep
  have h₂ : Replaced m₀ m₂ := by
    obtain ⟨_, containers, rfl⟩ := hstep
    exact h₁.issue _ _ containers fun hmigration => nomatch hmigration
  refine (compareImages_wp m₀ comparedServices).mono fun r m₃ hr => ?_
  cases r with
  | error e => exact h₂.toHalted.still hr
  | ok u => exact ⟨h₂.still hr.1, hr.2⟩

/-- From the stage of the success on, nothing changes but the phase. -/
theorem success_wp (h : Finished m₀ m) :
    Prog.Wp sem (do
      stage "success".toList
      keepTransferBasis) (fun _ => Finished m₀) m := by
  have hphase : ∀ phase, Finished m₀ { m with phase := phase } := fun _ =>
    ⟨⟨h.failed, h.current, h.override, h.images⟩, h.running, h.ordered⟩
  have hstage : Prog.Wp sem (stage "success".toList) (fun _ => Finished m₀) m := by
    refine wp_call_bind (fun _ m₁ hstep => ?_) fun _ _ m₁ hstep => ?_
    · obtain ⟨_, _, rfl⟩ := hstep
      exact (Quiet.wp (quiet_call rfl) _).mono fun _ _ hstill => (hphase _).still hstill
    · obtain ⟨_, _, rfl⟩ := hstep
      exact applied_cases (P := Finished m₀) h h (hphase _) _
  refine hstage.bind (fun _ m₁ h₁ => ?_) fun _ _ h₁ => h₁
  exact (Quiet.wp quiet_keepTransferBasis m₁).mono fun _ _ hstill => h₁.still hstill

theorem finishUpdate_wp (origin : Text) (h : Replaced m₀ m)
    (himages : ImagesMatch m₀ m comparedServices) :
    Prog.Wp sem (finishUpdate m₀.incoming origin)
      (Post (fun _ => Finished m₀) fun m' => Halted m₀ m' ∨ Finished m₀ m') m := by
  refine (Quiet.wp (quiet_stage (by decide)) m).bind (fun _ m₁ hstill => ?_)
    fun _ _ hstill => .inl (h.toHalted.still hstill)
  have h₁ := h.still hstill
  refine (Quiet.wp (quiet_waitSmoke origin 5) m₁).bind (fun _ m₂ hstill₂ => ?_)
    fun _ _ hstill₂ => .inl (h₁.toHalted.still hstill₂)
  have h₂ := h₁.still hstill₂
  have himages₂ := (himages.still hstill).still hstill₂
  refine wp_call_bind (fun _ m₃ hstep => ?_) fun _ _ _ hstep => .inl (h₂.toHalted.step rfl hstep)
  have h₃ := h₂.toHalted.step rfl hstep
  obtain ⟨_, _, rfl⟩ := hstep
  refine wp_call_bind (fun _ m₄ hstep₄ => ?_) fun _ _ _ hstep₄ => .inl (h₃.step rfl hstep₄)
  have h₄ := h₃.step rfl hstep₄
  obtain ⟨_, _, rfl⟩ := hstep₄
  have hfinished : Finished m₀ { m₂ with
      current := some (.written m₀.incoming), failed := none, stopped := false } :=
    ⟨⟨rfl, rfl, h₂.override, himages₂⟩, rfl, h₂.ordered⟩
  -- the failure record is gone, and until the flag is reset the handler writes it again
  refine wp_call_bind (fun _ m₅ hstep₅ => ?_) fun _ _ _ hstep₅ => ?_
  · obtain ⟨_, _, rfl⟩ := hstep₅
    refine (success_wp hfinished).mono fun r m₆ h₆ => ?_
    cases r with
    | ok u => exact h₆
    | error e => exact .inr h₆
  · obtain ⟨_, _, rfl⟩ := hstep₅
    exact applied_cases (P := fun m => Halted m₀ m ∨ Finished m₀ m) (.inl h₄) (.inl h₄)
      (.inr hfinished) _

end

/-! ### An execution -/

section

variable {m₀ m m' : Machine} (urlsplit : Text → Except Exc SplitResult)

theorem readRecord_wp (d : Deployment) (m : Machine) :
    Prog.Wp sem (readRecord d)
      (Post (fun record m' => Still m m' ∧ record = m.incoming) (Still m)) m := by
  refine wp_call_bind (fun record m₁ hstep => ?_) fun _ _ _ hstep => hstep.still rfl
  have hstill : Still m m₁ := hstep.still rfl
  have hrecord : record = m.incoming := of_decide_eq_true hstep.1
  refine wp_raiseIf_bind (fun _ => ?_) hstill
  refine wp_call_bind (fun _ m₂ hstep₂ => ?_) fun _ _ _ hstep₂ => hstill.trans (hstep₂.still rfl)
  have hstill₂ : Still m m₂ := hstill.trans (hstep₂.still rfl)
  exact wp_raiseIf_bind (fun _ => ⟨hstill₂, hrecord⟩) hstill₂

theorem quiet_candidateOrigin (d : Deployment) (db : Database) :
    Quiet (candidateOrigin urlsplit d db) := by
  refine (quiet_call rfl).bind fun _ => ?_
  refine (quiet_call rfl).bind fun config => ?_
  refine (quiet_raiseIf _ _).bind fun _ => ?_
  refine (Prog.only_unwrap _).bind fun parsed => ?_
  exact (quiet_raiseIf _ _).bind fun _ => Prog.only_pure _

theorem prepareCandidate_wp (d : Deployment) (db : Database) (h : Preflight m₀ m) :
    Prog.Wp sem (prepareCandidate urlsplit d m₀.incoming db)
      (Post (fun _ m' => Preflight m₀ m' ∧ ∃ override, overrideFor m₀.incoming = .ok override ∧
        m'.candidate = some (.written override)) (Preflight m₀)) m := by
  have hwrite : ∀ candidate, Preflight m₀ { m with candidate := candidate } := fun _ =>
    ⟨⟨h.incoming, h.failed, h.current, h.override, h.containers, h.issued⟩, h.running, h.phase⟩
  refine Prog.Wp.unwrap_bind (fun override hoverride => ?_) fun _ _ => h
  refine wp_call_bind (fun _ m₁ hstep => ?_) fun _ _ _ hstep => ?_
  · obtain ⟨_, _, rfl⟩ := hstep
    refine (Quiet.wp (quiet_candidateOrigin urlsplit d db) _).mono fun r m₂ hstill => ?_
    cases r with
    | ok origin => exact ⟨(hwrite _).still hstill, override, hoverride, hstill.candidate⟩
    | error e => exact (hwrite _).still hstill
  · obtain ⟨_, _, rfl⟩ := hstep
    exact applied_cases (P := Preflight m₀) h (hwrite _) (hwrite _) _

/-- Where an execution can raise. -/
def Raised (m₀ m : Machine) : Prop := Preflight m₀ m ∨ Halted m₀ m ∨ Finished m₀ m

/-- What holds when `update` returns. -/
def Returned (m₀ m : Machine) : Prop :=
  MigrationOrdered m.issued ∧ (m.phase = "success".toList → Complete m₀ m)

theorem Preflight.returned (h : Preflight m₀ m) : Returned m₀ m :=
  ⟨h.ordered, fun hphase => absurd hphase h.phase⟩

theorem superseded_wp (h : Preflight m₀ m) {name : Text} (hname : name ≠ "success".toList) :
    Prog.Wp sem (stage name) (Post (fun _ => Returned m₀) (Raised m₀)) m := by
  refine (Quiet.wp (quiet_stage hname) m).mono fun r m' hstill => ?_
  cases r with
  | ok u => exact (h.still hstill).returned
  | error e => exact .inl (h.still hstill)

theorem replaceServices_wp (d : Deployment) (origin : Text) (h : Preflight m₀ m)
    {override : ComposeOverride} (hoverride : overrideFor m₀.incoming = .ok override)
    (hcandidate : m.candidate = some (.written override)) :
    Prog.Wp sem (replaceServices d m₀.incoming origin)
      (Post (fun _ => Returned m₀) (Raised m₀)) m := by
  refine (stopServices_wp d h hoverride hcandidate).bind (fun _ m₁ h₁ => ?_) fun _ _ h₁ => ?_
  · refine (migrateDatabase_wp h₁).bind (fun _ m₂ h₂ => ?_) fun _ _ h₂ => .inr (.inl h₂)
    refine (startServices_wp h₂).bind (fun _ m₃ h₃ => ?_) fun _ _ h₃ => .inr (.inl h₃)
    refine (finishUpdate_wp origin h₃.1 h₃.2).mono fun r m₄ hr => ?_
    cases r with
    | ok u => exact ⟨Finished.ordered hr, fun _ => Finished.toComplete hr⟩
    | error e => exact .inr hr
  · rcases h₁ with hpreflight | hhalted
    · exact .inl hpreflight
    · exact .inr (.inl hhalted)

theorem Preflight.quiet_bind {α β : Type} {p : M α} {f : α → M β} {Q : β → Machine → Prop}
    (h : Preflight m₀ m) (hp : Quiet p)
    (hf : ∀ a m', Preflight m₀ m' → Prog.Wp sem (f a) (Post Q (Raised m₀)) m') :
    Prog.Wp sem (p >>= f) (Post Q (Raised m₀)) m :=
  (Quiet.wp hp m).bind (fun a m' hstill => hf a m' (h.still hstill))
    fun _ _ hstill => .inl (h.still hstill)

theorem update_wp (d : Deployment) (h : Preflight m₀ m) :
    Prog.Wp sem (update urlsplit d) (Post (fun _ => Returned m₀) (Raised m₀)) m := by
  refine h.quiet_bind quiet_checkHost fun _ m₁ h₁ => ?_
  refine (readRecord_wp d m₁).bind (fun record m₂ hr => ?_)
    fun _ _ hstill => .inl (h₁.still hstill)
  have h₂ := h₁.still hr.1
  obtain rfl : record = m₀.incoming := hr.2.trans h₁.incoming
  refine h₂.quiet_bind (quiet_call rfl) fun previousSha m₃ h₃ => ?_
  refine h₃.quiet_bind quiet_fetchedSha fun latest m₄ h₄ => ?_
  split
  · exact superseded_wp h₄ (by decide)
  refine h₄.quiet_bind (quiet_runningDatabase d previousSha) fun db m₅ h₅ => ?_
  refine h₅.quiet_bind (quiet_call rfl) fun _ m₆ h₆ => ?_
  refine h₆.quiet_bind (quiet_checkImages m₀.incoming db.image) fun _ m₇ h₇ => ?_
  refine h₇.quiet_bind quiet_fetchedSha fun latest m₈ h₈ => ?_
  split
  · exact superseded_wp h₈ (by decide)
  refine h₈.quiet_bind (quiet_call rfl) fun _ m₉ h₉ => ?_
  refine (prepareCandidate_wp urlsplit d db h₉).bind (fun origin m₁₀ h₁₀ => ?_)
    fun _ _ h₁₀ => .inl h₁₀
  obtain ⟨h₁₀, override, hoverride, hcandidate⟩ := h₁₀
  exact replaceServices_wp d origin h₁₀ hoverride hcandidate

/-- The record of the failure is there, and the last command was to stop the services. -/
def Recorded (d : Deployment) (m : Machine) : Prop :=
  m.failed = some (.written ⟨d.sha, m.phase⟩) ∧
    ∃ before front ok, m.issued = before ++ [.stopAfterFailure front ok]

/-- What holds when `execute` raises. -/
def Ended (d : Deployment) (m₀ m : Machine) : Prop :=
  MigrationOrdered m.issued ∧ (Untouched m₀ m ∨ Recorded d m ∨ Complete m₀ m)

/-- The record of the failure is written, and without an exception. -/
def Noted (d : Deployment) (m₀ : Machine) (r : Except Exc Unit) (m : Machine) : Prop :=
  r = .ok () ∧ Halted m₀ m ∧ m.failed = some (.written ⟨d.sha, m.phase⟩)

theorem recordFailed_wp (d : Deployment) (h : Halted m₀ m) :
    Prog.Wp sem (call (.recordFailed d.sha)) (Noted d m₀) m := by
  refine wp_call (fun _ m' hstep => ?_) fun _ _ _ hstep => nomatch hstep.1
  have h' : Halted m₀ m' := h.step rfl hstep
  obtain ⟨_, _, rfl⟩ := hstep
  exact ⟨rfl, h', rfl⟩

theorem failStop_halted (d : Deployment) (h : Halted m₀ m) :
    Prog.Wp sem (failStop d) (fun _ m' => MigrationOrdered m'.issued ∧ Recorded d m') m := by
  refine wp_call_bind (fun stopped m₁ hstep => ?_) fun _ _ _ hstep => nomatch hstep.1
  have hstopped : stopped = true := (of_decide_eq_true hstep.1).trans h.stopped
  obtain ⟨_, _, rfl⟩ := hstep
  rw [if_pos hstopped]
  refine Prog.Wp.bind (Q := Noted d m₀) ((recordFailed_wp d h).tryCatch (fun _ _ hm' => hm')
    fun _ _ hm' => nomatch hm'.1) (fun _ m₂ hm₂ => ?_) fun _ _ hm' => nomatch hm'.1
  obtain ⟨_, h₂, hfailed⟩ := hm₂
  have hstop : Prog.Wp sem (call .stopAfterFailure)
      (fun _ m' => MigrationOrdered m'.issued ∧ Recorded d m') m₂ := by
    have hordered : ∀ ok, MigrationOrdered (m₂.issued ++ [.stopAfterFailure m₂.command ok]) :=
      fun ok => h₂.ordered.concat fun hmigration => nomatch hmigration
    have hrecorded : ∀ ok containers, Recorded d { m₂ with
        issued := m₂.issued ++ [.stopAfterFailure m₂.command ok], containers := containers } :=
      fun ok _ => ⟨hfailed, m₂.issued, m₂.command, ok, rfl⟩
    refine wp_call (fun _ _ hstep => ?_) fun _ _ _ hstep => ?_
    · obtain ⟨_, containers, rfl⟩ := hstep
      exact ⟨hordered true, hrecorded true containers⟩
    · obtain ⟨_, containers, rfl⟩ := hstep
      exact ⟨hordered false, hrecorded false containers⟩
  refine hstop.tryCatch (fun _ _ hm' => hm') fun error m' hm' => ?_
  split
  · exact hm'
  · exact hm'

theorem failStop_running (d : Deployment) (h : m.stopped = false) :
    Prog.Wp sem (failStop d) (fun _ m' => m' = m) m := by
  refine wp_call_bind (fun stopped m₁ hstep => ?_) fun _ _ _ hstep => nomatch hstep.1
  have hstopped : stopped = false := (of_decide_eq_true hstep.1).trans h
  obtain ⟨_, _, rfl⟩ := hstep
  rw [if_neg (by simp [hstopped])]
  rfl

theorem failStop_wp (d : Deployment) (h : Raised m₀ m) :
    Prog.Wp sem (failStop d) (fun _ => Ended d m₀) m := by
  rcases h with hpreflight | hhalted | hfinished
  · refine (failStop_running d hpreflight.running).mono fun _ m' hm' => ?_
    rw [hm']
    exact ⟨hpreflight.ordered, .inl hpreflight.toUntouched⟩
  · exact (failStop_halted d hhalted).mono fun _ m' hm' => ⟨hm'.1, .inr (.inl hm'.2)⟩
  · refine (failStop_running d hfinished.running).mono fun _ m' hm' => ?_
    rw [hm']
    exact ⟨hfinished.ordered, .inr (.inr hfinished.toComplete)⟩

theorem preflight_fresh (m : Machine) : Preflight m m.fresh where
  incoming := rfl
  failed := rfl
  current := rfl
  override := rfl
  containers := rfl
  issued := by simp [Machine.fresh]
  running := rfl
  phase := show "preflight".toList ≠ "success".toList by decide

/-- How an execution ends. -/
theorem execute_wp (d : Deployment) (m : Machine) :
    Prog.Wp sem (execute urlsplit d) (Post (fun _ => Returned m) (Ended d m)) m.fresh := by
  have hupdate : Prog.Wp sem (do
      stage "preflight".toList
      update urlsplit d) (Post (fun _ => Returned m) (Raised m)) m.fresh :=
    (preflight_fresh m).quiet_bind (quiet_stage (by decide)) fun _ _ h => update_wp urlsplit d h
  refine hupdate.tryCatch (fun _ _ hreturned => hreturned) fun error m' hraised => ?_
  exact (failStop_wp d hraised).bind (fun _ _ hended => hended) fun _ _ hended => hended

/-! ### Later executions -/

/-- There is a failure record, and no command was issued. -/
structure Waiting (m : Machine) : Prop where
  issued : m.issued = []
  failed : m.failed.isSome = true
  running : m.stopped = false

/-- An exception before any command -/
def Refused {α : Type} (r : Except Exc α) (m : Machine) : Prop :=
  (∃ error, r = .error error) ∧ Waiting m

theorem checkHost_refused (h : Waiting m) : Prog.Wp sem checkHost Refused m := by
  refine wp_call_bind (fun failed m' hstep => ?_) fun error _ m' hstep => ?_
  · have hvalue : failed = true := (of_decide_eq_true hstep.1).trans h.failed
    obtain ⟨_, _, rfl⟩ := hstep
    rw [hvalue]
    exact ⟨⟨_, rfl⟩, h⟩
  · obtain ⟨_, _, rfl⟩ := hstep
    exact ⟨⟨error, rfl⟩, h⟩

theorem preflight_waiting (hfailed : m.failed.isSome = true) :
    Prog.Wp sem (stage "preflight".toList) (fun _ => Waiting) m.fresh := by
  have hphase : ∀ phase, Waiting { m.fresh with phase := phase } := fun _ => ⟨rfl, hfailed, rfl⟩
  refine wp_call_bind (fun _ m₁ hstep => ?_) fun _ _ m₁ hstep => ?_
  · obtain ⟨_, _, rfl⟩ := hstep
    refine wp_call (fun _ m₂ hstep₂ => ?_) fun _ _ m₂ hstep₂ => ?_
    · obtain ⟨_, _, rfl⟩ := hstep₂
      exact hphase _
    · obtain ⟨_, _, rfl⟩ := hstep₂
      exact hphase _
  · obtain ⟨_, _, rfl⟩ := hstep
    exact applied_cases (P := Waiting) (hphase _) (hphase _) (hphase _) _

/-- With a failure record, an execution raises at once. -/
theorem execute_refused (d : Deployment) (hfailed : m.failed.isSome = true) :
    Prog.Wp sem (execute urlsplit d) Refused m.fresh := by
  have hbody : Prog.Wp sem (do
      stage "preflight".toList
      update urlsplit d) Refused m.fresh := by
    refine (preflight_waiting hfailed).bind (fun _ m₁ h₁ => ?_) fun error _ h₁ => ⟨⟨error, rfl⟩, h₁⟩
    refine (checkHost_refused h₁).bind (fun _ _ hrefused => ?_) fun error _ hrefused =>
      ⟨⟨error, rfl⟩, hrefused.2⟩
    exact nomatch hrefused.1
  refine hbody.tryCatch (fun _ _ hrefused => hrefused) fun error m' hrefused => ?_
  refine (failStop_running d hrefused.2.running).bind (fun _ m'' hm'' => ?_) fun error' m'' hm'' => ?_
  · rw [hm'']
    exact ⟨⟨error, rfl⟩, hrefused.2⟩
  · rw [hm'']
    exact ⟨⟨error', rfl⟩, hrefused.2⟩

/-- After the one machine: deployments were executed, and between them anything but a removal
of the failure record happened on the host. -/
inductive Later : Machine → Machine → Prop
  | refl (m : Machine) : Later m m
  | host {m m' m'' : Machine} (h : Later m m')
      (hfailed : m'.failed.isSome = true → m''.failed.isSome = true) : Later m m''
  | execute {m m' m'' : Machine} {d : Deployment} {r : Except Exc Unit} (h : Later m m')
      (hruns : Prog.Runs sem m'.fresh (execute urlsplit d) r m'') : Later m m''

theorem Later.failed (h : Later urlsplit m m') (hfailed : m.failed.isSome = true) :
    m'.failed.isSome = true := by
  induction h with
  | refl => exact hfailed
  | host _ hkept ih => exact hkept ih
  | execute _ hruns ih => exact ((execute_refused urlsplit _ ih).of_runs hruns).2.failed

/-- Every later execution raises before it issues any command. -/
def LaterRefused (m : Machine) : Prop :=
  ∀ m₁, Later urlsplit m m₁ → ∀ d r m₂, Prog.Runs sem m₁.fresh (execute urlsplit d) r m₂ →
    (∃ error, r = .error error) ∧ m₂.issued = []

theorem Recorded.laterRefused {d : Deployment} (h : Recorded d m) : LaterRefused urlsplit m := by
  have hfailed : m.failed.isSome = true := by rw [h.1, Option.isSome_some]
  intro m₁ hlater d' r m₂ hruns
  have hrefused := (execute_refused urlsplit d' (hlater.failed urlsplit hfailed)).of_runs hruns
  exact ⟨hrefused.1, hrefused.2.issued⟩

/-- The deployment is fail-stop, whatever fails and however often; a later execution is one of
a new `Deployment`. -/
theorem deployment_fail_stop (d : Deployment) {m m' : Machine} {r : Except Exc Unit}
    (hruns : Prog.Runs sem m.fresh (execute urlsplit d) r m') :
    ((∃ error, r = .error error) →
      Untouched m m' ∨ (Recorded d m' ∧ LaterRefused urlsplit m') ∨ Complete m m') ∧
    MigrationOrdered m'.issued ∧
    (r = .ok () → m'.phase = "success".toList → Complete m m') := by
  have hends := Prog.wp_iff.1 (execute_wp urlsplit d m) r m' hruns
  cases r with
  | ok u =>
    obtain ⟨hordered, hcomplete⟩ := hends
    refine ⟨fun herror => ?_, hordered, fun _ => hcomplete⟩
    exact nomatch herror
  | error e =>
    obtain ⟨hordered, hcases⟩ := hends
    refine ⟨fun _ => ?_, hordered, fun hok => nomatch hok⟩
    rcases hcases with huntouched | hrecorded | hcomplete
    · exact .inl huntouched
    · exact .inr (.inl ⟨hrecorded, hrecorded.laterRefused urlsplit⟩)
    · exact .inr (.inr hcomplete)

end

/-! A deployment whose migration fails. -/

/-- A commit. -/
def sampleSha : Text := List.replicate 40 'a'

/-- An image ID of one digit. -/
def sampleImage (c : Char) : Text := "sha256:".toList ++ List.replicate 64 c

/-- A record of five images of the commit. -/
def sampleRecord : BuildRecord where
  sourceCommit := sampleSha
  worktreeDirty := false
  imageIds := services.zip (['b', 'c', 'd', 'e', 'f'].map sampleImage)
  runtimeTar := List.replicate 64 '0'
  productVersion := ['5']

/-- The ID of a container is the name of its service. -/
def sampleHost : Machine where
  incoming := sampleRecord
  failed := none
  current := none
  candidate := none
  override := none
  containers := ⟨id, id⟩
  phase := []
  stopped := false
  command := []
  issued := []

/-- A deployment of the commit. -/
def sampleDeployment : Deployment where
  repository := "/srv/soj".toList
  incoming := "/srv/soj/.soj-deploy/incoming".toList
  sha := sampleSha

/-- The Compose configuration, with the volume of the database. -/
def sampleConfig : ComposeConfig where
  name := "soj".toList
  dbDataName := "soj_db_data".toList
  dbVolumes := [("volume".toList, "db_data".toList, dataDirectory)]
  serverUrl := "https://soj.example".toList

/-- Every URL is `https://soj.example`. -/
def sampleSplit : Text → Except Exc SplitResult := fun _ =>
  .ok ⟨"https".toList, "soj.example".toList, [], [], [], [], []⟩

/-- A running container with the data of the database. -/
def sampleContainer (image : Text) : ContainerInfo :=
  ⟨true, [⟨"volume".toList, "soj_db_data".toList, dataDirectory⟩], image⟩

/-- The migration fails half way. -/
def sampleCompose (containers : Containers) : (arguments : Compose) → Answer arguments.Output
  | .config => .ok sampleConfig
  | .ps service => .ok (containers.idOf service)
  | .stop => .ok ()
  | .upDatabase => .ok ()
  | .isReady => .ok ()
  | .migrate => .raised .subprocessError .part
  | .up => .ok ()

/-- Every other command succeeds. -/
def sampleCommand (containers : Containers) : (c : Command) → Answer c.Output
  | .dockerInfo => .ok ⟨["name=rootless".toList], ['2']⟩
  | .gitStatus => .ok []
  | .gitHead => .ok sampleSha
  | .gitFetch => .ok ()
  | .gitFetchHead => .ok sampleSha
  | .gitIsAncestor _ _ => .ok ()
  | .gitMerge _ => .ok ()
  | .dockerInspect id => .ok (sampleContainer (containers.imageOf id))
  | .dockerLoad _ => .ok ()
  | .imageInspect image =>
    .ok ⟨image, "linux".toList, [], some ['5'], ["PG_MAJOR=17".toList, "PGDATA=/data".toList]⟩
  | .compose _ arguments => sampleCompose containers arguments

/-- Every action of the host succeeds, but for the commands above. -/
def sampleAnswer (m : Machine) : (a : Action) → Answer a.Result
  | .run c => sampleCommand m.containers c
  | .compose arguments => sampleCompose m.containers arguments
  | .failedExists => .ok m.failed.isSome
  | .getuid => .ok 1000
  | .dockerHost => .ok none
  | .overrideExists => .ok m.override.isSome
  | .overrideIsSymlink => .ok false
  | .overrideIsManaged => .ok true
  | .readBuildRecord => .ok m.incoming
  | .digestArchive => .ok m.incoming.runtimeTar
  | .request _ => .ok ⟨3, "completed".toList, some 0, "smoke-ok".toList, "saved".toList, some 1⟩
  | .statBasis => .ok ⟨true, false, 1000, 0o700⟩
  | .isStopped => .ok m.stopped
  | .print _ | .setPhase _ | .setStopped _ | .setCommand _ | .setCommandLast _ | .setenv _ _
  | .writeCandidate _ | .writeFailed _ | .replaceOverride | .writeCurrent _ | .unlinkFailed
  | .sleep _ | .mkdirBasis | .replaceArchive | .unlinkArchive | .recordFailed _
  | .stopAfterFailure => .ok ()

/-- The execution in which the migration fails. -/
def sampleRun : Machine × M Unit :=
  Prog.run sem (fun a m => ⟨sampleAnswer m a, m.containers⟩) 100
    (sampleHost.fresh, execute sampleSplit sampleDeployment)

theorem runs_sampleRun : Prog.Runs sem sampleHost.fresh (execute sampleSplit sampleDeployment)
    (.error .subprocessError) sampleRun.1 :=
  Prog.runs_of_result _ 100 (by decide +kernel)

theorem deployment_fail_stop_migration :
    Recorded sampleDeployment sampleRun.1 ∧ LaterRefused sampleSplit sampleRun.1 := by
  have hfailed : sampleRun.1.failed.isNone = false := by decide +kernel
  obtain huntouched | hrecorded | hcomplete :=
    (deployment_fail_stop sampleSplit sampleDeployment runs_sampleRun).1 ⟨.subprocessError, rfl⟩
  · rw [huntouched.failed] at hfailed
    cases hfailed
  · exact hrecorded
  · rw [hcomplete.failed] at hfailed
    cases hfailed

end ProductionDeployment
