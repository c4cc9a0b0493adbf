/-
The request security of the runner (soj_runner/runner_http_security.py).

`Middleware.call` is `RunnerRequestSecurityMiddleware.__call__` in front of an
`Application`, whose router hands a POST to the execute handler when its path
matches `^/internal/execute$`.  In Python `$` also matches before a trailing
newline, so the router knows one path that the middleware does not:

* `readBoundedBody_le` — the body that passes the middleware is within the limit;
* `protected_iff` — the execute endpoint is protected but for that path.
-/
import Mathlib.Data.Int.Notation
import Mathlib.Data.Nat.Notation
import Mathlib.Logic.Basic
import Mathlib.Tactic.ByContra

namespace RunnerHttpSecurity

/-- A byte string. -/
abbrev Bytes := List UInt8

/-- The bytes of an ASCII text. -/
def ascii (s : String) : Bytes := s.toList.map fun c => c.toNat.toUInt8

/-- `RUNNER_EXECUTE_PATH` -/
def runnerExecutePath : String := "/internal/execute"

/-- `RUNNER_REQUEST_BODY_LIMIT_BYTES` -/
def runnerRequestBodyLimitBytes : ℕ := 8 * 1024

/-- `RUNNER_INSECURE_EXAMPLE_SECRET` -/
def runnerInsecureExampleSecret : String := "replace-with-at-least-32-random-characters"

/-- The types of a connection. -/
inductive ScopeType
  | http
  | websocket
  | lifespan
  deriving DecidableEq

/-- The parts of an ASGI scope that decide about a request. -/
structure Scope where
  type : ScopeType
  /-- the percent-decoded path -/
  path : String
  method : String
  headers : List (Bytes × Bytes)

/-- The ASGI messages that a client's `receive` yields. -/
inductive Message
  | request (body : Bytes) (moreBody : Bool)
  | disconnect
  deriving DecidableEq

/-! ### Headers -/

/-- `bytes.lower` -/
def lower (name : Bytes) : Bytes := name.map fun b => if 65 ≤ b ∧ b ≤ 90 then b + 32 else b

/-- The values of a header, whatever the case of its name. -/
def headerValues (scope : Scope) (name : Bytes) : List Bytes :=
  (scope.headers.filter fun header => lower header.1 = name).map Prod.snd

/-- `_single_header` -/
def singleHeader (scope : Scope) (name : Bytes) : Option Bytes :=
  match headerValues scope name with
  | [value] => some value
  | _ => none

/-- `RUNNER_SHARED_SECRET_PATTERN.fullmatch` -/
def matchesSharedSecretPattern (secret : String) : Bool :=
  32 ≤ secret.length && secret.length ≤ 256 &&
    secret.toList.all fun c =>
      ('A' ≤ c && c ≤ 'Z') || ('a' ≤ c && c ≤ 'z') || ('0' ≤ c && c ≤ '9') || c = '_' || c = '-'

/-- `get_runner_shared_secret` of the value in the environment; `none` when it
raises `RunnerConfigurationError`. -/
def getRunnerSharedSecret (environment : String) : Option String :=
  if matchesSharedSecretPattern environment && environment != runnerInsecureExampleSecret then
    some environment
  else none

/-- `_authenticated`; `none` when the secret is misconfigured. -/
def authenticated (environment : String) (scope : Scope) : Option Bool :=
  match singleHeader scope (ascii "authorization") with
  | none => some false
  | some authorization => do
    let secret ← getRunnerSharedSecret environment
    some (authorization = ascii "Bearer " ++ ascii secret)

/-- `Py_ISSPACE` -/
def isSpace (b : UInt8) : Bool := b = 32 || (9 ≤ b && b ≤ 13)

/-- `[0-9]` -/
def isDigit (b : UInt8) : Bool := 48 ≤ b && b ≤ 57

/-- `int(value)` of a bytes object: surrounding blanks, a sign and single
underscores between digits are accepted, more than 4300 digits are not. -/
def pythonInt (value : Bytes) : Option ℤ :=
  let signed := value.dropWhile isSpace
  let (negative, unsigned) := match signed with
    | 43 :: rest => (false, rest)
    | 45 :: rest => (true, rest)
    | rest => (false, rest)
  let literal := unsigned.takeWhile fun b => isDigit b || b = 95
  let rest := unsigned.dropWhile fun b => isDigit b || b = 95
  let groups := literal.splitOn 95
  let digits := groups.flatten
  if groups.all (· ≠ []) && rest.all isSpace && digits.length ≤ 4300 then
    let magnitude : ℕ := digits.foldl (fun n b => 10 * n + (b.toNat - 48)) 0
    some (if negative then -(magnitude : ℤ) else magnitude)
  else none

/-- `_declared_content_length`; `.error` when it raises `ValueError`. -/
def declaredContentLength (scope : Scope) : Except Unit (Option ℤ) :=
  match singleHeader scope (ascii "content-length") with
  | none =>
    if scope.headers.any fun header => lower header.1 = ascii "content-length" then .error ()
    else .ok none
  | some value =>
    match pythonInt value with
    | none => .error ()
    | some length => if length < 0 then .error () else .ok (some length)

/-! ### Bodies -/

/-- How `_read_bounded_body` ends on the messages that have arrived. -/
inductive BoundedRead
  /-- it still waits for a message -/
  | waiting
  | tooLarge
  /-- the body, the message that cut it off, and the messages not read -/
  | body (body : Bytes) (terminal : Option Message) (rest : List Message)

/-- `_read_bounded_body`, with the body read so far. -/
def readBoundedBody (body : Bytes) : List Message → BoundedRead
  | [] => .waiting
  | .disconnect :: rest => .body body (some .disconnect) rest
  | .request chunk moreBody :: rest =>
    if (body ++ chunk).length > runnerRequestBodyLimitBytes then .tooLarge
    else if moreBody then readBoundedBody (body ++ chunk) rest
    else .body (body ++ chunk) none rest

/-- The messages that `_read_bounded_body` takes. -/
def boundedBodyMessages (body : Bytes) : List Message → List Message
  | [] => []
  | .disconnect :: _ => [.disconnect]
  | .request chunk moreBody :: rest =>
    .request chunk moreBody :: if (body ++ chunk).length > runnerRequestBodyLimitBytes then []
      else if moreBody then boundedBodyMessages (body ++ chunk) rest
      else []

/-- The body of a request as the framework reads it; `none` when the client has
disconnected before its end, or the rest of it has not arrived. -/
def requestBody (body : Bytes) : List Message → Option Bytes
  | [] => none
  | .disconnect :: _ => none
  | .request chunk moreBody :: rest =>
    if moreBody then requestBody (body ++ chunk) rest else some (body ++ chunk)

/-- The messages that the framework takes for it. -/
def requestBodyMessages : List Message → List Message
  | [] => []
  | .disconnect :: _ => [.disconnect]
  | .request chunk moreBody :: rest =>
    .request chunk moreBody :: if moreBody then requestBodyMessages rest else []

/-! ### The application -/

/-- `re.match('^/internal/execute$', path)` -/
def matchesExecuteRoute (path : String) : Bool :=
  path = runnerExecutePath || path = runnerExecutePath ++ "\n"

/-- The router hands the request to the execute handler. -/
def routed (scope : Scope) : Bool :=
  scope.type = .http && scope.method = "POST" && matchesExecuteRoute scope.path

/-- The framework's application behind the middleware.  It reads the body of a
request that is routed to the execute handler to its end, and only then decides,
by the headers and the body, whether the handler is invoked or 422 is answered. -/
structure Application where
  /-- the headers make the body JSON, and it is a valid execution request -/
  accepts : Scope → Bytes → Bool
  /-- the body with which the execute handler is invoked -/
  delivered : Scope → List Message → Option Bytes
  /-- the messages that the application takes from its `receive` -/
  consumed : Scope → List Message → List Message
  delivered_iff : ∀ scope messages body, delivered scope messages = some body ↔
    routed scope = true ∧ requestBody [] messages = some body ∧ accepts scope body = true
  consumed_eq : ∀ scope messages, routed scope = true →
    consumed scope messages = requestBodyMessages messages

/-! ### The middleware -/

/-- What becomes of a request. -/
structure Exchange where
  /-- the error response of the middleware -/
  error : Option (ℕ × String)
  /-- the messages that have been taken from the client -/
  consumed : List Message
  /-- the body with which the execute handler is invoked -/
  delivered : Option Bytes

/-- The messages that `replay_receive` yields: the buffered body, then the
message that cut it off, or what the client sends. -/
def replayed (body : Bytes) (terminal : Option Message) (rest : List Message) : List Message :=
  .request body false :: match terminal with
    | some message => [message]
    | none => rest

/-- Of the messages taken from `replay_receive`, those that come from the client:
the ones after the buffered body, unless the message that cut it off is kept. -/
def fromClient (terminal : Option Message) (taken : List Message) : List Message :=
  if terminal.isSome then [] else taken.drop 1

/-- The middleware with the environment and the application behind it. -/
structure Middleware where
  /-- `RUNNER_SHARED_SECRET` -/
  environment : String
  /-- `self.app` -/
  application : Application

/-- `await self.app(scope, receive, send)` -/
def Application.exchange (app : Application) (scope : Scope) (messages : List Message) :
    Exchange :=
  ⟨none, app.consumed scope messages, app.delivered scope messages⟩

/-- The middleware answers by itself. -/
def respond (status : ℕ) (detail : String) (consumed : List Message) : Exchange :=
  ⟨some (status, detail), consumed, none⟩

/-- `RunnerRequestSecurityMiddleware.__call__`; `none` when it raises
`RunnerConfigurationError`. -/
def Middleware.call (m : Middleware) (scope : Scope) (messages : List Message) :
    Option Exchange :=
  if scope.type ≠ .http ∨ scope.path ≠ runnerExecutePath then
    some (m.application.exchange scope messages)
  else do
    let ok ← authenticated m.environment scope
    if !ok then some (respond 401 "Unauthorized" [])
    else match declaredContentLength scope with
      | .error () => some (respond 400 "Invalid Content-Length" [])
      | .ok declaredLength =>
        if declaredLength.any (· > (runnerRequestBodyLimitBytes : ℤ)) then
          some (respond 413 "Request body too large" [])
        else
          let consumed := boundedBodyMessages [] messages
          match readBoundedBody [] messages with
          | .waiting => some ⟨none, consumed, none⟩
          | .tooLarge => some (respond 413 "Request body too large" consumed)
          | .body body terminal rest =>
            -- the application reads the replayed body before the client's messages
            let inner := m.application.exchange scope (replayed body terminal rest)
            some { inner with consumed := consumed ++ fromClient terminal inner.consumed }

/-! ### Protection of the execute endpoint -/

/-- The request carries exactly one Authorization header, with the secret. -/
def Authorized (environment : String) (scope : Scope) : Prop :=
  ∃ secret, getRunnerSharedSecret environment = some secret ∧
    headerValues scope (ascii "authorization") = [ascii "Bearer " ++ ascii secret]

/-- The execute handler is only invoked by authorized requests, with a body
within the limit, and no message is taken from a request that would be routed
to it but is not authorized. -/
def Protected (m : Middleware) (scope : Scope) (messages : List Message) : Prop :=
  ∀ exchange, m.call scope messages = some exchange →
    (∀ body, exchange.delivered = some body →
      Authorized m.environment scope ∧ body.length ≤ runnerRequestBodyLimitBytes) ∧
    (routed scope = true → ¬ Authorized m.environment scope →
      ∀ body moreBody, .request body moreBody ∉ exchange.consumed)

theorem readBoundedBody_le {body body' : Bytes} {messages rest : List Message}
    {terminal : Option Message} (h : readBoundedBody body messages = .body body' terminal rest)
    (hle : body.length ≤ runnerRequestBodyLimitBytes) :
    body'.length ≤ runnerRequestBodyLimitBytes := by
  induction messages generalizing body with
  | nil => cases h
  | cons message messages ih =>
    cases message with
    | disconnect =>
      cases h
      exact hle
    | request chunk moreBody =>
      rw [readBoundedBody] at h
      split at h
      · cases h
      · next hsmall =>
        split at h
        · exact ih h (by omega)
        · cases h
          omega

theorem requestBody_replayed (body : Bytes) (terminal : Option Message) (rest : List Message) :
    requestBody [] (replayed body terminal rest) = some body := rfl

theorem requestBody_whole (body : Bytes) : requestBody [] [.request body false] = some body := rfl

/-- A routed request is handled with the body that it has, if it is accepted. -/
theorem Application.delivered_of_routed (app : Application) {scope : Scope}
    {messages : List Message} {body : Bytes} (hrouted : routed scope = true)
    (hbody : requestBody [] messages = some body) (haccepts : app.accepts scope body = true) :
    (app.exchange scope messages).delivered = some body :=
  (app.delivered_iff scope messages body).mpr ⟨hrouted, hbody, haccepts⟩

theorem singleHeader_eq_some {scope : Scope} {name value : Bytes} :
    singleHeader scope name = some value ↔ headerValues scope name = [value] := by
  rw [singleHeader]
  split
  · next v hv => simp [hv]
  · next hne =>
    constructor
    · intro h
      cases h
    · intro h
      exact absurd h (hne value)

/-- `_authenticated` decides whether the request is authorized. -/
theorem authenticated_eq_some_true {environment : String} {scope : Scope} :
    authenticated environment scope = some true ↔ Authorized environment scope := by
  rw [authenticated, Authorized]
  cases hsingle : singleHeader scope (ascii "authorization") with
  | none =>
    constructor
    · intro h
      cases h
    · rintro ⟨secret, -, hvalues⟩
      rw [singleHeader_eq_some.mpr hvalues] at hsingle
      cases hsingle
  | some authorization =>
    rw [singleHeader_eq_some] at hsingle
    cases hsecret : getRunnerSharedSecret environment with
    | none => simp
    | some secret => simp [hsingle]

/-- The middleware protects the path that it knows. -/
theorem protected_of_path {m : Middleware} {scope : Scope} {messages : List Message}
    (htype : scope.type = .http) (hpath : scope.path = runnerExecutePath) :
    Protected m scope messages := by
  intro exchange hcall
  have hknown : ¬(scope.type ≠ .http ∨ scope.path ≠ runnerExecutePath) := by simp [htype, hpath]
  rw [Middleware.call, if_neg hknown] at hcall
  cases hok : authenticated m.environment scope with
  | none => simp [hok] at hcall
  | some ok =>
    simp only [hok, Option.bind_eq_bind, Option.bind_some] at hcall
    cases ok with
    | false =>
      -- the 401 is sent before anything is read
      rw [Bool.not_false, if_pos rfl] at hcall
      obtain rfl := Option.some.inj hcall
      refine ⟨fun body hbody => ?_, fun _ _ body moreBody hmem => ?_⟩
      · cases hbody
      · cases hmem
    | true =>
      have hauth := authenticated_eq_some_true.mp hok
      refine ⟨fun body hbody => ⟨hauth, ?_⟩, fun _ hnot => absurd hauth hnot⟩
      simp only [Bool.not_true, Bool.false_eq_true, if_false] at hcall
      split at hcall
      · obtain rfl := Option.some.inj hcall
        cases hbody
      split at hcall
      · obtain rfl := Option.some.inj hcall
        cases hbody
      split at hcall
      · obtain rfl := Option.some.inj hcall
        cases hbody
      · obtain rfl := Option.some.inj hcall
        cases hbody
      · next body' terminal rest hread =>
        obtain rfl := Option.some.inj hcall
        have hle := readBoundedBody_le hread (Nat.zero_le _)
        -- the application has read the body that is replayed to it
        obtain ⟨-, hreplayed, -⟩ := (m.application.delivered_iff _ _ _).mp hbody
        rw [requestBody_replayed] at hreplayed
        obtain rfl := Option.some.inj hreplayed
        exact hle

/-- The requests that slip past the middleware: a POST to the path that only the
router knows, without the header but with a first part of a body, or with the
header and a whole body above the limit that the application accepts. -/
def Bypass (m : Middleware) (scope : Scope) (messages : List Message) : Prop :=
  scope.type = .http ∧ scope.method = "POST" ∧ scope.path = runnerExecutePath ++ "\n" ∧
    ((¬ Authorized m.environment scope ∧
        ∃ chunk moreBody rest, messages = .request chunk moreBody :: rest) ∨
      (Authorized m.environment scope ∧
        ∃ body, requestBody [] messages = some body ∧
          m.application.accepts scope body = true ∧
          runnerRequestBodyLimitBytes < body.length))

theorem runnerExecutePath_ne : runnerExecutePath ≠ runnerExecutePath ++ "\n" := by decide

theorem routed_iff {scope : Scope} : routed scope = true ↔ scope.type = .http ∧
    scope.method = "POST" ∧
    (scope.path = runnerExecutePath ∨ scope.path = runnerExecutePath ++ "\n") := by
  simp [routed, matchesExecuteRoute, and_assoc]

/-- Nothing but a first part of a body makes the framework take one. -/
theorem request_mem_requestBodyMessages {messages : List Message} {body : Bytes} {moreBody : Bool}
    (h : .request body moreBody ∈ requestBodyMessages messages) :
    ∃ chunk more rest, messages = .request chunk more :: rest := by
  cases messages with
  | nil => cases h
  | cons message rest =>
    cases message with
    | disconnect => simp [requestBodyMessages] at h
    | request chunk more => exact ⟨chunk, more, rest, rfl⟩

theorem exists_request_of_requestBody {messages : List Message} {body : Bytes}
    (h : requestBody [] messages = some body) :
    ∃ chunk more rest, messages = .request chunk more :: rest := by
  cases messages with
  | nil => cases h
  | cons message rest =>
    cases message with
    | disconnect => cases h
    | request chunk more => exact ⟨chunk, more, rest, rfl⟩

/-- **The execute endpoint is protected** exactly when the request does not slip
past the middleware. -/
theorem protected_iff (m : Middleware) (scope : Scope) (messages : List Message) :
    Protected m scope messages ↔ ¬ Bypass m scope messages := by
  by_cases hknown : scope.type = .http ∧ scope.path = runnerExecutePath
  · have hnot : ¬ Bypass m scope messages := fun h =>
      runnerExecutePath_ne (hknown.2.symm.trans h.2.2.1)
    exact iff_of_true (protected_of_path hknown.1 hknown.2) hnot
  have hcall : m.call scope messages = some (m.application.exchange scope messages) := by
    rw [Middleware.call, if_pos (by simpa [or_iff_not_imp_left] using hknown)]
  by_cases hrouted : routed scope = true
  · -- the path is the one that only the router knows
    obtain ⟨htype, hmethod, hpath⟩ := routed_iff.mp hrouted
    have hpath : scope.path = runnerExecutePath ++ "\n" :=
      hpath.resolve_left fun h => hknown ⟨htype, h⟩
    have hdelivered : ∀ body,
        (m.application.exchange scope messages).delivered = some body ↔
          requestBody [] messages = some body ∧ m.application.accepts scope body = true := by
      intro body
      exact (m.application.delivered_iff scope messages body).trans (and_iff_right hrouted)
    have hconsumed : (m.application.exchange scope messages).consumed =
        requestBodyMessages messages :=
      m.application.consumed_eq scope messages hrouted
    constructor
    · rintro hprot ⟨-, -, -, hslip⟩
      obtain ⟨hbody, hread⟩ := hprot _ hcall
      -- a body is read without a secret, or one over the limit is delivered
      rcases hslip with ⟨hno, chunk, moreBody, rest, rfl⟩ | ⟨hyes, body, hrequest, hacc, hlarge⟩
      · refine hread hrouted hno chunk moreBody ?_
        rw [hconsumed, requestBodyMessages]
        exact List.mem_cons_self
      · have := (hbody body ((hdelivered body).mpr ⟨hrequest, hacc⟩)).2
        omega
    · intro hslip exchange hex
      obtain rfl := Option.some.inj (hcall.symm.trans hex)
      -- with the secret only the size counts, without it any body does
      by_cases hauth : Authorized m.environment scope
      · refine ⟨fun body hb => ⟨hauth, ?_⟩, fun _ hno => absurd hauth hno⟩
        obtain ⟨hrequest, hacc⟩ := (hdelivered body).mp hb
        by_contra hlarge
        exact hslip ⟨htype, hmethod, hpath, .inr ⟨hauth, body, hrequest, hacc, by omega⟩⟩
      · have hfirst : ¬ ∃ chunk moreBody rest, messages = .request chunk moreBody :: rest :=
          fun h => hslip ⟨htype, hmethod, hpath, .inl ⟨hauth, h⟩⟩
        refine ⟨fun body hb => ?_, fun _ _ body moreBody hmem => ?_⟩
        · exact absurd (exists_request_of_requestBody ((hdelivered body).mp hb).1) hfirst
        · rw [hconsumed] at hmem
          exact hfirst (request_mem_requestBodyMessages hmem)
  · -- the request does not reach the execute handler
    have hnot : ¬ Bypass m scope messages := fun h =>
      hrouted (routed_iff.mpr ⟨h.1, h.2.1, .inr h.2.2.1⟩)
    refine iff_of_true (fun exchange hex => ?_) hnot
    obtain rfl := Option.some.inj (hcall.symm.trans hex)
    refine ⟨fun body hb => ?_, fun h => absurd h hrouted⟩
    exact absurd ((m.application.delivered_iff scope messages body).mp hb).1 hrouted

/-- An execution request. -/
def exampleBody : Bytes :=
  ascii ("\x7b\"protocol_version\":4,\"request_id\":\"aaaaaaaaaaaaaaaaaaaaaaaaaaaaaaaa\"," ++
    "\"problem_revision\":" ++
    "\"0000000000000000000000000000000000000000000000000000000000000000\"," ++
    "\"shellgei\":\"id\",\"problem_id\":\"GENERAL-00000001\"\x7d")

/-- Without an `application/json` header the framework answers 422. -/
def exampleAccepts (scope : Scope) (body : Bytes) : Bool :=
  singleHeader scope (ascii "content-type") = some (ascii "application/json") &&
    body = exampleBody

theorem delivered_exampleApplication (scope : Scope) (messages : List Message) (body : Bytes) :
    (if routed scope then (requestBody [] messages).filter (exampleAccepts scope) else none) =
      some body ↔
        routed scope = true ∧ requestBody [] messages = some body ∧
          exampleAccepts scope body = true := by
  by_cases hrouted : routed scope = true
  · simp only [hrouted, if_true, true_and, Option.filter_eq_some_iff]
  · simp [hrouted]

theorem consumed_exampleApplication (scope : Scope) (messages : List Message)
    (hrouted : routed scope = true) :
    (if routed scope then requestBodyMessages messages else []) = requestBodyMessages messages :=
  if_pos hrouted

/-- An application that executes `exampleBody`. -/
def exampleApplication : Application where
  accepts := exampleAccepts
  delivered := fun scope messages =>
    if routed scope then (requestBody [] messages).filter (exampleAccepts scope) else none
  consumed := fun scope messages => if routed scope then requestBodyMessages messages else []
  delivered_iff := delivered_exampleApplication
  consumed_eq := consumed_exampleApplication

/-- A runner with a valid secret. -/
def exampleMiddleware : Middleware where
  environment := "aaaaaaaaaaaaaaaaaaaaaaaaaaaaaaaa"
  application := exampleApplication

/-- `Content-Type: application/json` -/
def jsonHeader : Bytes × Bytes := (ascii "content-type", ascii "application/json")

/-- `POST /internal/execute%0A` with JSON and without the secret. -/
def newlineScope : Scope := ⟨.http, "/internal/execute\n", "POST", [jsonHeader]⟩

theorem accepts_exampleBody {scope : Scope}
    (hjson : singleHeader scope (ascii "content-type") = some (ascii "application/json")) :
    exampleMiddleware.application.accepts scope exampleBody = true :=
  (Bool.and_eq_true _ _).mpr ⟨decide_eq_true hjson, decide_eq_true rfl⟩

/-- The handler runs the command of a request without a secret. -/
theorem bypass_newline :
    (exampleMiddleware.call newlineScope [.request exampleBody false]).map Exchange.delivered =
      some (some exampleBody) ∧
    ¬ Protected exampleMiddleware newlineScope [.request exampleBody false] := by
  have hdelivered : (exampleMiddleware.call newlineScope [.request exampleBody false]).map
      Exchange.delivered = some (some exampleBody) := by
    have hrouted : routed newlineScope = true := by decide +kernel
    have hjson : singleHeader newlineScope (ascii "content-type") =
        some (ascii "application/json") := by decide +kernel
    have hpath : newlineScope.type ≠ .http ∨ newlineScope.path ≠ runnerExecutePath :=
      Or.inr runnerExecutePath_ne.symm
    rw [Middleware.call, if_pos hpath, Option.map_some,
      exampleMiddleware.application.delivered_of_routed hrouted
        (requestBody_whole exampleBody) (accepts_exampleBody hjson)]
  refine ⟨hdelivered, fun hprot => ?_⟩
  obtain ⟨exchange, hcall, hbody⟩ := Option.map_eq_some_iff.mp hdelivered
  obtain ⟨⟨secret, -, hvalues⟩, -⟩ := (hprot exchange hcall).1 exampleBody hbody
  -- the request has no Authorization header
  have hnone : headerValues newlineScope (ascii "authorization") = [] := by decide +kernel
  rw [hnone] at hvalues
  cases hvalues

end RunnerHttpSecurity
