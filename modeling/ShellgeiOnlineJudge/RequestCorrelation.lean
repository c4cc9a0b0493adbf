/-
The correlation and the security headers of a submission response
(soj_backend/request_correlation.py and main.py).

Two middlewares decide on their own whether a request is a submission:
`RequestCorrelationMiddleware` by the path of the scope, and
`add_submission_security_headers`, outside of it, by the path of the URL that
the framework makes of the scope.  The router matches a pattern whose `$` also
matches before a trailing newline, so it knows paths that the first does not.

* `handle_of_endpoint` — what a response carries when both middlewares agree;
* `correlated_iff` — every response of a request is correlated and uncacheable
  exactly when both know its path.
-/
import ShellgeiOnlineJudge.RunnerHttpSecurity
import ShellgeiOnlineJudge.StructuredLogging

namespace RequestCorrelation

open RunnerHttpSecurity (Bytes Scope ascii lower)
open RunnerProtocol StructuredLogging

/-- The headers of a message, by their names. -/
abbrev Headers := List (Bytes × Bytes)

/-- The values that a name has, whatever its case. -/
def headerValues (headers : Headers) (name : Bytes) : List Bytes :=
  (headers.filter fun header => lower header.1 = lower name).map Prod.snd

/-- What the framework does with a request and a response: `request.url.path`,
and `response.headers[name] = value`, which removes duplicates of the name. -/
structure Framework where
  urlPath : Scope → String
  setHeader : Headers → Bytes → Bytes → Headers
  headerValues_setHeader : ∀ headers name value other,
    headerValues (setHeader headers name value) other =
      if lower other = lower name then [value] else headerValues headers other

/-- The messages with which an application responds. -/
inductive SendMessage
  | start (status : ℕ) (headers : Headers)
  | body (body : Bytes) (moreBody : Bool)
  deriving DecidableEq

/-! ### The router -/

/-- The paths whose responses carry a request ID. -/
def submissionPaths : List String := ["/api/shellgei", "/api/v3/submissions"]

/-- `re.match('^' + pattern + '$', path)` -/
def matchesRoute (pattern path : String) : Bool := path = pattern || path = pattern ++ "\n"

/-- The path is dispatched to `post_shellgei` or to `post_submission_v3`. -/
def Dispatched (path : String) : Prop := ∃ pattern ∈ submissionPaths, matchesRoute pattern path

/-- A response of the application behind the two middlewares. -/
structure AppResponse where
  status : ℕ
  headers : Headers
  body : Bytes
  status_valid : 100 ≤ status ∧ status ≤ 599

/-- The messages that a response is sent with. -/
def AppResponse.messages (response : AppResponse) : List SendMessage :=
  [.start response.status response.headers, .body response.body false]

/-! ### `RequestCorrelationMiddleware` -/

/-- `REQUEST_ID_RESPONSE_HEADER` -/
def requestIdResponseHeader : Bytes := ascii "x-request-id"

/-- `PUBLIC_SUBMISSION_ENDPOINTS.get` -/
def publicSubmissionEndpoint (path : String) : Option LogEndpoint :=
  if path = "/api/shellgei" then some .legacySubmission
  else if path = "/api/v3/submissions" then some .v3Submission
  else none

/-- `_duration_ms` -/
def durationMs (startedNs finishedNs : ℤ) : ℤ := max 0 ((finishedNs - startedNs) / 1_000_000)

/-- `request_id.encode("ascii")` -/
def encodeAscii (requestId : RequestId) : Bytes := requestId.text.map fun c => c.toNat.toUInt8

/-- `send_with_request_id` -/
def sendWithRequestId (requestId : RequestId) : SendMessage → SendMessage
  | .start status headers =>
    .start status (headers.filter (fun header => lower header.1 ≠ requestIdResponseHeader) ++
      [(requestIdResponseHeader, encodeAscii requestId)])
  | message => message

/-- `http_status` after a message. -/
def nextStatus (httpStatus : ℕ) : SendMessage → ℕ
  | .start status _ => status
  | .body _ _ => httpStatus

/-- What becomes of a request: the ID that is bound while it is handled, the
response, and the completion event if `log_safe_event` is called. -/
structure Handled where
  bound : Option RequestId
  sent : List SendMessage
  completed : Option (Except (List String) SafeLogEvent)

/-- The generated ID and the two readings of the clock. -/
structure Environment where
  requestId : RequestId
  startedNs : ℤ
  finishedNs : ℤ

/-- `RequestCorrelationMiddleware.__call__`, in front of an application that may
read the ID that is bound. -/
def correlate (environment : Environment) (app : Option RequestId → AppResponse) (scope : Scope) :
    Handled :=
  match publicSubmissionEndpoint scope.path with
  | none => ⟨none, (app none).messages, none⟩
  | some endpoint =>
    if scope.type ≠ .http then ⟨none, (app none).messages, none⟩
    else
      let requestId := environment.requestId
      let sent := (app (some requestId)).messages
      { bound := some requestId
        sent := sent.map (sendWithRequestId requestId)
        completed := some (SafeLogEvent.build
          { event := .httpRequestCompleted
            component := .backendHttp
            requestId := some requestId.text
            endpoint := some endpoint
            httpStatus := some (sent.foldl nextStatus 500 : ℕ)
            durationMs := some (durationMs environment.startedNs environment.finishedNs) }) }

/-! ### `add_submission_security_headers` -/

/-- `SUBMISSION_RESPONSE_HEADERS` -/
def submissionResponseHeaders : Headers :=
  [(ascii "Cache-Control", ascii "no-store"), (ascii "X-Content-Type-Options", ascii "nosniff")]

/-- The headers that the middleware sets when the response starts. -/
def setHeaders (framework : Framework) : SendMessage → SendMessage
  | .start status headers =>
    .start status (submissionResponseHeaders.foldl
      (fun headers header => framework.setHeader headers header.1 header.2) headers)
  | message => message

/-- The application with both middlewares; the second one is the outer one. -/
def handle (framework : Framework) (environment : Environment)
    (app : Option RequestId → AppResponse) (scope : Scope) : Handled :=
  let handled := correlate environment app scope
  if framework.urlPath scope ∈ submissionPaths then
    { handled with sent := handled.sent.map (setHeaders framework) }
  else handled

/-! ### Correlation -/

/-- The response carries the generated ID, which was bound while it was made and
is the ID of the completion event, and must not be stored or sniffed. -/
structure Correlated (requestId : RequestId) (handled : Handled) : Prop where
  bound : handled.bound = some requestId
  completed : ∃ event, handled.completed = some (.ok event) ∧
    event.requestId = some requestId.text
  headers : ∃ status headers body, handled.sent = [.start status headers, .body body false] ∧
    headerValues headers requestIdResponseHeader = [encodeAscii requestId] ∧
    headerValues headers (ascii "Cache-Control") = [ascii "no-store"] ∧
    headerValues headers (ascii "X-Content-Type-Options") = [ascii "nosniff"]

theorem submissionPaths_iff {path : String} :
    path ∈ submissionPaths ↔ publicSubmissionEndpoint path ≠ none := by
  rw [submissionPaths, publicSubmissionEndpoint, List.mem_cons, List.mem_singleton]
  by_cases hlegacy : path = "/api/shellgei"
  · rw [if_pos hlegacy]
    exact iff_of_true (Or.inl hlegacy) (by simp)
  · rw [if_neg hlegacy]
    by_cases hv3 : path = "/api/v3/submissions"
    · rw [if_pos hv3]
      exact iff_of_true (Or.inr hv3) (by simp)
    · rw [if_neg hv3]
      exact iff_of_false (not_or.mpr ⟨hlegacy, hv3⟩) (not_not.mpr rfl)

theorem headerValues_append (headers headers' : Headers) (name : Bytes) :
    headerValues (headers ++ headers') name =
      headerValues headers name ++ headerValues headers' name := by
  rw [headerValues, List.filter_append, List.map_append]
  rfl

theorem lower_requestIdResponseHeader : lower requestIdResponseHeader = requestIdResponseHeader := by
  decide +kernel

/-- A name whose entries are replaced by one has its value, and the other names
keep theirs. -/
theorem headerValues_replace (headers : Headers) {name name' : Bytes} (value other : Bytes)
    (hname : lower name' = lower name) :
    headerValues (headers.filter (fun header => lower header.1 ≠ lower name) ++ [(name', value)])
      other = if lower other = lower name then [value] else headerValues headers other := by
  rw [headerValues_append, headerValues, List.filter_filter]
  by_cases hother : lower other = lower name
  · have hdropped : headers.filter (fun header =>
        decide (lower header.1 = lower other) && decide (lower header.1 ≠ lower name)) = [] := by
      rw [hother]
      simp
    rw [if_pos hother, hdropped, List.map_nil, List.nil_append]
    simp [headerValues, hname, hother]
  · have hkept : headers.filter (fun header =>
        decide (lower header.1 = lower other) && decide (lower header.1 ≠ lower name)) =
        headers.filter fun header => lower header.1 = lower other := by
      refine List.filter_congr fun header _ => ?_
      by_cases heq : lower header.1 = lower other
      · simp [heq, hother]
      · simp [heq]
    have hnew : headerValues [(name', value)] other = [] := by
      have hne : ¬ lower name = lower other := fun h => hother h.symm
      simp [headerValues, hname, hne]
    rw [if_neg hother, hkept, hnew, List.append_nil]
    rfl

/-- What the inner middleware makes of the headers. -/
theorem headerValues_sendWithRequestId (headers : Headers) (requestId : RequestId)
    (other : Bytes) :
    headerValues (headers.filter (fun header => lower header.1 ≠ requestIdResponseHeader) ++
      [(requestIdResponseHeader, encodeAscii requestId)]) other =
      if lower other = lower requestIdResponseHeader then [encodeAscii requestId]
      else headerValues headers other := by
  have hreplace := headerValues_replace headers (encodeAscii requestId) other
    (Eq.refl (lower requestIdResponseHeader))
  rwa [lower_requestIdResponseHeader] at hreplace ⊢

/-- The names that the outer middleware sets are not the one of the ID. -/
theorem header_names_ne :
    lower requestIdResponseHeader ≠ lower (ascii "Cache-Control") ∧
    lower requestIdResponseHeader ≠ lower (ascii "X-Content-Type-Options") ∧
    lower (ascii "Cache-Control") ≠ lower (ascii "X-Content-Type-Options") := by
  decide +kernel

/-- What the outer middleware leaves of the headers. -/
theorem headerValues_setHeaders (framework : Framework) (headers : Headers) :
    let set := submissionResponseHeaders.foldl
      (fun headers header => framework.setHeader headers header.1 header.2) headers
    headerValues set requestIdResponseHeader = headerValues headers requestIdResponseHeader ∧
      headerValues set (ascii "Cache-Control") = [ascii "no-store"] ∧
      headerValues set (ascii "X-Content-Type-Options") = [ascii "nosniff"] := by
  obtain ⟨hcache, hsniff, hne⟩ := header_names_ne
  simp only [submissionResponseHeaders, List.foldl_cons, List.foldl_nil,
    framework.headerValues_setHeader, if_neg hcache, if_neg hsniff, if_neg hne, if_true,
    and_self]

/-- The completion event of a status that HTTP has is accepted. -/
theorem completed_ok (environment : Environment) (endpoint : LogEndpoint) {status : ℕ}
    (hstatus : 100 ≤ status ∧ status ≤ 599) :
    ∃ event, SafeLogEvent.build
      { event := .httpRequestCompleted
        component := .backendHttp
        requestId := some environment.requestId.text
        endpoint := some endpoint
        httpStatus := some (status : ℤ)
        durationMs := some (durationMs environment.startedNs environment.finishedNs) } =
        .ok event ∧ event.requestId = some environment.requestId.text := by
  have hid : environment.requestId.text.length = requestIdLength ∧
      environment.requestId.text.all isLowerHex = true :=
    ⟨environment.requestId.length_eq, List.all_eq_true.mpr environment.requestId.hex⟩
  have hduration : 0 ≤ durationMs environment.startedNs environment.finishedNs :=
    Int.le_max_left _ _
  have hcode : (100 : ℤ) ≤ status ∧ (status : ℤ) ≤ 599 := by omega
  rw [SafeLogEvent.build, dif_pos]
  · exact ⟨_, rfl, rfl⟩
  · simp only [LogFields.refused, Option.mem_def, Option.some.injEq, forall_eq', hid, hduration,
      hcode, and_self, if_true, List.append_nil]

/-- A submission that both middlewares know is correlated, whatever its headers
and the response of the application. -/
theorem handle_of_endpoint (framework : Framework) (environment : Environment)
    (app : Option RequestId → AppResponse) {scope : Scope} (htype : scope.type = .http)
    (hpath : scope.path ∈ submissionPaths) (hurl : framework.urlPath scope ∈ submissionPaths) :
    Correlated environment.requestId (handle framework environment app scope) := by
  obtain ⟨endpoint, hendpoint⟩ := Option.ne_none_iff_exists'.mp (submissionPaths_iff.mp hpath)
  have hhttp : ¬ scope.type ≠ .http := not_not.mpr htype
  rw [handle, if_pos hurl, correlate, hendpoint]
  simp only [if_neg hhttp]
  obtain ⟨event, hevent, hid⟩ :=
    completed_ok environment endpoint (app (some environment.requestId)).status_valid
  exact {
    bound := rfl
    completed := ⟨event, congrArg some hevent, hid⟩
    headers := by
      obtain ⟨hvalues, hcache, hsniff⟩ := headerValues_setHeaders framework
        ((app (some environment.requestId)).headers.filter
          (fun header => lower header.1 ≠ requestIdResponseHeader) ++
          [(requestIdResponseHeader, encodeAscii environment.requestId)])
      refine ⟨_, _, _, rfl, ?_, hcache, hsniff⟩
      rw [hvalues, headerValues_sendWithRequestId, if_pos rfl] }

/-- The correlation leaves the other headers of a response as they are. -/
theorem correlate_sent (environment : Environment) (response : AppResponse) (scope : Scope) :
    ∃ headers, (correlate environment (fun _ => response) scope).sent =
        [.start response.status headers, .body response.body false] ∧
      ∀ name, lower name ≠ lower requestIdResponseHeader →
        headerValues headers name = headerValues response.headers name := by
  rw [correlate]
  cases publicSubmissionEndpoint scope.path with
  | none => exact ⟨response.headers, rfl, fun _ _ => rfl⟩
  | some endpoint =>
    by_cases hhttp : scope.type ≠ .http
    · simp only [if_pos hhttp]
      exact ⟨response.headers, rfl, fun _ _ => rfl⟩
    · simp only [if_neg hhttp]
      refine ⟨_, rfl, ?_⟩
      intro name hname
      rw [headerValues_sendWithRequestId, if_neg hname]

/-- The response to a request that fails the validation. -/
def unprocessable : AppResponse where
  status := 422
  headers := [(ascii "content-length", ascii "2"), (ascii "content-type", ascii "application/json")]
  body := ascii "[]"
  status_valid := by omega

theorem unprocessable_cache : headerValues unprocessable.headers (ascii "Cache-Control") = [] := by
  decide +kernel

/-- **Every response is correlated and uncacheable** exactly when both
middlewares know the path of the request. -/
theorem correlated_iff (framework : Framework) (environment : Environment) (scope : Scope)
    (htype : scope.type = .http) :
    (∀ app, Correlated environment.requestId (handle framework environment app scope)) ↔
      scope.path ∈ submissionPaths ∧ framework.urlPath scope ∈ submissionPaths := by
  constructor
  · intro h
    have hinvalid := h fun _ => unprocessable
    constructor
    · -- without an endpoint no ID is generated
      rw [submissionPaths_iff]
      intro hnone
      have hbound := hinvalid.bound
      rw [handle, correlate, hnone] at hbound
      split at hbound
      · cases hbound
      · cases hbound
    · -- without the outer middleware nothing keeps the response out of a cache
      by_contra hurl
      obtain ⟨status, headers, body, hsent, -, hcache, -⟩ := hinvalid.headers
      obtain ⟨headers', hsent', hother⟩ := correlate_sent environment unprocessable scope
      rw [handle, if_neg hurl, hsent'] at hsent
      obtain ⟨hstart, -⟩ := List.cons.inj hsent
      obtain ⟨-, rfl⟩ := SendMessage.start.inj hstart
      rw [hother _ header_names_ne.1.symm, unprocessable_cache] at hcache
      cases hcache
  · rintro ⟨hpath, hurl⟩ app
    exact handle_of_endpoint framework environment app htype hpath hurl

/-! ### A path with a newline -/

theorem lower_lower (name : Bytes) : lower (lower name) = lower name := by
  induction name with
  | nil => rfl
  | cons b rest ih =>
    -- an upper case letter moves out of their range, and the rest stays
    have hbyte : lower (lower [b]) = lower [b] := by
      simp only [lower, List.map_cons, List.map_nil]
      by_cases hupper : 65 ≤ b ∧ b ≤ 90
      · have hlower : ¬ (65 ≤ b + 32 ∧ b + 32 ≤ 90) := by grind
        rw [if_pos hupper, if_neg hlower]
      · rw [if_neg hupper, if_neg hupper]
    exact congrArg₂ List.cons (List.cons.inj hbyte).1 ih

/-- The framework on the requests below: the URL of a path has no newline, and a
header that is set comes last. -/
def exampleFramework : Framework where
  urlPath := fun scope => String.ofList (scope.path.toList.filter fun c => c ≠ '\n')
  setHeader := fun headers name value =>
    headers.filter (fun header => lower header.1 ≠ lower name) ++ [(lower name, value)]
  headerValues_setHeader := by
    intro headers name value other
    exact headerValues_replace headers value other (lower_lower name)

/-- A request that takes five milliseconds. -/
def exampleEnvironment : Environment where
  requestId := ⟨List.replicate 32 'a', by decide, fun _ hc => List.eq_of_mem_replicate hc ▸ rfl⟩
  startedNs := 0
  finishedNs := 5_000_000

/-- `POST /api/shellgei` of a client that sends an ID of its own. -/
def legacyScope : Scope where
  type := .http
  path := "/api/shellgei"
  method := "POST"
  headers := [(ascii "host", ascii "localhost"), (ascii "X-Request-ID", ascii "client")]

theorem correlated_iff_legacy : Dispatched legacyScope.path ∧
    ∀ app, Correlated exampleEnvironment.requestId
      (handle exampleFramework exampleEnvironment app legacyScope) := by
  refine ⟨⟨"/api/shellgei", by decide, by decide +kernel⟩, ?_⟩
  exact (correlated_iff exampleFramework exampleEnvironment legacyScope rfl).mpr
    (by decide +kernel)

/-- `POST /api/shellgei%0A` is dispatched to `post_shellgei`, with a response
that has no ID. -/
theorem newline_not_correlated :
    Dispatched "/api/shellgei\n" ∧
      ¬ ∀ app, Correlated exampleEnvironment.requestId
        (handle exampleFramework exampleEnvironment app
          { legacyScope with path := "/api/shellgei\n" }) := by
  refine ⟨⟨"/api/shellgei", by decide, by decide +kernel⟩, ?_⟩
  intro h
  have hbound := (h fun _ => unprocessable).bound
  have hnone : publicSubmissionEndpoint "/api/shellgei\n" = none := by decide +kernel
  rw [handle, correlate, hnone] at hbound
  split at hbound
  · cases hbound
  · cases hbound

end RequestCorrelation
