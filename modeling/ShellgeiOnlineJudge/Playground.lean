/-
The problem that the browser shows (frontend/src/tsx/playground.tsx).

The browser navigates at any time; what it has navigated to is rendered later, and the
effect of a render runs later still.  A request for a problem is answered at any time and
with any result, also after its signal has been aborted; the controllers are numbered in
the order of the requests.

* `playground_state_machine` — what is shown, which signals are aborted and which links
  are replaced, in every interleaving of navigations, renders, effects, answers and the
  unmounting.
-/
import ShellgeiOnlineJudge.FrontendCommand

namespace Playground

open FrontendCommand (JsString)

/-- The string of a literal. -/
def jsString (text : String) : JsString := Utf16.encode text.toList

/-- `DEFAULT_PROBLEM_ID` -/
def defaultProblemId : JsString := jsString "STANDARD-00000001"

/-- The name of the parameter. -/
def problemName : JsString := jsString "problem"

/-! ### The link -/

/-- `useLocation()`, what the page reads of it -/
structure Location where
  search : JsString
  /-- what `URLSearchParams` reads of `search` -/
  params : List (JsString × JsString)
  hash : JsString
  /-- `state?.problemLinkInvalid === true` -/
  problemLinkInvalid : Bool
  deriving DecidableEq

/-- `[A-Za-z0-9]` -/
def isAlphanumeric (u : UInt16) : Bool :=
  (0x30 ≤ u && u ≤ 0x39) || (0x41 ≤ u && u ≤ 0x5A) || (0x61 ≤ u && u ≤ 0x7A)

/-- `/^[A-Za-z0-9]+(?:-[A-Za-z0-9]+)*$/` -/
def isProblemId (text : JsString) : Bool :=
  (text.splitOn 0x2D).all fun part => !part.isEmpty && part.all isAlphanumeric

namespace Location

/-- `getAll("problem")` -/
def problemParams (l : Location) : List JsString :=
  (l.params.filter fun param => param.1 = problemName).map Prod.snd

/-- `requestedProblem` -/
def requestedProblem (l : Location) : JsString := l.problemParams.headD defaultProblemId

/-- `invalidProblem` -/
def invalidProblem (l : Location) : Bool :=
  decide (1 < l.problemParams.length) || decide (64 < l.requestedProblem.length) ||
    !isProblemId l.requestedProblem

/-- `selectedProblem` -/
def selectedProblem (l : Location) : JsString :=
  if l.invalidProblem then defaultProblemId else l.requestedProblem

/-- `linkError` -/
def linkError (l : Location) : Bool := l.invalidProblem || l.problemLinkInvalid

/-- What the effect depends on; `changeProblemUrl` depends on the query and on the hash. -/
def dependencies (l : Location) : JsString × Bool × JsString × JsString :=
  (l.selectedProblem, l.invalidProblem, l.search, l.hash)

/-- What a link asks for besides the problem -/
def others (l : Location) : List (JsString × JsString) :=
  l.params.filter fun param => param.1 ≠ problemName

end Location

/-- `URLSearchParams.prototype.set` -/
def setParam (name value : JsString) : List (JsString × JsString) → List (JsString × JsString)
  | [] => [(name, value)]
  | param :: params =>
    if param.1 = name then (name, value) :: params.filter fun param => param.1 ≠ name
    else param :: setParam name value params

/-! ### The state -/

/-- `ProblemDetail` -/
structure ProblemDetail where
  titleJa : JsString
  titleEn : JsString
  statementJa : JsString
  statementEn : JsString
  input : JsString
  expectedOutput : JsString
  image : JsString
  deriving DecidableEq

/-- What the page shows of a problem, in both languages. -/
structure ProblemDisplay where
  title : JsString × JsString
  statement : JsString × JsString
  input : JsString
  output : JsString
  image : JsString
  deriving DecidableEq

/-- `text || "NULL"` -/
def orNull (text : JsString) : JsString := if text.isEmpty then jsString "NULL" else text

/-- What `updateProblem` makes of the answer. -/
def ProblemDetail.display (sojUrl : JsString) (data : ProblemDetail) : ProblemDisplay where
  title := (data.titleJa, data.titleEn)
  statement := (data.statementJa, data.statementEn)
  input := orNull data.input
  output := orNull data.expectedOutput
  image := sojUrl ++ data.image

/-- What a request is rejected with -/
inductive Failure
  | apiClientError (status : Option ℕ)
  | other
  deriving DecidableEq

/-- A request is answered or rejected. -/
abbrev Result := Except Failure ProblemDetail

/-- A call of `updateProblem`, with the render whose effect made it. -/
structure Request where
  location : Location
  problemId : JsString
  version : ℕ
  aborted : Bool
  result : Option Result
  deriving DecidableEq

/-- The page: the last render, the last effect, and the requests so far. -/
structure State where
  /-- where the browser is -/
  location : Location
  rendered : Location
  /-- the render whose effect was the last to run -/
  ran : Option Location
  /-- the controller that the cleanup of that effect aborts -/
  cleanup : Option ℕ
  problemRequestVersion : ℕ
  problemRequestController : Option ℕ
  problem : Option ProblemDisplay
  problemError : Option String
  mounted : Bool
  requests : List Request
  deriving DecidableEq

/-- What the page asks of the router and of the API. -/
inductive Effect
  | push (target : Location)
  | replace (target : Location)
  /-- a problem is requested, under the signal of a controller -/
  | request (controller : ℕ) (problemId : JsString)
  deriving DecidableEq

/-- The message of a request that failed. -/
def problemMessage : String := "Error: Failed to get problem"

section Handlers

-- `write` is how a query is written
variable (write : List (JsString × JsString) → JsString) (sojUrl : JsString)

/-- Where `changeProblemUrl` of a render navigates to. -/
def Location.changeProblemUrl (l : Location) (id : JsString) (invalidLink : Bool) : Location where
  search := write (setParam problemName id l.params)
  params := setParam problemName id l.params
  hash := l.hash
  problemLinkInvalid := invalidLink

/-- The page after its first render. -/
def initial (l : Location) : State := ⟨l, l, none, none, 0, none, none, none, true, []⟩

/-- `controller.abort()` -/
def abort (controller : Option ℕ) (requests : List Request) : List Request :=
  match controller with
  | none => requests
  | some i => requests.modify i fun request => { request with aborted := true }

/-- The cleanup of the effect that was the last to run; one of an invalid link has none. -/
def runCleanup (s : State) : State :=
  if s.cleanup.isSome then
    { s with
      cleanup := none
      problemRequestVersion := s.problemRequestVersion + 1
      requests := abort s.cleanup s.requests }
  else s

/-- The effect of what is rendered. -/
def startRequest (s : State) : State × List Effect :=
  if s.rendered.invalidProblem then
    let target := s.rendered.changeProblemUrl write defaultProblemId true
    ({ s with location := target, ran := some s.rendered, cleanup := none }, [.replace target])
  else
    let request : Request :=
      ⟨s.rendered, s.rendered.selectedProblem, s.problemRequestVersion + 1, false, none⟩
    ({ s with
        ran := some s.rendered
        cleanup := some s.requests.length
        problemRequestVersion := s.problemRequestVersion + 1
        problemRequestController := some s.requests.length
        problem := none
        problemError := none
        requests := abort s.problemRequestController s.requests ++ [request] },
      [.request s.requests.length s.rendered.selectedProblem])

/-- React runs the effect after the cleanup of the one before. -/
def runEffect (s : State) : State × List Effect := startRequest write (runCleanup s)

/-- Whether an answer says that there is no such problem. -/
def isUnknown (problemId : JsString) (failure : Failure) : Bool :=
  failure = .apiClientError (some 404) && problemId ≠ defaultProblemId

/-- What follows an answer. -/
def settle (i : ℕ) (request : Request) (result : Result) (s : State) : State × List Effect :=
  let requests := s.requests.modify i fun request => { request with result := some result }
  match result with
  | .ok data =>
    if request.version = s.problemRequestVersion then
      ({ s with problem := some (data.display sojUrl), requests := requests }, [])
    else ({ s with requests := requests }, [])
  | .error failure =>
    if request.aborted || request.version ≠ s.problemRequestVersion then
      ({ s with requests := requests }, [])
    else if isUnknown request.problemId failure then
      let target := request.location.changeProblemUrl write defaultProblemId true
      ({ s with location := target, requests := requests }, [.replace target])
    else ({ s with problemError := some problemMessage, requests := requests }, [])

/-- React runs the cleanup and forgets the page. -/
def unmount (s : State) : State := { runCleanup s with mounted := false }

end Handlers

/-! ### Runs -/

/-- What the visitor, React and the API may do. -/
inductive Event
  /-- a problem of the list is chosen -/
  | select (id : JsString)
  /-- a link or the history -/
  | travel (target : Location)
  | render
  | effect
  | settle (controller : ℕ) (result : Result)
  | unmount
  deriving DecidableEq

section Runs

variable (write : List (JsString × JsString) → JsString) (sojUrl : JsString)

/-- An effect runs at any time, since in strict mode it runs twice; a request is answered
once. -/
inductive Step (s : State) : Event → List Effect → State → Prop
  | select (id : JsString) (h : s.mounted = true) :
      Step s (.select id) [.push (s.rendered.changeProblemUrl write id false)]
        { s with location := s.rendered.changeProblemUrl write id false }
  | travel (target : Location) : Step s (.travel target) [] { s with location := target }
  | render (h : s.mounted = true) : Step s .render [] { s with rendered := s.location }
  | effect (h : s.mounted = true) :
      Step s .effect (runEffect write s).2 (runEffect write s).1
  | settle (i : ℕ) (request : Request) (result : Result) (h : s.requests[i]? = some request)
      (hpending : request.result = none) :
      Step s (.settle i result) (settle write sojUrl i request result s).2
        (settle write sojUrl i request result s).1
  | unmount (h : s.mounted = true) : Step s .unmount [] (unmount s)

/-- What has happened, the latest first. -/
abbrev Trace := List (Event × List Effect)

/-- The states that some events lead to, with the events and their effects. -/
inductive Run : State → Trace → Prop
  | start (l : Location) : Run (initial l) []
  | step {s s' : State} {trace : Trace} {event : Event} {effects : List Effect}
      (h : Run s trace) (hstep : Step write sojUrl s event effects s') :
      Run s' ((event, effects) :: trace)

end Runs

/-! ### Links -/

theorem filter_eq_setParam (name value : JsString) (params : List (JsString × JsString)) :
    (setParam name value params).filter (fun param => param.1 = name) = [(name, value)] := by
  induction params with
  | nil => simp [setParam]
  | cons param params ih =>
    rw [setParam]
    split
    · simp [List.filter_filter]
    · next hne =>
      rw [List.filter_cons_of_neg (by simpa using hne)]
      exact ih

theorem filter_ne_setParam (name value : JsString) (params : List (JsString × JsString)) :
    (setParam name value params).filter (fun param => param.1 ≠ name) =
      params.filter fun param => param.1 ≠ name := by
  induction params with
  | nil => simp [setParam]
  | cons param params ih =>
    rw [setParam]
    split
    · next heq => simp [heq]
    · next hne =>
      rw [List.filter_cons_of_pos (by simpa using hne), List.filter_cons_of_pos (by simpa using hne),
        ih]

section Links

variable (write : List (JsString × JsString) → JsString) (l : Location)

theorem problemParams_changeProblemUrl (id : JsString) (invalidLink : Bool) :
    (l.changeProblemUrl write id invalidLink).problemParams = [id] := by
  have hfilter := filter_eq_setParam problemName id l.params
  rw [Location.problemParams]
  show List.map Prod.snd ((setParam problemName id l.params).filter _) = [id]
  rw [hfilter]
  rfl

theorem others_changeProblemUrl (id : JsString) (invalidLink : Bool) :
    (l.changeProblemUrl write id invalidLink).others = l.others :=
  filter_ne_setParam problemName id l.params

theorem invalidProblem_default :
    (l.changeProblemUrl write defaultProblemId true).invalidProblem = false := by
  have hvalid : (decide (1 < [defaultProblemId].length) ||
      decide (64 < ([defaultProblemId].headD defaultProblemId).length) ||
      !isProblemId ([defaultProblemId].headD defaultProblemId)) = false := by decide +kernel
  rw [Location.invalidProblem, Location.requestedProblem, problemParams_changeProblemUrl]
  exact hvalid

theorem selectedProblem_default :
    (l.changeProblemUrl write defaultProblemId true).selectedProblem = defaultProblemId := by
  rw [Location.selectedProblem, invalidProblem_default, if_neg (by decide),
    Location.requestedProblem, problemParams_changeProblemUrl]
  rfl

end Links

/-! ### The invariant -/

/-- What is shown for a request. -/
def Request.shown (sojUrl : JsString) (request : Request) :
    Option ProblemDisplay × Option String :=
  match request.result with
  | none => (none, none)
  | some (.ok data) => (some (data.display sojUrl), none)
  | some (.error failure) =>
    if isUnknown request.problemId failure then (none, none) else (none, some problemMessage)

section Invariant

variable (sojUrl : JsString)

/-- The request of the effect that was the last to run -/
structure Current (s : State) (i : ℕ) (request : Request) : Prop where
  mounted : s.mounted = true
  request_eq : s.requests[i]? = some request
  last : i + 1 = s.requests.length
  version : request.version = s.problemRequestVersion
  unaborted : request.aborted = false
  ran : s.ran = some request.location
  valid : request.location.invalidProblem = false
  problemId : request.problemId = request.location.selectedProblem
  shown : (s.problem, s.problemError) = request.shown sojUrl

/-- A request that has been given up -/
def Request.IsStale (request : Request) (version : ℕ) : Prop :=
  request.aborted = true ∧ request.version < version

/-- At most one request is current, and the others cannot change the page. -/
structure Invariant (s : State) : Prop where
  current : ∀ i, s.cleanup = some i → ∃ request, Current sojUrl s i request
  stale : ∀ i request, s.requests[i]? = some request → s.cleanup ≠ some i →
    request.IsStale s.problemRequestVersion
  idle : s.cleanup = none → s.mounted = true → ∀ l, s.ran = some l → l.invalidProblem = true

variable {sojUrl} {s : State}

theorem invariant_initial (l : Location) : Invariant sojUrl (initial l) :=
  ⟨(fun _ h => nomatch h), (fun _ _ h => nomatch h), (fun _ _ _ h => nomatch h)⟩

theorem mem_abort {controller : Option ℕ} {requests : List Request} {i : ℕ} {request : Request}
    (h : (abort controller requests)[i]? = some request) :
    ∃ old, requests[i]? = some old ∧ request.version = old.version ∧
      (old.aborted = true ∨ controller = some i → request.aborted = true) := by
  cases controller with
  | none => exact ⟨request, h, rfl, fun hor => hor.resolve_right fun hi => nomatch hi⟩
  | some j =>
    have h : (requests.modify j fun request => { request with aborted := true })[i]? =
      some request := h
    rw [List.getElem?_modify] at h
    obtain ⟨old, hold, heq⟩ := Option.map_eq_some_iff.1 h
    refine ⟨old, hold, ?_⟩
    by_cases hi : j = i
    · rw [if_pos hi] at heq
      subst heq
      exact ⟨rfl, fun _ => rfl⟩
    · rw [if_neg hi] at heq
      obtain rfl : old = request := heq
      exact ⟨rfl, fun hor => hor.resolve_right fun hj => hi (Option.some.inj hj)⟩

theorem length_abort (controller : Option ℕ) (requests : List Request) :
    (abort controller requests).length = requests.length := by
  cases controller with
  | none => rfl
  | some i => exact List.length_modify ..

/-- What the cleanup leaves. -/
structure Clean (s s' : State) : Prop where
  cleanup : s'.cleanup = none
  stale : ∀ (i : ℕ) (request : Request), s'.requests[i]? = some request →
    request.IsStale s'.problemRequestVersion
  rendered : s'.rendered = s.rendered
  mounted : s'.mounted = s.mounted

theorem Invariant.runCleanup (h : Invariant sojUrl s) : Clean s (runCleanup s) := by
  rw [Playground.runCleanup]
  cases hcleanup : s.cleanup with
  | none =>
    refine ⟨hcleanup, fun i request hi => h.stale i request hi ?_, rfl, rfl⟩
    rw [hcleanup]
    exact fun hi => nomatch hi
  | some j =>
    refine ⟨rfl, ?_, rfl, rfl⟩
    intro i request hi
    have hi : (abort (some j) s.requests)[i]? = some request := hi
    obtain ⟨old, hold, hversion, haborted⟩ := mem_abort hi
    obtain ⟨current, hcurrent⟩ := h.current j hcleanup
    show request.aborted = true ∧ request.version < s.problemRequestVersion + 1
    by_cases hij : j = i
    · subst hij
      obtain rfl := Option.some.inj (hold.symm.trans hcurrent.request_eq)
      have hcurrentVersion := hcurrent.version
      exact ⟨haborted (.inr rfl), by omega⟩
    · have hstale := h.stale i old hold (by
        rw [hcleanup]
        exact fun hi => hij (Option.some.inj hi))
      have hlt := hstale.2
      exact ⟨haborted (.inl hstale.1), by omega⟩

/-- After the cleanup, the effect starts a request for what is rendered. -/
theorem Clean.startRequest (write : List (JsString × JsString) → JsString) {s' : State}
    (h : Clean s s') (hmounted : s.mounted = true) :
    Invariant sojUrl (startRequest write s').1 := by
  rw [Playground.startRequest]
  cases hinvalid : s'.rendered.invalidProblem with
  | true =>
    refine ⟨(fun _ hi => nomatch hi), fun i request hi _ => h.stale i request hi, ?_⟩
    intro _ _ l hl
    obtain rfl := Option.some.inj hl
    exact hinvalid
  | false =>
    have hlength := length_abort s'.problemRequestController s'.requests
    -- the new request is the last one, and every older one is stale
    refine ⟨?_, ?_, fun hnone => nomatch hnone⟩
    · intro i hi
      obtain rfl := Option.some.inj hi
      refine ⟨⟨s'.rendered, s'.rendered.selectedProblem, s'.problemRequestVersion + 1, false, none⟩,
        ⟨h.mounted.trans hmounted, ?_, ?_, rfl, rfl, rfl, hinvalid, rfl, rfl⟩⟩
      · show (_ ++ [_])[s'.requests.length]? = _
        rw [← hlength, List.getElem?_concat_length]
      · show s'.requests.length + 1 = (_ ++ [_]).length
        rw [List.length_append, hlength, List.length_singleton]
    · intro i request hi hne
      have hi : (abort s'.problemRequestController s'.requests ++ [_])[i]? = some request := hi
      have hlt : i < s'.requests.length := by
        have hbound := (List.getElem?_eq_some_iff.1 hi).1
        rw [List.length_append, hlength, List.length_singleton] at hbound
        have hother : i ≠ s'.requests.length := fun heq => hne (congrArg some heq.symm)
        omega
      rw [List.getElem?_append_left (by rw [hlength]; exact hlt)] at hi
      obtain ⟨old, hold, hversion, haborted⟩ := mem_abort hi
      obtain ⟨holdAborted, holdVersion⟩ := h.stale i old hold
      refine ⟨haborted (.inl holdAborted), ?_⟩
      show request.version < s'.problemRequestVersion + 1
      omega

theorem Invariant.unmount (h : Invariant sojUrl s) : Invariant sojUrl (unmount s) := by
  have hclean := h.runCleanup
  refine ⟨fun i hi => ?_, fun i request hi _ => hclean.stale i request hi,
    fun _ hmounted => nomatch hmounted⟩
  rw [show (Playground.unmount s).cleanup = none from hclean.cleanup] at hi
  cases hi

/-- The requests after one of them has been answered -/
theorem mem_answered {i j : ℕ} {requests : List Request} {result : Result} {request : Request}
    (h : (requests.modify i fun request => { request with result := some result })[j]? =
      some request) :
    ∃ old, requests[j]? = some old ∧ request.version = old.version ∧
      request.aborted = old.aborted ∧
      request = if i = j then { old with result := some result } else old := by
  rw [List.getElem?_modify] at h
  obtain ⟨old, hold, heq⟩ := Option.map_eq_some_iff.1 h
  refine ⟨old, hold, ?_⟩
  by_cases hi : i = j
  · rw [if_pos hi] at heq ⊢
    subst heq
    exact ⟨rfl, rfl, rfl⟩
  · rw [if_neg hi] at heq ⊢
    obtain rfl : old = request := heq
    exact ⟨rfl, rfl, rfl⟩

/-- An answer to a request that has been given up is dropped. -/
theorem settle_stale (write : List (JsString × JsString) → JsString) {i : ℕ} {request : Request}
    (hstale : request.IsStale s.problemRequestVersion) (result : Result) :
    settle write sojUrl i request result s =
      ({ s with
          requests := s.requests.modify i fun request => { request with result := some result } },
        []) := by
  have hversion : request.version ≠ s.problemRequestVersion := Nat.ne_of_lt hstale.2
  cases result with
  | ok data => exact if_neg hversion
  | error failure => exact if_pos (by simp [hversion])

/-- What an answer to the current request shows is what is shown for it. -/
theorem settle_current (write : List (JsString × JsString) → JsString) {i : ℕ} {request : Request}
    (h : Current sojUrl s i request) (hpending : request.result = none) (result : Result) :
    let answered : Request := { request with result := some result }
    settle write sojUrl i request result s =
      ({ s with
          location := if result = .error (.apiClientError (some 404)) ∧
              request.problemId ≠ defaultProblemId
            then request.location.changeProblemUrl write defaultProblemId true else s.location
          problem := (answered.shown sojUrl).1
          problemError := (answered.shown sojUrl).2
          requests := s.requests.modify i fun request => { request with result := some result } },
        if result = .error (.apiClientError (some 404)) ∧ request.problemId ≠ defaultProblemId
        then [.replace (request.location.changeProblemUrl write defaultProblemId true)] else []) := by
  intro answered
  -- nothing is shown for a request without an answer
  obtain ⟨hproblem, herror⟩ : s.problem = none ∧ s.problemError = none := by
    have hshown := h.shown
    rw [Request.shown, hpending] at hshown
    exact Prod.mk.inj hshown
  cases result with
  | ok data =>
    show (if request.version = s.problemRequestVersion then _ else _) = _
    rw [if_pos h.version]
    simp [answered, Request.shown, herror]
  | error failure =>
    have hcurrent : (request.aborted || request.version ≠ s.problemRequestVersion) = false := by
      simp [h.unaborted, h.version]
    show (if (request.aborted || request.version ≠ s.problemRequestVersion) = true then _ else _) = _
    rw [hcurrent, if_neg (by decide)]
    by_cases hunknown : isUnknown request.problemId failure = true
    · have hboth : failure = .apiClientError (some 404) ∧ request.problemId ≠ defaultProblemId := by
        simpa [isUnknown] using hunknown
      obtain ⟨rfl, hne⟩ := hboth
      simp [answered, Request.shown, hunknown, hne, hproblem, herror]
    · have hboth : ¬ (failure = .apiClientError (some 404) ∧
          request.problemId ≠ defaultProblemId) := by
        simpa [isUnknown] using hunknown
      simp [answered, Request.shown, hunknown, hboth, hproblem]

theorem Invariant.settle (h : Invariant sojUrl s) (write : List (JsString × JsString) → JsString)
    {i : ℕ} {request : Request} (hrequest : s.requests[i]? = some request)
    (hpending : request.result = none) (result : Result) :
    Invariant sojUrl (settle write sojUrl i request result s).1 := by
  have hlength : (s.requests.modify i fun request =>
      { request with result := some result }).length = s.requests.length := List.length_modify ..
  -- an answer changes neither the version of a request nor its abortion
  have hstale : ∀ (j : ℕ) (answered : Request),
      (s.requests.modify i fun request => { request with result := some result })[j]? =
        some answered → s.cleanup ≠ some j → answered.IsStale s.problemRequestVersion := by
    intro j answered hj hne
    obtain ⟨old, hold, hversion, haborted, -⟩ := mem_answered hj
    rw [Request.IsStale, hversion, haborted]
    exact h.stale j old hold hne
  -- the answer to the current request is taken, any other one is dropped
  by_cases hi : s.cleanup = some i
  · obtain ⟨current, hcurrent⟩ := h.current i hi
    obtain rfl := Option.some.inj (hrequest.symm.trans hcurrent.request_eq)
    rw [settle_current write hcurrent hpending result]
    refine ⟨?_, hstale, fun hnone => ?_⟩
    · intro j hj
      obtain rfl : i = j := Option.some.inj (hi.symm.trans hj)
      refine ⟨{ request with result := some result }, ⟨hcurrent.mounted, ?_, ?_, hcurrent.version,
        hcurrent.unaborted, hcurrent.ran, hcurrent.valid, hcurrent.problemId, rfl⟩⟩
      · show (s.requests.modify i _)[i]? = _
        rw [List.getElem?_modify, hrequest]
        simp
      · exact hcurrent.last.trans hlength.symm
    · have hnone : s.cleanup = none := hnone
      rw [hi] at hnone
      cases hnone
  · rw [settle_stale write (h.stale i request hrequest hi) result]
    refine ⟨?_, hstale, h.idle⟩
    intro j hj
    obtain ⟨current, hcurrent⟩ := h.current j hj
    have hij : i ≠ j := by
      rintro rfl
      exact hi hj
    refine ⟨current, { hcurrent with request_eq := ?_, last := hcurrent.last.trans hlength.symm }⟩
    show (s.requests.modify i _)[j]? = _
    rw [List.getElem?_modify, hcurrent.request_eq]
    exact congrArg some (if_neg hij)

/-- Every step keeps the invariant. -/
theorem Invariant.step (h : Invariant sojUrl s) {write : List (JsString × JsString) → JsString}
    {event : Event} {effects : List Effect} {s' : State}
    (hstep : Step write sojUrl s event effects s') : Invariant sojUrl s' := by
  have hview : ∀ location rendered : Location,
      Invariant sojUrl { s with location := location, rendered := rendered } := by
    intro location rendered
    refine ⟨fun i hi => ?_, h.stale, h.idle⟩
    obtain ⟨request, hcurrent⟩ := h.current i hi
    exact ⟨request, { hcurrent with }⟩
  cases hstep with
  | select id hmounted => exact hview _ _
  | travel target => exact hview _ _
  | render hmounted => exact hview _ _
  | effect hmounted => exact h.runCleanup.startRequest write hmounted
  | settle i request result hrequest hpending => exact h.settle write hrequest hpending result
  | unmount hmounted => exact h.unmount

theorem Run.invariant {write : List (JsString × JsString) → JsString} {trace : Trace}
    (h : Run write sojUrl s trace) : Invariant sojUrl s := by
  induction h with
  | start l => exact invariant_initial l
  | step _ hstep ih => exact ih.step hstep

end Invariant

/-! ### The component -/

section Component

variable {write : List (JsString × JsString) → JsString} {sojUrl : JsString} {s : State}
  {trace : Trace}

/-- The event replaces the link `l`: the effect of its render runs and finds it invalid, or
the current request, for the problem that it selects, is answered that there is none. -/
def IsReplaced (s : State) (event : Event) (l : Location) : Prop :=
  (event = .effect ∧ s.rendered = l ∧ l.invalidProblem = true) ∨
    ∃ i request, event = .settle i (.error (.apiClientError (some 404))) ∧
      s.requests[i]? = some request ∧ i + 1 = s.requests.length ∧ request.aborted = false ∧
      request.location = l ∧ request.problemId = l.selectedProblem ∧
      l.invalidProblem = false ∧ l.selectedProblem ≠ defaultProblemId

/-- An effect replaces the link of its render when this is invalid, and else it requests. -/
theorem effects_runEffect (h : Invariant sojUrl s) :
    (runEffect write s).2 =
      if s.rendered.invalidProblem = true
      then [.replace (s.rendered.changeProblemUrl write defaultProblemId true)]
      else [.request (runCleanup s).requests.length s.rendered.selectedProblem] := by
  have hrendered : (runCleanup s).rendered = s.rendered := h.runCleanup.rendered
  rw [runEffect, startRequest, hrendered]
  split
  · rfl
  · rfl

/-- A link that is replaced gives way to the link of the default problem. -/
theorem Invariant.replaces (h : Invariant sojUrl s) {event : Event} {effects : List Effect}
    {s' : State} (hstep : Step write sojUrl s event effects s') {l : Location}
    (hl : IsReplaced s event l) :
    effects = [.replace (l.changeProblemUrl write defaultProblemId true)] ∧
      s'.location = l.changeProblemUrl write defaultProblemId true := by
  rcases hl with ⟨rfl, rfl, hinvalid⟩ | ⟨i, request, rfl, hrequest, hlast, hunaborted, rfl,
    hproblemId, hvalid, hne⟩
  · cases hstep with
    | effect hmounted =>
      refine ⟨(effects_runEffect h).trans (if_pos hinvalid), ?_⟩
      have hrendered : (Playground.runCleanup s).rendered = s.rendered := h.runCleanup.rendered
      rw [runEffect, startRequest, hrendered, if_pos hinvalid]
  · cases hstep with
    | settle _ other _ hother hpending =>
      obtain rfl := Option.some.inj (hrequest.symm.trans hother)
      -- a request that has not been aborted is the current one
      have hi : s.cleanup = some i := by
        by_contra hi
        rw [(h.stale i request hrequest hi).1] at hunaborted
        cases hunaborted
      obtain ⟨current, hcurrent⟩ := h.current i hi
      obtain rfl := Option.some.inj (hrequest.symm.trans hcurrent.request_eq)
      have hunknown : (Except.error (.apiClientError (some 404)) : Result) =
          .error (.apiClientError (some 404)) ∧ request.problemId ≠ defaultProblemId :=
        ⟨rfl, hproblemId ▸ hne⟩
      rw [settle_current write hcurrent hpending]
      exact ⟨if_pos hunknown, if_pos hunknown⟩

/-- Nothing else is replaced. -/
theorem Invariant.replaced (h : Invariant sojUrl s) {event : Event} {effects : List Effect}
    {s' : State} (hstep : Step write sojUrl s event effects s') {target : Location}
    (htarget : .replace target ∈ effects) : ∃ l, IsReplaced s event l ∧
      target = l.changeProblemUrl write defaultProblemId true := by
  cases hstep with
  | select id hmounted => cases List.mem_singleton.1 htarget
  | travel target => cases htarget
  | render hmounted => cases htarget
  | unmount hmounted => cases htarget
  | effect hmounted =>
    -- the effect replaces an invalid link
    rw [effects_runEffect h] at htarget
    split at htarget
    · next hinvalid =>
      obtain rfl := Effect.replace.inj (List.mem_singleton.1 htarget)
      exact ⟨s.rendered, .inl ⟨rfl, rfl, hinvalid⟩, rfl⟩
    · cases List.mem_singleton.1 htarget
  | settle i request result hrequest hpending =>
    by_cases hi : s.cleanup = some i
    -- an answer replaces the link of the current request
    · obtain ⟨current, hcurrent⟩ := h.current i hi
      obtain rfl := Option.some.inj (hrequest.symm.trans hcurrent.request_eq)
      rw [settle_current write hcurrent hpending result] at htarget
      have hreplace : Effect.replace target ∈ (if _ then _ else _ : List Effect) := htarget
      split at hreplace
      · next hunknown =>
        obtain ⟨rfl, hne⟩ := hunknown
        obtain rfl := Effect.replace.inj (List.mem_singleton.1 hreplace)
        rw [hcurrent.problemId] at hne
        exact ⟨request.location, .inr ⟨i, request, rfl, hrequest, hcurrent.last,
          hcurrent.unaborted, rfl, hcurrent.problemId, hcurrent.valid, hne⟩, rfl⟩
      · cases hreplace
    · rw [settle_stale write (h.stale i request hrequest hi) result] at htarget
      cases htarget

/-- The link of the default problem is not replaced in any state. -/
theorem not_isReplaced_default (l : Location) (s : State) (event : Event) :
    ¬ IsReplaced s event (l.changeProblemUrl write defaultProblemId true) := by
  rintro (⟨-, -, hinvalid⟩ | ⟨i, request, -, -, -, -, -, -, -, hne⟩)
  · rw [invalidProblem_default] at hinvalid
    cases hinvalid
  · exact hne (selectedProblem_default write l)

/-- **The problem that is shown** is the selected one, in every interleaving of navigations,
renders, effects, answers and the unmounting. -/
theorem playground_state_machine (h : Run write sojUrl s trace) :
    -- once the effect has run for what is rendered, the last request is for the selected
    -- problem, and its answer alone is shown
    (∀ l, s.mounted = true → s.ran = some l → l.dependencies = s.rendered.dependencies →
      s.rendered.invalidProblem = false →
        ∃ request, s.requests.getLast? = some request ∧
          request.problemId = s.rendered.selectedProblem ∧ request.aborted = false ∧
          (s.problem, s.problemError) = request.shown sojUrl) ∧
    -- all other requests are aborted, and after the unmounting the last one is as well
    (∀ request ∈ s.requests.dropLast, request.aborted = true) ∧
    (s.mounted = false → ∀ request ∈ s.requests, request.aborted = true) ∧
    -- the answer to an aborted request changes nothing
    (∀ i request result effects s', s.requests[i]? = some request → request.aborted = true →
      Step write sojUrl s (.settle i result) effects s' → effects = [] ∧
        s'.location = s.location ∧ s'.problem = s.problem ∧ s'.problemError = s.problemError) ∧
    -- a link that is invalid or whose problem is unknown is replaced at once
    (∀ event effects s' l, Step write sojUrl s event effects s' → IsReplaced s event l →
      effects = [.replace (l.changeProblemUrl write defaultProblemId true)] ∧
        s'.location = l.changeProblemUrl write defaultProblemId true) ∧
    -- and no other one is, by a link that keeps the rest of it and is not replaced again
    ∀ event effects s' target, Step write sojUrl s event effects s' →
      .replace target ∈ effects → ∃ l, IsReplaced s event l ∧
        target = l.changeProblemUrl write defaultProblemId true ∧
        target.selectedProblem = defaultProblemId ∧ target.others = l.others ∧
        target.hash = l.hash ∧ target.linkError = true ∧
        ∀ s event, ¬ IsReplaced s event target := by
  have hinv := h.invariant
  refine ⟨?_, ?_, ?_, ?_, ?_, ?_⟩
  · intro l hmounted hran hdependencies hvalid
    obtain ⟨hselected, hinvalid⟩ : l.selectedProblem = s.rendered.selectedProblem ∧
        l.invalidProblem = s.rendered.invalidProblem := by
      obtain ⟨hselected, hrest⟩ := Prod.mk.inj hdependencies
      exact ⟨hselected, (Prod.mk.inj hrest).1⟩
    cases hcleanup : s.cleanup with
    | none =>
      have hinvalid' := hinv.idle hcleanup hmounted l hran
      rw [hinvalid, hvalid] at hinvalid'
      cases hinvalid'
    | some i =>
      obtain ⟨request, hcurrent⟩ := hinv.current i hcleanup
      obtain rfl : l = request.location := Option.some.inj (hran.symm.trans hcurrent.ran)
      refine ⟨request, ?_, hcurrent.problemId.trans hselected, hcurrent.unaborted, hcurrent.shown⟩
      rw [List.getLast?_eq_getElem?, ← hcurrent.last, Nat.add_sub_cancel, hcurrent.request_eq]
  · intro request hmem
    obtain ⟨i, hi⟩ := List.getElem?_of_mem hmem
    rw [List.getElem?_dropLast] at hi
    split at hi
    · next hlt =>
      refine (hinv.stale i request hi fun hcleanup => ?_).1
      obtain ⟨current, hcurrent⟩ := hinv.current i hcleanup
      have hlast := hcurrent.last
      omega
    · cases hi
  · intro hmounted request hmem
    obtain ⟨i, hi⟩ := List.getElem?_of_mem hmem
    refine (hinv.stale i request hi fun hcleanup => ?_).1
    obtain ⟨current, hcurrent⟩ := hinv.current i hcleanup
    rw [hcurrent.mounted] at hmounted
    cases hmounted
  · intro i request result effects s' hrequest haborted hstep
    cases hstep with
    | settle _ other _ hother hpending =>
      obtain rfl := Option.some.inj (hrequest.symm.trans hother)
      have hstale := hinv.stale i request hrequest fun hcleanup => by
        obtain ⟨current, hcurrent⟩ := hinv.current i hcleanup
        obtain rfl := Option.some.inj (hrequest.symm.trans hcurrent.request_eq)
        rw [hcurrent.unaborted] at haborted
        cases haborted
      rw [settle_stale write hstale result]
      exact ⟨rfl, rfl, rfl, rfl⟩
  · intro event effects s' l hstep hl
    exact hinv.replaces hstep hl
  · intro event effects s' target hstep htarget
    obtain ⟨l, hl, rfl⟩ := hinv.replaced hstep htarget
    refine ⟨l, hl, rfl, selectedProblem_default write l, others_changeProblemUrl write l _ _,
      rfl, ?_, not_isReplaced_default l⟩
    rw [Location.linkError]
    exact Bool.or_true _

/-! ### A link to an unknown problem -/

/-- The query of names and values that need no escape -/
def writePlain : List (JsString × JsString) → JsString
  | [] => jsString "?"
  | [(name, value)] => jsString "?" ++ name ++ jsString "=" ++ value
  | (name, value) :: params =>
    jsString "?" ++ name ++ jsString "=" ++ value ++ jsString "&" ++ (writePlain params).drop 1

/-- A link to a problem that may not exist. -/
def unknownLink : Location :=
  ⟨jsString "?problem=X", [(problemName, jsString "X")], [], false⟩

/-- The detail of a problem. -/
def someDetail : ProblemDetail :=
  ⟨jsString "J", jsString "E", jsString "S", jsString "T", [], jsString "1", jsString "/1.jpg"⟩

/-- The link is opened. -/
def unknownRequested : State := (runEffect writePlain (initial unknownLink)).1

/-- The request for the problem of the link. -/
def unknownRequest : Request := ⟨unknownLink, jsString "X", 1, false, none⟩

/-- It is replaced by the answer. -/
def unknownOpened : State :=
  (settle writePlain [] 0 unknownRequest (.error (.apiClientError (some 404)))
    unknownRequested).1

/-- The problem that takes its place is rendered, requested and answered. -/
def unknownReplaced : State :=
  let s := (runEffect writePlain { unknownOpened with rendered := unknownOpened.location }).1
  (settle writePlain [] 1 ⟨unknownOpened.location, defaultProblemId, 3, false, none⟩
    (.ok someDetail) s).1

theorem run_unknownRequested :
    Run writePlain [] unknownRequested [(.effect, (runEffect writePlain (initial unknownLink)).2)] :=
  .step (.start unknownLink) (.effect rfl)

theorem step_unknownOpened :
    Step writePlain [] unknownRequested (.settle 0 (.error (.apiClientError (some 404))))
      (settle writePlain [] 0 unknownRequest (.error (.apiClientError (some 404)))
        unknownRequested).2 unknownOpened :=
  .settle 0 unknownRequest _ (by decide +kernel) rfl

theorem run_unknownReplaced : ∃ trace, Run writePlain [] unknownReplaced trace := by
  have hreplaced := Run.step run_unknownRequested step_unknownOpened
  have hrendered := Run.step hreplaced (.render (by decide +kernel))
  have hrequested := Run.step hrendered (.effect (by decide +kernel))
  exact ⟨_, .step hrequested (.settle 1 ⟨unknownOpened.location, defaultProblemId, 3, false, none⟩
    (.ok someDetail) (by decide +kernel) rfl)⟩

end Component

theorem playground_state_machine_unknown :
    unknownOpened.location = unknownLink.changeProblemUrl writePlain defaultProblemId true ∧
    unknownReplaced.rendered.selectedProblem = defaultProblemId ∧
    (∃ request, unknownReplaced.requests.getLast? = some request ∧
      request.problemId = unknownReplaced.rendered.selectedProblem ∧ request.aborted = false ∧
      (unknownReplaced.problem, unknownReplaced.problemError) = request.shown []) ∧
    unknownReplaced.problem = some (someDetail.display []) := by
  obtain ⟨trace, hrun⟩ := run_unknownReplaced
  refine ⟨?_, by decide +kernel, ?_, by decide +kernel⟩
  · have hunknown : IsReplaced unknownRequested (.settle 0 (.error (.apiClientError (some 404))))
        unknownLink :=
      .inr ⟨0, unknownRequest, rfl, by decide +kernel, by decide +kernel, rfl, rfl,
        by decide +kernel, by decide +kernel, by decide +kernel⟩
    obtain ⟨-, -, -, -, hreplaces, -⟩ := playground_state_machine run_unknownRequested
    exact (hreplaces _ _ _ _ step_unknownOpened hunknown).2
  · exact (playground_state_machine hrun).1 unknownReplaced.rendered (by decide +kernel)
      (by decide +kernel) rfl (by decide +kernel)

end Playground
