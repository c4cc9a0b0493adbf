/-
The submissions of the browser (frontend/src/tsx/run.tsx).

An event handler runs as a whole.  Between events a call of `submit` may settle
at any time and with any result, also after its signal has been aborted; the
controllers are numbered in the order of the calls.

* `submission_state_machine` — version, active submission, signals and displayed
  state in every interleaving of clicks, results and the unmounting.
-/
import ShellgeiOnlineJudge.FrontendCommand

namespace FrontendRun

open FrontendCommand

/-! ### States -/

/-- What a call of `submit` settles with: a response of the backend, or the message
of a failure. -/
inductive SubmitResult (Response : Type)
  | succeeded (response : Response)
  | failed (message : String)

/-- `SubmissionState` -/
inductive SubmissionState (Response : Type)
  | idle
  | running (submission : RunningSubmissionState)
  | succeeded (shellgei problemId : JsString) (response : Response)
  | failed (message : String)
  | validationError (message : String)

/-- A call of `submit`, with its version and its abort signal. -/
structure SubmitCall where
  submission : RunningSubmissionState
  version : ℕ
  aborted : Bool
  settled : Bool

/-- `ActiveSubmission` -/
structure ActiveSubmission where
  controller : ℕ
  requestKey : JsString
  version : ℕ

/-- The component, its parent, and the requests so far. -/
structure State (Response : Type) where
  submissionVersion : ℕ
  activeSubmission : Option ActiveSubmission
  /-- the state of the parent, which is displayed -/
  submissionState : SubmissionState Response
  mounted : Bool
  calls : List SubmitCall

/-- What the component asks of its parent and of the API. -/
inductive Effect (Response : Type)
  | setSubmissionState (state : SubmissionState Response)
  /-- a request is sent, under the signal of a controller -/
  | send (controller : ℕ) (submission : RunningSubmissionState)

section Handlers

variable {Response : Type}

/-- The page before the first click. -/
def initial : State Response := ⟨0, none, .idle, true, []⟩

/-- What `submit` returns. -/
def SubmitResult.state (submission : RunningSubmissionState) :
    SubmitResult Response → SubmissionState Response
  | .succeeded response => .succeeded submission.shellgei submission.problemId response
  | .failed message => .failed message

/-- `activeSubmission.current?.controller.abort()` -/
def State.abortActive (s : State Response) : List SubmitCall :=
  match s.activeSubmission with
  | none => s.calls
  | some active => s.calls.modify active.controller fun call => { call with aborted := true }

/-- `submitClick` -/
def submitClick (shellgeiLimit : ℕ) (inputShellgei selectedProblem : JsString)
    (s : State Response) : State Response × List (Effect Response) :=
  match prepareSubmission shellgeiLimit inputShellgei selectedProblem with
  | .validationError message =>
    ({ s with
        submissionVersion := s.submissionVersion + 1
        activeSubmission := none
        submissionState := .validationError message
        calls := s.abortActive },
      [.setSubmissionState (.validationError message)])
  | .running prepared =>
    if s.activeSubmission.map (·.requestKey) = some prepared.requestKey then (s, [])
    else
      ({ s with
          submissionVersion := s.submissionVersion + 1
          activeSubmission :=
            some ⟨s.calls.length, prepared.requestKey, s.submissionVersion + 1⟩
          submissionState := .running prepared
          calls := s.abortActive ++ [⟨prepared, s.submissionVersion + 1, false, false⟩] },
        [.setSubmissionState (.running prepared), .send s.calls.length prepared])

/-- What follows a call of `submit` that settles. -/
def settle (controller : ℕ) (call : SubmitCall) (result : SubmitResult Response)
    (s : State Response) : State Response × List (Effect Response) :=
  let calls := s.calls.modify controller fun call => { call with settled := true }
  if call.version ≠ s.submissionVersion then ({ s with calls := calls }, [])
  else
    ({ s with
        activeSubmission := none
        submissionState := result.state call.submission
        calls := calls },
      [.setSubmissionState (result.state call.submission)])

/-- The cleanup of the effect. -/
def unmount (s : State Response) : State Response :=
  { s with
    submissionVersion := s.submissionVersion + 1
    activeSubmission := none
    mounted := false
    calls := s.abortActive }

end Handlers

/-! ### Runs -/

/-- What the visitor, React and the API may do. -/
inductive Event (Response : Type)
  | click (inputShellgei selectedProblem : JsString)
  | settle (controller : ℕ) (result : SubmitResult Response)
  | unmount

section Runs

variable {Response : Type}

/-- A component that is not mounted is not clicked, and a call settles once. -/
inductive Step (shellgeiLimit : ℕ) (s : State Response) :
    Event Response → List (Effect Response) → State Response → Prop
  | click (inputShellgei selectedProblem : JsString) (h : s.mounted = true) :
      Step shellgeiLimit s (.click inputShellgei selectedProblem)
        (submitClick shellgeiLimit inputShellgei selectedProblem s).2
        (submitClick shellgeiLimit inputShellgei selectedProblem s).1
  | settle (controller : ℕ) (call : SubmitCall) (result : SubmitResult Response)
      (h : s.calls[controller]? = some call) (hpending : call.settled = false) :
      Step shellgeiLimit s (.settle controller result)
        (settle controller call result s).2 (settle controller call result s).1
  | unmount (h : s.mounted = true) : Step shellgeiLimit s .unmount [] (unmount s)

/-- What has happened, the latest first. -/
abbrev Trace (Response : Type) := List (Event Response × List (Effect Response))

/-- The states that some events lead to, with the events and their effects. -/
inductive Run (shellgeiLimit : ℕ) : State Response → Trace Response → Prop
  | start : Run shellgeiLimit initial []
  | step {s s' : State Response} {trace : Trace Response} {event : Event Response}
      {effects : List (Effect Response)} (h : Run shellgeiLimit s trace)
      (hstep : Step shellgeiLimit s event effects s') :
      Run shellgeiLimit s' ((event, effects) :: trace)

/-- No click since has been accepted or invalid. -/
def Quiet (trace : Trace Response) : Prop :=
  ∀ inputShellgei selectedProblem effects,
    (Event.click inputShellgei selectedProblem, effects) ∈ trace → effects = []

/-- The submission was the last to be started, and no later click was accepted or
invalid. -/
def LastStarted (trace : Trace Response) (controller : ℕ) (submission : RunningSubmissionState) :
    Prop :=
  ∃ middle older inputShellgei selectedProblem, Quiet middle ∧
    trace = middle ++ (.click inputShellgei selectedProblem,
      [.setSubmissionState (.running submission), .send controller submission]) :: older

/-- The state is the result of the last started submission. -/
def Shown (trace : Trace Response) (controller : ℕ) (submission : RunningSubmissionState)
    (state : SubmissionState Response) : Prop :=
  ∃ newer before result, Quiet newer ∧ LastStarted before controller submission ∧
    state = SubmitResult.state submission result ∧
    trace = newer ++ (.settle controller result, [.setSubmissionState state]) :: before

/-- The result of the call has been displayed. -/
def Adopted (trace : Trace Response) (controller : ℕ) (submission : RunningSubmissionState) :
    Prop :=
  ∃ result, (Event.settle controller result,
    [Effect.setSubmissionState (SubmitResult.state submission result)]) ∈ trace

/-! ### The invariant -/

/-- The active submission is the last call, of the current version. -/
structure IsActive (s : State Response) (active : ActiveSubmission) (call : SubmitCall) :
    Prop where
  mounted : s.mounted = true
  call_eq : s.calls[active.controller]? = some call
  last : active.controller + 1 = s.calls.length
  active_version : active.version = s.submissionVersion
  version : call.version = s.submissionVersion
  requestKey : active.requestKey = call.submission.requestKey
  pending : call.settled = false
  displayed : s.submissionState = .running call.submission

/-- At most one request is active, and the displayed state agrees with it. -/
structure Invariant (s : State Response) (trace : Trace Response) : Prop where
  active : ∀ active ∈ s.activeSubmission, ∃ call, IsActive s active call ∧
    LastStarted trace active.controller call.submission
  inactive : s.activeSubmission = none → s.mounted = true →
    ∀ submission, s.submissionState ≠ .running submission
  stale : s.activeSubmission = none → ∀ call ∈ s.calls, call.version = s.submissionVersion →
    call.settled = true
  version_le : ∀ call ∈ s.calls, call.version ≤ s.submissionVersion
  last : ∀ i call, s.calls[i]? = some call → call.version = s.submissionVersion →
    i + 1 = s.calls.length
  aborted : ∀ i call, s.calls[i]? = some call → call.aborted = true ∨
    (∃ active ∈ s.activeSubmission, active.controller = i) ∨
      call.settled = true ∧ Adopted trace i call.submission
  shown : ∀ state, s.submissionState = state →
    (∃ response shellgei problemId, state = .succeeded shellgei problemId response) ∨
      (∃ message, state = .failed message) →
    ∃ controller call, s.calls[controller]? = some call ∧ controller + 1 = s.calls.length ∧
      Shown trace controller call.submission state
  unmounted : s.mounted = false → s.activeSubmission = none ∧
    ∀ call ∈ s.calls, call.version ≠ s.submissionVersion

/-! ### Traces that grow -/

section Traces

variable {trace : Trace Response} {event : Event Response} {effects : List (Effect Response)}
  {controller : ℕ} {submission : RunningSubmissionState} {state : SubmissionState Response}

/-- What is no accepted or invalid click. -/
def QuietEntry (event : Event Response) (effects : List (Effect Response)) : Prop :=
  ∀ inputShellgei selectedProblem, event = .click inputShellgei selectedProblem → effects = []

theorem Quiet.cons (h : Quiet trace) (hentry : QuietEntry event effects) :
    Quiet ((event, effects) :: trace) := by
  intro inputShellgei selectedProblem effects' hmem
  rcases List.mem_cons.1 hmem with heq | hmem
  · obtain ⟨hevent, rfl⟩ := Prod.mk.inj heq
    exact hentry inputShellgei selectedProblem hevent.symm
  · exact h inputShellgei selectedProblem effects' hmem

theorem quiet_nil : Quiet ([] : Trace Response) :=
  fun _ _ _ hmem => by cases hmem

theorem LastStarted.cons (h : LastStarted trace controller submission)
    (hentry : QuietEntry event effects) :
    LastStarted ((event, effects) :: trace) controller submission := by
  obtain ⟨middle, older, inputShellgei, selectedProblem, hquiet, rfl⟩ := h
  exact ⟨(event, effects) :: middle, older, inputShellgei, selectedProblem, hquiet.cons hentry,
    rfl⟩

theorem Shown.cons (h : Shown trace controller submission state)
    (hentry : QuietEntry event effects) :
    Shown ((event, effects) :: trace) controller submission state := by
  obtain ⟨newer, before, result, hquiet, hstarted, hstate, rfl⟩ := h
  exact ⟨(event, effects) :: newer, before, result, hquiet.cons hentry, hstarted, hstate, rfl⟩

theorem Adopted.cons (h : Adopted trace controller submission) :
    Adopted ((event, effects) :: trace) controller submission := by
  obtain ⟨result, hmem⟩ := h
  exact ⟨result, List.mem_cons_of_mem _ hmem⟩

theorem quietEntry_unmount : QuietEntry .unmount effects :=
  fun _ _ heq => by cases heq

theorem quietEntry_nil : QuietEntry event ([] : List (Effect Response)) :=
  fun _ _ _ => rfl

end Traces

/-! ### Calls whose signal is aborted -/

section Abort

variable {s : State Response} {trace : Trace Response} {i : ℕ} {call : SubmitCall}

/-- The active controller is the one of the call. -/
def State.Holds (s : State Response) (i : ℕ) : Prop :=
  ∃ active ∈ s.activeSubmission, active.controller = i

theorem length_abortActive : s.abortActive.length = s.calls.length := by
  rw [State.abortActive]
  cases s.activeSubmission with
  | none => rfl
  | some active => exact List.length_modify ..

/-- An aborted call is the same call, with its signal aborted when it was active. -/
theorem getElem?_abortActive (h : s.abortActive[i]? = some call) :
    ∃ old, s.calls[i]? = some old ∧ call.submission = old.submission ∧
      call.version = old.version ∧ call.settled = old.settled ∧
      (old.aborted = true ∨ s.Holds i → call.aborted = true) := by
  rw [State.abortActive] at h
  unfold State.Holds
  cases hactive : s.activeSubmission with
  | none =>
    rw [hactive] at h
    refine ⟨call, h, rfl, rfl, rfl, fun hor => hor.resolve_right ?_⟩
    rintro ⟨active, hmem, -⟩
    cases hmem
  | some active =>
    rw [hactive] at h
    have h : (s.calls.modify active.controller fun call => { call with aborted := true })[i]? =
      some call := h
    rw [List.getElem?_modify] at h
    obtain ⟨old, hold, heq⟩ := Option.map_eq_some_iff.1 h
    refine ⟨old, hold, ?_⟩
    -- the active call is aborted, and no other one
    by_cases hi : active.controller = i
    · rw [if_pos hi] at heq
      subst heq
      exact ⟨rfl, rfl, rfl, fun _ => rfl⟩
    · rw [if_neg hi] at heq
      obtain rfl : old = call := heq
      refine ⟨rfl, rfl, rfl, fun hor => hor.resolve_right ?_⟩
      rintro ⟨other, hmem, hother⟩
      obtain rfl := Option.some.inj hmem
      exact hi hother

/-- When the active call is aborted, what is left unaborted has been displayed. -/
theorem Invariant.aborted_abortActive (h : Invariant s trace) (hcall : s.abortActive[i]? = some call) :
    call.aborted = true ∨ call.settled = true ∧ Adopted trace i call.submission := by
  obtain ⟨old, hold, hsubmission, -, hsettled, haborted⟩ := getElem?_abortActive hcall
  rcases h.aborted i old hold with hor | hor | hor
  · exact .inl (haborted (.inl hor))
  · exact .inl (haborted (.inr hor))
  · rw [hsubmission, hsettled]
    exact .inr hor

theorem Invariant.version_abortActive (h : Invariant s trace) (hcall : call ∈ s.abortActive) :
    call.version ≤ s.submissionVersion := by
  obtain ⟨i, hi⟩ := List.getElem?_of_mem hcall
  obtain ⟨old, hold, -, hversion, -⟩ := getElem?_abortActive hi
  rw [hversion]
  exact h.version_le old (List.mem_of_getElem? hold)

end Abort

/-! ### What a step keeps -/

section Steps

variable {s : State Response} {trace : Trace Response} {shellgeiLimit : ℕ}

theorem invariant_initial : Invariant (initial : State Response) [] := by
  refine ⟨?_, ?_, ?_, ?_, ?_, ?_, ?_, ?_⟩
  · intro active hactive
    cases hactive
  · intro _ _ submission heq
    cases heq
  · intro _ call hcall
    cases hcall
  · intro call hcall
    cases hcall
  · intro i call hcall
    cases hcall
  · intro i call hcall
    cases hcall
  · rintro state rfl (⟨response, shellgei, problemId, heq⟩ | ⟨message, heq⟩)
    · cases heq
    · cases heq
  · intro h
    cases h

/-- A click that is ignored, and a result that is. -/
theorem Invariant.quiet (h : Invariant s trace) (event : Event Response) :
    Invariant s ((event, []) :: trace) := by
  refine ⟨?_, h.inactive, h.stale, h.version_le, h.last, ?_, ?_, h.unmounted⟩
  · intro active hactive
    obtain ⟨call, hcall, hstarted⟩ := h.active active hactive
    exact ⟨call, hcall, hstarted.cons quietEntry_nil⟩
  · intro i call hcall
    rcases h.aborted i call hcall with hor | hor | hor
    · exact .inl hor
    · exact .inr (.inl hor)
    · exact .inr (.inr ⟨hor.1, hor.2.cons⟩)
  · intro state hstate hterminal
    obtain ⟨controller, call, hcall, hlast, hshown⟩ := h.shown state hstate hterminal
    exact ⟨controller, call, hcall, hlast, hshown.cons quietEntry_nil⟩

/-- The version moves on without a new submission: after an invalid click, and after
the unmounting. -/
theorem Invariant.supersede (h : Invariant s trace) (event : Event Response)
    (effects : List (Effect Response)) {state : SubmissionState Response} {mounted : Bool}
    (hstate : (∃ message, state = .validationError message) ∨
      mounted = false ∧ state = s.submissionState ∧ QuietEntry event effects) :
    Invariant { s with
      submissionVersion := s.submissionVersion + 1
      activeSubmission := none
      submissionState := state
      mounted := mounted
      calls := s.abortActive } ((event, effects) :: trace) := by
  refine ⟨?_, ?_, ?_, ?_, ?_, ?_, ?_, ?_⟩
  · intro active hactive
    cases hactive
  · intro _ hmounted submission hrunning
    rcases hstate with ⟨message, rfl⟩ | ⟨rfl, -⟩
    · cases hrunning
    · cases hmounted
  · intro _ call hcall hversion
    have hle := h.version_abortActive hcall
    -- no request has the new version, since none has a later one than the old
    have hversion : call.version = s.submissionVersion + 1 := hversion
    omega
  · intro call hcall
    have hle := h.version_abortActive hcall
    show call.version ≤ s.submissionVersion + 1
    omega
  · intro i call hcall hversion
    have hle := h.version_abortActive (List.mem_of_getElem? hcall)
    have hversion : call.version = s.submissionVersion + 1 := hversion
    omega
  · intro i call hcall
    rcases h.aborted_abortActive hcall with hor | hor
    · exact .inl hor
    · exact .inr (.inr ⟨hor.1, hor.2.cons⟩)
  · rintro displayed hdisplayed hterminal
    have hdisplayed : state = displayed := hdisplayed
    subst hdisplayed
    rcases hstate with ⟨message, rfl⟩ | ⟨-, rfl, hquiet⟩
    · rcases hterminal with ⟨response, shellgei, problemId, heq⟩ | ⟨message, heq⟩
      · cases heq
      · cases heq
    · obtain ⟨controller, call, hcall, hlast, hshown⟩ := h.shown _ rfl hterminal
      have hlength : controller < s.abortActive.length := by
        rw [length_abortActive]
        omega
      obtain ⟨aged, haged⟩ : ∃ aged, s.abortActive[controller]? = some aged :=
        ⟨_, List.getElem?_eq_getElem hlength⟩
      obtain ⟨old, hold, hsubmission, -⟩ := getElem?_abortActive haged
      obtain rfl : old = call := Option.some.inj (hold.symm.trans hcall)
      refine ⟨controller, aged, haged, ?_, ?_⟩
      · show controller + 1 = s.abortActive.length
        rw [length_abortActive, hlast]
      · rw [hsubmission]
        exact hshown.cons hquiet
  · intro _
    refine ⟨rfl, fun call hcall hversion => ?_⟩
    have hle := h.version_abortActive hcall
    have hversion : call.version = s.submissionVersion + 1 := hversion
    omega

/-- A submission is started. -/
theorem Invariant.start (h : Invariant s trace) (hmounted : s.mounted = true)
    (inputShellgei selectedProblem : JsString) (prepared : RunningSubmissionState) :
    Invariant { s with
      submissionVersion := s.submissionVersion + 1
      activeSubmission := some ⟨s.calls.length, prepared.requestKey, s.submissionVersion + 1⟩
      submissionState := .running prepared
      calls := s.abortActive ++ [⟨prepared, s.submissionVersion + 1, false, false⟩] }
      ((.click inputShellgei selectedProblem,
        [.setSubmissionState (.running prepared), .send s.calls.length prepared]) :: trace) := by
  have hnew : (s.abortActive ++ [⟨prepared, s.submissionVersion + 1, false, false⟩])[
      s.calls.length]? = some ⟨prepared, s.submissionVersion + 1, false, false⟩ := by
    rw [← length_abortActive, List.getElem?_concat_length]
  -- a call is one of before or the new one
  have hcalls : ∀ i call,
      (s.abortActive ++ [⟨prepared, s.submissionVersion + 1, false, false⟩])[i]? = some call →
      s.abortActive[i]? = some call ∨
        i = s.calls.length ∧ call = ⟨prepared, s.submissionVersion + 1, false, false⟩ := by
    intro i call hcall
    rcases Nat.lt_or_ge i s.abortActive.length with hlt | hge
    · rw [List.getElem?_append_left hlt] at hcall
      exact .inl hcall
    · have hlength := (List.getElem?_eq_some_iff.1 hcall).1
      rw [List.length_append, List.length_singleton, length_abortActive] at hlength
      rw [length_abortActive] at hge
      obtain rfl : i = s.calls.length := by omega
      exact .inr ⟨rfl, Option.some.inj (hcall.symm.trans hnew)⟩
  refine ⟨?_, ?_, ?_, ?_, ?_, ?_, ?_, ?_⟩
  · intro active hactive
    obtain rfl := Option.some.inj hactive
    refine ⟨_, ⟨hmounted, hnew, ?_, rfl, rfl, rfl, rfl, rfl⟩, ?_⟩
    · show s.calls.length + 1 = (s.abortActive ++ [_]).length
      rw [List.length_append, length_abortActive, List.length_singleton]
    · exact ⟨[], trace, inputShellgei, selectedProblem, quiet_nil, rfl⟩
  · intro hactive
    cases hactive
  · intro hactive
    cases hactive
  · intro call hcall
    rcases List.mem_append.1 hcall with hcall | hcall
    · have hle := h.version_abortActive hcall
      show call.version ≤ s.submissionVersion + 1
      omega
    · obtain rfl := List.mem_singleton.1 hcall
      exact Nat.le_refl _
  · intro i call hcall hversion
    show i + 1 = (s.abortActive ++ [_]).length
    rw [List.length_append, length_abortActive, List.length_singleton]
    rcases hcalls i call hcall with hold | ⟨rfl, -⟩
    · have hle := h.version_abortActive (List.mem_of_getElem? hold)
      have hversion : call.version = s.submissionVersion + 1 := hversion
      omega
    · rfl
  · intro i call hcall
    rcases hcalls i call hcall with hold | ⟨rfl, -⟩
    · rcases h.aborted_abortActive hold with hor | hor
      · exact .inl hor
      · exact .inr (.inr ⟨hor.1, hor.2.cons⟩)
    · exact .inr (.inl ⟨_, rfl, rfl⟩)
  · rintro state rfl (⟨response, shellgei, problemId, heq⟩ | ⟨message, heq⟩)
    · cases heq
    · cases heq
  · intro hunmounted
    rw [show s.mounted = false from hunmounted] at hmounted
    cases hmounted

/-- The calls after one of them has settled. -/
def settled (controller : ℕ) (calls : List SubmitCall) : List SubmitCall :=
  calls.modify controller fun call => { call with settled := true }

theorem length_settled {controller : ℕ} {calls : List SubmitCall} :
    (settled controller calls).length = calls.length := List.length_modify ..

theorem getElem?_settled {controller i : ℕ} {calls : List SubmitCall} {call : SubmitCall}
    (h : (settled controller calls)[i]? = some call) : ∃ old, calls[i]? = some old ∧
      call.submission = old.submission ∧ call.version = old.version ∧
      call.aborted = old.aborted ∧ (old.settled = true ∨ controller = i → call.settled = true) ∧
      (controller ≠ i → call = old) := by
  rw [settled, List.getElem?_modify] at h
  obtain ⟨old, hold, heq⟩ := Option.map_eq_some_iff.1 h
  refine ⟨old, hold, ?_⟩
  by_cases hi : controller = i
  · rw [if_pos hi] at heq
    subst heq
    exact ⟨rfl, rfl, rfl, fun _ => rfl, fun hne => absurd hi hne⟩
  · rw [if_neg hi] at heq
    obtain rfl : old = call := heq
    exact ⟨rfl, rfl, rfl, fun hor => hor.resolve_right hi, fun _ => rfl⟩

theorem settled_of_getElem? {controller i : ℕ} {calls : List SubmitCall} {call : SubmitCall}
    (h : calls[i]? = some call) : ∃ aged, (settled controller calls)[i]? = some aged ∧
      aged.submission = call.submission ∧ (controller ≠ i → aged = call) := by
  have hlength : i < (settled controller calls).length := by
    rw [length_settled]
    exact (List.getElem?_eq_some_iff.1 h).1
  obtain ⟨old, hold, hsubmission, -, -, -, hother⟩ :=
    getElem?_settled (List.getElem?_eq_getElem hlength)
  obtain rfl : old = call := Option.some.inj (hold.symm.trans h)
  exact ⟨_, List.getElem?_eq_getElem hlength, hsubmission, hother⟩

/-- A call of another version settles, and its result is dropped. -/
theorem Invariant.settle_stale (h : Invariant s trace) {controller : ℕ} {call : SubmitCall}
    (hcall : s.calls[controller]? = some call) (hversion : call.version ≠ s.submissionVersion)
    (result : SubmitResult Response) :
    Invariant { s with calls := settled controller s.calls }
      ((.settle controller result, []) :: trace) := by
  have hversions : ∀ call' ∈ settled controller s.calls,
      ∃ (i : ℕ) (old : SubmitCall), s.calls[i]? = some old ∧
      (settled controller s.calls)[i]? = some call' ∧ call'.version = old.version := by
    intro call' hcall'
    obtain ⟨i, hi⟩ := List.getElem?_of_mem hcall'
    obtain ⟨old, hold, -, hsame, -⟩ := getElem?_settled hi
    exact ⟨i, old, hold, hi, hsame⟩
  refine ⟨?_, h.inactive, ?_, ?_, ?_, ?_, ?_, ?_⟩
  · intro active hactive
    obtain ⟨current, hcurrent, hstarted⟩ := h.active active hactive
    -- the active call has the current version, so it is another one
    have hne : controller ≠ active.controller := by
      rintro rfl
      obtain rfl : call = current := Option.some.inj (hcall.symm.trans hcurrent.call_eq)
      exact hversion hcurrent.version
    obtain ⟨aged, haged, -, hsame⟩ := settled_of_getElem? hcurrent.call_eq
    obtain rfl := hsame hne
    refine ⟨aged, { hcurrent with call_eq := haged, last := ?_ }, hstarted.cons quietEntry_nil⟩
    show active.controller + 1 = (settled controller s.calls).length
    rw [length_settled, hcurrent.last]
  · intro hactive call' hcall' hcurrent
    obtain ⟨i, hi⟩ := List.getElem?_of_mem hcall'
    obtain ⟨old, hold, -, hsame, -, hsettled, hother⟩ := getElem?_settled hi
    by_cases hne : controller = i
    · exact hsettled (.inr hne)
    · obtain rfl := hother hne
      exact h.stale hactive call' (List.mem_of_getElem? hold) hcurrent
  · intro call' hcall'
    obtain ⟨i, old, hold, -, hsame⟩ := hversions call' hcall'
    rw [hsame]
    exact h.version_le old (List.mem_of_getElem? hold)
  · intro i call' hcall' hcurrent
    obtain ⟨old, hold, -, hsame, -⟩ := getElem?_settled hcall'
    show i + 1 = (settled controller s.calls).length
    rw [length_settled]
    exact h.last i old hold (by rw [← hsame]; exact hcurrent)
  · intro i call' hcall'
    obtain ⟨old, hold, hsubmission, -, haborted, hsettled, -⟩ := getElem?_settled hcall'
    rw [haborted, hsubmission]
    rcases h.aborted i old hold with hor | hor | hor
    · exact .inl hor
    · exact .inr (.inl hor)
    · exact .inr (.inr ⟨hsettled (.inl hor.1), hor.2.cons⟩)
  · intro state hstate hterminal
    obtain ⟨last, lastCall, hlastCall, hlast, hshown⟩ := h.shown state hstate hterminal
    obtain ⟨aged, haged, hsubmission, -⟩ := settled_of_getElem? hlastCall
    refine ⟨last, aged, haged, ?_, ?_⟩
    · show last + 1 = (settled controller s.calls).length
      rw [length_settled, hlast]
    · rw [hsubmission]
      exact hshown.cons quietEntry_nil
  · intro hmounted
    refine ⟨(h.unmounted hmounted).1, fun call' hcall' => ?_⟩
    obtain ⟨i, old, hold, -, hsame⟩ := hversions call' hcall'
    rw [hsame]
    exact (h.unmounted hmounted).2 old (List.mem_of_getElem? hold)

/-- The call of the current version settles, and its result is displayed. -/
theorem Invariant.settle_current (h : Invariant s trace) {controller : ℕ} {call : SubmitCall}
    (hcall : s.calls[controller]? = some call) (hpending : call.settled = false)
    (hversion : call.version = s.submissionVersion) (result : SubmitResult Response) :
    Invariant { s with
      activeSubmission := none
      submissionState := result.state call.submission
      calls := settled controller s.calls }
      ((.settle controller result, [.setSubmissionState (result.state call.submission)]) ::
        trace) := by
  have hlast := h.last controller call hcall hversion
  -- a call that is pending and current is the active one
  obtain ⟨active, hactive⟩ : ∃ active, s.activeSubmission = some active := by
    cases hactive : s.activeSubmission with
    | some active => exact ⟨active, rfl⟩
    | none =>
      have hsettled := h.stale hactive call (List.mem_of_getElem? hcall) hversion
      rw [hpending] at hsettled
      cases hsettled
  obtain ⟨current, hcurrent, hstarted⟩ := h.active active hactive
  have hcontroller : active.controller = controller := by
    have hlast' := hcurrent.last
    omega
  rw [hcontroller] at hstarted
  have hsame := hcurrent.call_eq
  rw [hcontroller] at hsame
  obtain rfl : current = call := Option.some.inj (hsame.symm.trans hcall)
  refine ⟨?_, ?_, ?_, ?_, ?_, ?_, ?_, ?_⟩
  · intro other hother
    cases hother
  · intro _ _ submission hrunning
    cases result with
    | succeeded response => cases hrunning
    | failed message => cases hrunning
  · intro _ call' hcall' hcurrent'
    obtain ⟨i, hi⟩ := List.getElem?_of_mem hcall'
    obtain ⟨old, hold, -, hsame, -, hsettled, -⟩ := getElem?_settled hi
    have hlast' := h.last i old hold (by rw [← hsame]; exact hcurrent')
    exact hsettled (.inr (by omega))
  · intro call' hcall'
    obtain ⟨i, hi⟩ := List.getElem?_of_mem hcall'
    obtain ⟨old, hold, -, hsame, -⟩ := getElem?_settled hi
    rw [hsame]
    exact h.version_le old (List.mem_of_getElem? hold)
  · intro i call' hcall' hcurrent'
    obtain ⟨old, hold, -, hsame, -⟩ := getElem?_settled hcall'
    show i + 1 = (settled controller s.calls).length
    rw [length_settled]
    exact h.last i old hold (by rw [← hsame]; exact hcurrent')
  · intro i call' hcall'
    obtain ⟨old, hold, hsubmission, -, haborted, hsettled, -⟩ := getElem?_settled hcall'
    rw [haborted, hsubmission]
    rcases h.aborted i old hold with hor | ⟨other, hother, hi⟩ | hor
    · exact .inl hor
    · obtain rfl : active = other := Option.some.inj (hactive.symm.trans hother)
      obtain rfl : controller = i := hcontroller.symm.trans hi
      obtain rfl : old = current := Option.some.inj (hold.symm.trans hcall)
      exact .inr (.inr ⟨hsettled (.inr rfl), result, List.mem_cons_self⟩)
    · exact .inr (.inr ⟨hsettled (.inl hor.1), hor.2.cons⟩)
  · intro state hstate hterminal
    have hstate : result.state current.submission = state := hstate
    subst hstate
    obtain ⟨aged, haged, hsubmission, -⟩ := @settled_of_getElem? controller _ _ _ hcall
    refine ⟨controller, aged, haged, ?_, ?_⟩
    · show controller + 1 = (settled controller s.calls).length
      rw [length_settled, hlast]
    · rw [hsubmission]
      exact ⟨[], trace, result, quiet_nil, hstarted, rfl, rfl⟩
  · intro hmounted
    have hmounted' := hcurrent.mounted
    rw [show s.mounted = false from hmounted] at hmounted'
    cases hmounted'

/-- Every step keeps the invariant. -/
theorem Invariant.step (h : Invariant s trace) {event : Event Response}
    {effects : List (Effect Response)} {s' : State Response}
    (hstep : Step shellgeiLimit s event effects s') :
    Invariant s' ((event, effects) :: trace) := by
  cases hstep with
  | click inputShellgei selectedProblem hmounted =>
    rw [submitClick]
    cases hprepared : prepareSubmission shellgeiLimit inputShellgei selectedProblem with
    | validationError message => exact h.supersede _ _ (.inl ⟨message, rfl⟩)
    | running prepared =>
      show Invariant (if _ then _ else _ : _ × _).1 ((_, (if _ then _ else _ : _ × _).2) :: trace)
      by_cases hsame : s.activeSubmission.map (·.requestKey) = some prepared.requestKey
      · rw [if_pos hsame]
        exact h.quiet _
      · rw [if_neg hsame]
        exact h.start hmounted inputShellgei selectedProblem prepared
  | settle controller call result hcall hpending =>
    rw [FrontendRun.settle]
    by_cases hversion : call.version = s.submissionVersion
    · rw [if_neg (not_not.2 hversion)]
      exact h.settle_current hcall hpending hversion result
    · rw [if_pos hversion]
      exact h.settle_stale hcall hversion result
  | unmount hmounted =>
    exact h.supersede _ _ (.inr ⟨rfl, rfl, quietEntry_unmount⟩)

theorem Run.invariant (h : Run shellgeiLimit s trace) : Invariant s trace := by
  induction h with
  | start => exact invariant_initial
  | step _ hstep ih => exact ih.step hstep

/-- After the unmounting nothing has an effect. -/
theorem Run.unmounted (h : Run shellgeiLimit s trace) {newer older : Trace Response}
    {effects : List (Effect Response)} (htrace : trace = newer ++ (.unmount, effects) :: older) :
    s.mounted = false ∧ ∀ entry ∈ newer, entry.2 = [] := by
  induction h generalizing newer with
  | start => exact absurd htrace (by simp)
  | @step s s' trace event effects' hrun hstep ih =>
    cases newer with
    | nil =>
      obtain ⟨heq, -⟩ := List.cons.inj htrace
      obtain ⟨rfl, -⟩ := Prod.mk.inj heq
      cases hstep with
      | unmount hmounted => exact ⟨rfl, fun entry hentry => by cases hentry⟩
    | cons entry newer =>
      obtain ⟨rfl, hrest⟩ := List.cons.inj htrace
      obtain ⟨hmounted, hquiet⟩ := ih hrest
      cases hstep with
      | click inputShellgei selectedProblem hclick =>
        rw [hmounted] at hclick
        cases hclick
      | unmount hunmount =>
        rw [hmounted] at hunmount
        cases hunmount
      | settle controller call result hcall hpending =>
        -- no call has the version that the unmounting has left
        have hversion : call.version ≠ s.submissionVersion :=
          (hrun.invariant.unmounted hmounted).2 call (List.mem_of_getElem? hcall)
        rw [FrontendRun.settle, if_pos hversion]
        exact ⟨hmounted, List.forall_mem_cons.2 ⟨rfl, hquiet⟩⟩

end Steps

/-! ### Request keys -/

/-- The first `NUL` ends the first part. -/
theorem append_nul_inj {front front' rest rest' : JsString} (h : 0x0000 ∉ front)
    (h' : 0x0000 ∉ front') (heq : front ++ 0x0000 :: rest = front' ++ 0x0000 :: rest') :
    front = front' ∧ rest = rest' := by
  induction front generalizing front' with
  | nil =>
    cases front' with
    | nil => exact ⟨rfl, (List.cons.inj heq).2⟩
    | cons u front' =>
      obtain ⟨rfl, -⟩ := List.cons.inj heq
      exact absurd List.mem_cons_self h'
  | cons u front ih =>
    cases front' with
    | nil =>
      obtain ⟨rfl, -⟩ := List.cons.inj heq
      exact absurd List.mem_cons_self h
    | cons u' front' =>
      obtain ⟨rfl, hrest⟩ := List.cons.inj heq
      obtain ⟨rfl, hsame⟩ := ih (fun hmem => h (List.mem_cons_of_mem _ hmem))
        (fun hmem => h' (List.mem_cons_of_mem _ hmem)) hrest
      exact ⟨rfl, hsame⟩

/-- Without a `NUL` in the problem IDs, the key tells ID and command apart. -/
theorem requestKey_eq_iff {shellgeiLimit : ℕ}
    {inputShellgei inputShellgei' selectedProblem selectedProblem' : JsString}
    {submission submission' : RunningSubmissionState}
    (h : prepareSubmission shellgeiLimit inputShellgei selectedProblem = .running submission)
    (h' : prepareSubmission shellgeiLimit inputShellgei' selectedProblem' = .running submission')
    (hnul : 0x0000 ∉ selectedProblem) (hnul' : 0x0000 ∉ selectedProblem') :
    submission.requestKey = submission'.requestKey ↔
      submission.problemId = submission'.problemId ∧
        submission.shellgei = submission'.shellgei := by
  have hfields : ∀ {input selected : JsString} {prepared : RunningSubmissionState},
      prepareSubmission shellgeiLimit input selected = .running prepared →
      prepared.requestKey = selected ++ 0x0000 :: prepared.shellgei ∧
        prepared.problemId = selected := by
    intro input selected prepared hprepared
    rw [prepareSubmission] at hprepared
    split at hprepared
    · cases hprepared
    · split at hprepared
      · cases hprepared
      · rw [← PreparedSubmission.running.inj hprepared]
        exact ⟨rfl, rfl⟩
  obtain ⟨hkey, hproblem⟩ := hfields h
  obtain ⟨hkey', hproblem'⟩ := hfields h'
  rw [hkey, hkey', hproblem, hproblem']
  constructor
  · intro heq
    exact append_nul_inj hnul hnul' heq
  · rintro ⟨rfl, hshellgei⟩
    rw [hshellgei]

/-! ### The component -/

/-- In every interleaving of clicks, results and the unmounting. -/
theorem submission_state_machine {shellgeiLimit : ℕ} {s : State Response}
    {trace : Trace Response} (h : Run shellgeiLimit s trace) :
    -- the active submission is the one that is displayed as running
    (s.mounted = true →
      (s.activeSubmission.isSome ↔ ∃ submission, s.submissionState = .running submission) ∧
      ∀ active ∈ s.activeSubmission, active.version = s.submissionVersion ∧
        ∃ submission, s.submissionState = .running submission ∧
          active.requestKey = submission.requestKey) ∧
    -- a result is displayed of the last submission only
    (∀ state, s.submissionState = state →
      (∃ response shellgei problemId, state = .succeeded shellgei problemId response) ∨
        (∃ message, state = .failed message) →
      ∃ controller call, s.calls[controller]? = some call ∧ controller + 1 = s.calls.length ∧
        Shown trace controller call.submission state) ∧
    -- what is neither active nor displayed is aborted
    (∀ i call, s.calls[i]? = some call → call.aborted = true ∨ s.Holds i ∨
      Adopted trace i call.submission) ∧
    (∀ (i j : ℕ) (call call' : SubmitCall), s.calls[i]? = some call →
      s.calls[j]? = some call' → call.aborted = false → call.settled = false → call'.aborted = false →
      call'.settled = false → i = j) ∧
    -- a click on the active submission
    (∀ inputShellgei selectedProblem submission,
      prepareSubmission shellgeiLimit inputShellgei selectedProblem = .running submission →
      s.activeSubmission.map (·.requestKey) = some submission.requestKey →
      submitClick shellgeiLimit inputShellgei selectedProblem s = (s, [])) ∧
    -- the unmounting
    (∀ newer older effects, trace = newer ++ (.unmount, effects) :: older →
      ∀ entry ∈ newer, entry.2 = []) ∧
    ∀ inputShellgei inputShellgei' selectedProblem selectedProblem' submission submission',
      prepareSubmission shellgeiLimit inputShellgei selectedProblem = .running submission →
      prepareSubmission shellgeiLimit inputShellgei' selectedProblem' = .running submission' →
      0x0000 ∉ selectedProblem → 0x0000 ∉ selectedProblem' →
      (submission.requestKey = submission'.requestKey ↔
        submission.problemId = submission'.problemId ∧
          submission.shellgei = submission'.shellgei) := by
  have hinv := h.invariant
  refine ⟨?_, hinv.shown, ?_, ?_, ?_, fun newer older effects htrace => (h.unmounted htrace).2,
    fun _ _ _ _ _ _ hprepared hprepared' hnul hnul' =>
      requestKey_eq_iff hprepared hprepared' hnul hnul'⟩
  · intro hmounted
    constructor
    · constructor
      · intro hsome
        obtain ⟨active, hactive⟩ := Option.isSome_iff_exists.1 hsome
        obtain ⟨call, hcall, -⟩ := hinv.active active hactive
        exact ⟨call.submission, hcall.displayed⟩
      · rintro ⟨submission, hrunning⟩
        cases hactive : s.activeSubmission with
        | some active => rfl
        | none => exact absurd hrunning (hinv.inactive hactive hmounted submission)
    · intro active hactive
      obtain ⟨call, hcall, -⟩ := hinv.active active hactive
      exact ⟨hcall.active_version, call.submission, hcall.displayed, hcall.requestKey⟩
  · intro i call hcall
    rcases hinv.aborted i call hcall with hor | hor | hor
    · exact .inl hor
    · exact .inr (.inl hor)
    · exact .inr (.inr hor.2)
  · -- in flight and not aborted is the active one
    have hactive : ∀ i call, s.calls[i]? = some call → call.aborted = false →
        call.settled = false → s.Holds i := by
      intro i call hcall haborted hsettled
      rcases hinv.aborted i call hcall with hor | hor | hor
      · rw [haborted] at hor
        cases hor
      · exact hor
      · rw [hsettled] at hor
        cases hor.1
    intro i j call call' hcall hcall' haborted hsettled haborted' hsettled'
    obtain ⟨active, hmem, rfl⟩ := hactive i call hcall haborted hsettled
    obtain ⟨other, hother, rfl⟩ := hactive j call' hcall' haborted' hsettled'
    rw [Option.some.inj (hmem.symm.trans hother)]
  · intro inputShellgei selectedProblem submission hprepared hsame
    rw [submitClick, hprepared]
    exact if_pos hsame

/-- The first submission settles after the second one has replaced it. -/
theorem submission_state_machine_overtaken : ∃ (s : State Unit) (trace : Trace Unit),
    Run 1000 s trace ∧ s.calls.map (·.settled) = [true, false] ∧
      s.calls.map (·.aborted) = [true, false] ∧
      ∃ submission, s.submissionState = .running submission := by
  have hstart := @Run.start Unit 1000
  have hfirst := hstart.step (.click [0x0061] [0x0041] rfl)
  have hsecond := hfirst.step (.click [0x0062] [0x0041] rfl)
  have hsettled := hsecond.step (.settle 0 _ (.failed "Request cancelled") rfl rfl)
  obtain ⟨hactive, -⟩ := submission_state_machine hsettled
  exact ⟨_, _, hsettled, rfl, rfl, (hactive rfl).1.1 rfl⟩

end Runs

end FrontendRun
