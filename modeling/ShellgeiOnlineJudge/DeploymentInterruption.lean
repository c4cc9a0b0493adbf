/-
A stop request while the services are replaced (deploy/production.py).

systemd stops a deployment by SIGTERM, and `terminate` raises wherever the program
stands: in any action, before its effect, in the middle of it or after it.  What is
left of the execution from there on may go on in any way.

* `Plain` — no part of the update catches the exception, but `wait_smoke`;
* `reaches_waitSmoke` — an exception in `smoke` only costs `wait_smoke` one attempt;
* `stop_request_obeyed_iff` — the points at which a stop request leads to the failure
  record and the stop of the services.
-/
import ShellgeiOnlineJudge.ProductionDeployment
import ShellgeiOnlineJudge.ProgReach

namespace ProductionDeployment

open Utf8 RunnerProtocol

/-! ### Stop requests -/

/-- The answer is the exception of `terminate`. -/
def Answer.isInterrupted {α : Type} : Answer α → Bool
  | .raised .interrupted _ => true
  | _ => false

/-- The action is a request of the smoke test. -/
def Action.isRequest : Action → Bool
  | .request _ => true
  | _ => false

/-- The actions so far, with their replies. -/
abbrev Past := List (Prog.Event Action fun a => Reply a.Result)

/-- The smoke tests so far. -/
def attempts (past : Past) : ℕ := past.countP fun e => e.1.isRequest

/-- In an execution from the machine `m`, after the actions of `past`, the signal comes in the
action `a`; it leaves the machine `m'`, and `rest` is what is left of the execution. -/
inductive Signal (urlsplit : Text → Except Exc SplitResult) (d : Deployment) (m : Machine) :
    Past → Action → Machine → M Unit → Prop
  | terminate {past : Past} {m₁ m' : Machine} {a : Action} {k : Reply a.Result → M Unit}
      {effect : Effect} {containers : Containers}
      (hreach : Prog.Reaches sem m.fresh (execute urlsplit d) past m₁ (.act a k))
      (hsem : sem a m₁ ⟨.raised .interrupted effect, containers⟩ = some m') :
      Signal urlsplit d m past a m' (k ⟨.raised .interrupted effect, containers⟩)

/-- The point is one of `update`, between its stage "stop services" and the assignment that
resets the flag: the flag is about to be set, or it is set. -/
def InUpdate (a : Action) (m : Machine) : Prop :=
  a ≠ .stopAfterFailure ∧ (a = .setStopped true ∨ m.stopped = true)

/-- From the machine `m` on, the execution has raised, with the failure record in place and
an attempt to stop the services. -/
def Obeyed (d : Deployment) (m : Machine) (r : Except Exc Unit) (m' : Machine) : Prop :=
  (∃ error, r = .error error) ∧ m'.failed = some (.written ⟨d.sha, m'.phase⟩) ∧
    ∃ front ok, m'.issued = m.issued ++ [.stopAfterFailure front ok]

theorem attempts_append {front back : Past} (h : ∀ e ∈ front, e.1.isRequest = false) :
    attempts (front ++ back) = attempts back := by
  have hfront : attempts front = 0 := List.countP_eq_zero.2 fun e he => by simp [h e he]
  rw [attempts, List.countP_append]
  show attempts front + attempts back = attempts back
  omega

/-! ### Programs that do not catch the exception -/

/-- The actions that are no smoke test and do not remove the failure record. -/
def Action.isPlain : Action → Bool
  | .request _ | .unlinkFailed => false
  | _ => true

/-- Outside of a smoke test the exception is not caught. -/
abbrev Heeds {α : Type} (p : M α) : Prop :=
  Prog.Uncaught (fun a reply => a.isRequest = false ∧ reply.answer.isInterrupted = true)
    .interrupted p

/-- A program without a request that heeds every error. -/
structure Plain {α : Type} (p : M α) : Prop where
  only : Prog.Only (fun a => a.isPlain = true) p
  heeds : Heeds p

theorem Answer.eq_of_isInterrupted {α : Type} {answer : Answer α}
    (h : answer.isInterrupted = true) : ∃ effect, answer = .raised .interrupted effect := by
  cases answer with
  | ok value => cases h
  | raised error effect =>
    cases error with
    | interrupted => exact ⟨effect, rfl⟩
    | _ => cases h

theorem heeds_call (a : Action) : Heeds (call a) := by
  rintro ⟨answer, containers⟩
  refine ⟨fun ⟨_, hinterrupted⟩ => ?_, ?_⟩
  · obtain ⟨effect, rfl⟩ := Answer.eq_of_isInterrupted hinterrupted
    rfl
  · cases answer with
    | ok value => exact Prog.uncaught_pure value
    | raised error effect => exact Prog.uncaught_throw error

theorem only_call {P : Action → Prop} {a : Action} (ha : P a) : Prog.Only P (call a) := by
  refine ⟨ha, fun reply => ?_⟩
  obtain ⟨answer, containers⟩ := reply
  cases answer with
  | ok value => exact Prog.only_pure value
  | raised error effect => exact Prog.only_throw error

theorem plain_call {a : Action} (ha : a.isPlain = true) : Plain (call a) :=
  ⟨only_call ha, heeds_call a⟩

section

variable {α β : Type}

theorem plain_pure (a : α) : Plain (pure a : M α) :=
  ⟨Prog.only_pure a, Prog.uncaught_pure a⟩

theorem plain_throw (e : Exc) : Plain (throw e : M α) :=
  ⟨Prog.only_throw e, Prog.uncaught_throw e⟩

theorem plain_unwrap (r : Except Exc α) : Plain (Prog.unwrap r : M α) :=
  ⟨Prog.only_unwrap r, Prog.uncaught_unwrap r⟩

theorem Plain.bind {p : M α} {f : α → M β} (hp : Plain p) (hf : ∀ a, Plain (f a)) :
    Plain (p >>= f) :=
  ⟨hp.only.bind fun a => (hf a).only, hp.heeds.bind fun a => (hf a).heeds⟩

theorem Plain.tryCatch {p : M α} {f : Exc → M α} (hp : Plain p)
    (he : f .interrupted = throw .interrupted) (hf : ∀ e, Plain (f e)) :
    Plain (MonadExcept.tryCatch p f) :=
  ⟨hp.only.tryCatch fun e => (hf e).only, hp.heeds.tryCatch he fun e => (hf e).heeds⟩

theorem plain_ite {c : Prop} [Decidable c] {p q : M α} (hp : Plain p) (hq : Plain q) :
    Plain (if c then p else q) :=
  ⟨Prog.only_ite (fun _ => hp.only) fun _ => hq.only, Prog.uncaught_ite hp.heeds hq.heeds⟩

theorem plain_raiseIf (condition : Bool) (error : Exc) : Plain (raiseIf condition error) :=
  plain_ite (plain_throw error) (plain_pure ())

end

theorem plain_stage (name : Text) : Plain (stage name) :=
  (plain_call rfl).bind fun _ => plain_call rfl

theorem plain_unmanagedOverride : Plain unmanagedOverride := by
  refine (plain_call rfl).bind fun present => plain_ite ?_ (plain_pure false)
  refine (plain_call rfl).bind fun symlink => plain_ite (plain_pure true) ?_
  exact (plain_call rfl).bind fun managed => plain_pure (!managed)

theorem plain_checkHost : Plain checkHost := by
  refine (plain_call rfl).bind fun failed => (plain_raiseIf _ _).bind fun _ => ?_
  refine (plain_call rfl).bind fun uid => (plain_raiseIf _ _).bind fun _ => ?_
  refine (plain_call rfl).bind fun uid => (plain_call rfl).bind fun configured => ?_
  refine (plain_raiseIf _ _).bind fun _ => ?_
  refine (plain_call rfl).bind fun _ => (plain_call rfl).bind fun _ => ?_
  refine (plain_call rfl).bind fun info => (plain_raiseIf _ _).bind fun _ => ?_
  refine (plain_call rfl).bind fun status => (plain_raiseIf _ _).bind fun _ => ?_
  exact plain_unmanagedOverride.bind fun unmanaged => plain_raiseIf _ _

theorem plain_readRecord (d : Deployment) : Plain (readRecord d) := by
  refine (plain_call rfl).bind fun record => (plain_raiseIf _ _).bind fun _ => ?_
  refine (plain_call rfl).bind fun digest => (plain_raiseIf _ _).bind fun _ => ?_
  exact plain_pure record

theorem plain_fetchedSha : Plain fetchedSha := (plain_call rfl).bind fun _ => plain_call rfl

theorem plain_runningDatabase (d : Deployment) (previousSha : Text) :
    Plain (runningDatabase d previousSha) := by
  refine (plain_call rfl).bind fun _ => (plain_call rfl).bind fun present => ?_
  refine (plain_call rfl).bind fun oldConfig => (plain_call rfl).bind fun id => ?_
  refine (plain_call rfl).bind fun db => (plain_raiseIf _ _).bind fun _ => ?_
  exact (plain_raiseIf _ _).bind fun _ => plain_pure _

theorem plain_checkEntries (record : BuildRecord) (old : ImageConfig)
    (entries : List (Text × Text)) : Plain (checkEntries record old entries) := by
  induction entries with
  | nil => exact plain_pure ()
  | cons entry entries ih =>
    refine (plain_call rfl).bind fun inspected => (plain_raiseIf _ _).bind fun _ => ?_
    exact (plain_raiseIf _ _).bind fun _ => ih

theorem plain_checkImages (record : BuildRecord) (oldDb : Text) :
    Plain (checkImages record oldDb) :=
  (plain_call rfl).bind fun old => plain_checkEntries record old record.imageIds

theorem plain_stopServices (d : Deployment) : Plain (stopServices d) := by
  refine (plain_stage _).bind fun _ => (plain_call rfl).bind fun _ => ?_
  refine (plain_call rfl).bind fun _ => (plain_call rfl).bind fun _ => ?_
  exact (plain_call rfl).bind fun _ => plain_call rfl

theorem plain_waitDatabase (n : ℕ) : Plain (waitDatabase n) := by
  induction n with
  | zero => exact plain_throw _
  | succ n ih =>
    refine Plain.bind (Plain.tryCatch ?_ rfl fun error => ?_) fun ready => ?_
    · exact (plain_call rfl).bind fun _ => plain_pure true
    · split
      · exact (plain_call rfl).bind fun _ => plain_pure false
      · exact plain_throw _
    · exact plain_ite (plain_pure ()) ih

theorem plain_migrateDatabase : Plain migrateDatabase := by
  refine (plain_stage _).bind fun _ => (plain_call rfl).bind fun _ => ?_
  exact (plain_waitDatabase 30).bind fun _ => plain_call rfl

theorem plain_compareImages (record : BuildRecord) (names : List Text) :
    Plain (compareImages record names) := by
  induction names with
  | nil => exact plain_pure ()
  | cons name names ih =>
    refine (plain_call rfl).bind fun id => (plain_call rfl).bind fun actual => ?_
    exact (plain_unwrap _).bind fun image => (plain_raiseIf _ _).bind fun _ => ih

theorem plain_startServices (record : BuildRecord) : Plain (startServices record) := by
  refine (plain_stage _).bind fun _ => (plain_call rfl).bind fun _ => ?_
  exact plain_compareImages record comparedServices

theorem plain_keepTransferBasis : Plain keepTransferBasis := by
  refine Plain.tryCatch ?_ rfl fun error => ?_
  · refine (plain_call rfl).bind fun _ => Plain.bind ?_ fun _ => plain_call rfl
    refine (plain_call rfl).bind fun info => (plain_call rfl).bind fun uid => ?_
    exact plain_raiseIf _ _
  · split
    · exact (plain_call rfl).bind fun _ => plain_call rfl
    · exact (plain_call rfl).bind fun _ => plain_call rfl
    · exact (plain_call rfl).bind fun _ => plain_call rfl
    · exact plain_throw _

section

variable (urlsplit : Text → Except Exc SplitResult)

theorem plain_prepareCandidate (d : Deployment) (record : BuildRecord) (db : Database) :
    Plain (prepareCandidate urlsplit d record db) := by
  refine (plain_unwrap _).bind fun override => (plain_call rfl).bind fun _ => ?_
  refine (plain_call rfl).bind fun _ => (plain_call rfl).bind fun config => ?_
  refine (plain_raiseIf _ _).bind fun _ => (plain_unwrap _).bind fun parsed => ?_
  exact (plain_raiseIf _ _).bind fun _ => plain_pure _

end

/-! ### The smoke tests -/

/-- What `smoke` asks of the answer -/
def SmokeBody.isAccepted (body : SmokeBody) : Bool :=
  body.apiVersion = 3 && body.status = "completed".toList && body.exitCode = some 0 &&
    body.stdout = "smoke-ok".toList && body.persistence = "saved".toList &&
    body.submissionId.any fun id => decide (0 < id)

/-- After an attempt that failed, with `n` attempts left -/
def retry (origin : Text) (n : ℕ) : M Unit := do
  call (.sleep 5)
  waitSmoke origin n

/-- What follows an answer to the smoke test, with `n` attempts left -/
def afterRequest (origin : Text) (n : ℕ) : Answer SmokeBody → M Unit
  | .ok body => if body.isAccepted then pure () else retry origin n
  | .raised .keyboardInterrupt _ => throw .keyboardInterrupt
  | .raised _ _ => retry origin n

theorem retry_eq (origin : Text) (n : ℕ) :
    ((call (.sleep 5) >>= fun _ => pure false) >>= fun answered =>
      if answered then pure () else waitSmoke origin n) = retry origin n := by
  refine congrArg (Prog.act (Action.sleep 5)) (funext fun reply => ?_)
  obtain ⟨answer, containers⟩ := reply
  cases answer with
  | ok value => rfl
  | raised error effect => rfl

theorem waitSmoke_succ (origin : Text) (n : ℕ) : waitSmoke origin (n + 1) =
    .act (.request (origin ++ "/api/v3/submissions".toList))
      fun reply => afterRequest origin n reply.answer := by
  refine congrArg (Prog.act _) (funext fun reply => ?_)
  obtain ⟨answer, containers⟩ := reply
  cases answer with
  | ok body =>
    show Prog.handle (Prog.handle (Prog.handle (raiseIf (!body.isAccepted) _) _) _) _ = _
    simp only [afterRequest]
    cases body.isAccepted with
    | false => exact retry_eq origin n
    | true => rfl
  | raised error effect =>
    cases error with
    | keyboardInterrupt => rfl
    | _ => exact retry_eq origin n

theorem heeds_waitSmoke (origin : Text) (n : ℕ) : Heeds (waitSmoke origin n) := by
  induction n with
  | zero => exact Prog.uncaught_throw _
  | succ n ih =>
    have hretry : Heeds (retry origin n) := (heeds_call _).bind fun _ => ih
    rw [waitSmoke_succ]
    rintro ⟨answer, containers⟩
    refine ⟨fun hraises => absurd hraises.1 (by simp [Action.isRequest]), ?_⟩
    cases answer with
    | ok body => exact Prog.uncaught_ite (Prog.uncaught_pure ()) hretry
    | raised error effect =>
      cases error with
      | keyboardInterrupt => exact Prog.uncaught_throw _
      | _ => exact hretry

/-- A request and a pause leave the machine as it is. -/
theorem sem_pause {a : Action} {m m' : Machine} {reply : Reply a.Result}
    (h : sem a m reply = some m') (ha : a.isRequest = true ∨ a = .sleep 5) : m' = m := by
  obtain ⟨_, _, rfl⟩ := step_of_sem h
  rcases ha with ha | rfl
  · cases a with
    | request url => rfl
    | _ => cases ha
  · rfl

/-- In the middle of the smoke tests: an exception of the handler is a failed attempt. -/
theorem reaches_waitSmoke {origin : Text} {n : ℕ} {m m₁ : Machine} {past : Past} {a : Action}
    {k : Reply a.Result → M Unit}
    (h : Prog.Reaches sem m (waitSmoke origin n) past m₁ (.act a k)) (ha : a.isRequest = true) :
    ∃ j, attempts past + (j + 1) = n ∧ m₁ = m ∧
      ∀ effect containers, k ⟨.raised .interrupted effect, containers⟩ = retry origin j := by
  induction n generalizing past m with
  | zero => cases h
  | succ n ih =>
    rw [waitSmoke_succ] at h
    cases h with
    | refl => exact ⟨n, Nat.zero_add _, rfl, fun _ _ => rfl⟩
    | @act _ m₂ _ _ _ reply events _ hsem hrest =>
      obtain rfl := sem_pause hsem (.inl rfl)
      -- a signal in a later attempt, after the pause
      have hretry : ∀ {events}, Prog.Reaches sem m₂ (retry origin n) events m₁ (.act a k) →
          ∃ j, attempts events + (j + 1) = n ∧ m₁ = m₂ ∧
            ∀ effect containers, k ⟨.raised .interrupted effect, containers⟩ = retry origin j := by
        intro events hretry
        have hsleep : Prog.Only (fun a => a = .sleep 5) (call (.sleep 5)) := only_call rfl
        have hnot : ¬ a = .sleep 5 := by
          rintro rfl
          cases ha
        obtain ⟨front, back, _, m₃, rfl, hfront, hruns, hback⟩ := hretry.skip hsleep hnot
        have hsame := (hsleep.wp (I := fun m => m = m₂)
          (fun _ _ _ _ ha hm hsem => (sem_pause hsem (.inr ha)).trans hm) rfl).of_runs hruns
        obtain rfl : m₃ = m₂ := hsame
        rw [attempts_append fun e he => by rw [hfront e he]; rfl]
        exact ih hback
      have hcount : ∀ url (reply : Reply SmokeBody) events,
          attempts (⟨.request url, reply⟩ :: events) = attempts events + 1 := fun _ _ _ =>
        List.countP_cons_of_pos rfl
      -- the attempt has failed, or the tests would be over
      have hafter : ∃ j, attempts events + (j + 1) = n ∧ m₁ = m₂ ∧
          ∀ effect containers, k ⟨.raised .interrupted effect, containers⟩ = retry origin j := by
        obtain ⟨answer, containers⟩ := reply
        cases answer with
        | ok body =>
          simp only [afterRequest] at hrest
          split at hrest
          · cases hrest
          · exact hretry hrest
        | raised error effect =>
          cases error with
          | keyboardInterrupt => cases hrest
          | _ => exact hretry hrest
      obtain ⟨j, hj, hrest⟩ := hafter
      refine ⟨j, ?_, hrest⟩
      rw [hcount]
      omega

/-! ### Where the smoke tests stand -/

/-- What follows the smoke tests -/
def complete (record : BuildRecord) : M Unit := do
  call (.writeCurrent record)
  call .unlinkFailed
  call (.setStopped false)
  stage "success".toList
  keepTransferBasis

theorem isRequest_of_isPlain {a : Action} (ha : a.isPlain = true) : a.isRequest = false := by
  cases a with
  | request url => cases ha
  | _ => rfl

theorem complete_only (record : BuildRecord) :
    Prog.Only (fun a => a.isRequest = false) (complete record) := by
  have hcall : ∀ a : Action, a.isRequest = false →
      Prog.Only (fun a => a.isRequest = false) (call a) := fun _ ha => only_call ha
  refine (hcall _ rfl).bind fun _ => (hcall _ rfl).bind fun _ => (hcall _ rfl).bind fun _ => ?_
  refine ((plain_stage _).only.mono fun _ => isRequest_of_isPlain).bind fun _ => ?_
  exact plain_keepTransferBasis.only.mono fun _ => isRequest_of_isPlain

theorem heeds_complete (record : BuildRecord) : Heeds (complete record) := by
  refine (heeds_call _).bind fun _ => (heeds_call _).bind fun _ => (heeds_call _).bind fun _ => ?_
  exact (plain_stage _).heeds.bind fun _ => plain_keepTransferBasis.heeds

section

variable {m m' m₁ : Machine} {past : Past} {a : Action}

theorem Plain.skip {α β : Type} {p : M α} {f : α → M β} {k : Reply a.Result → M β} (hp : Plain p)
    (h : Prog.Reaches sem m (p >>= f) past m₁ (.act a k)) (ha : a.isRequest = true) :
    ∃ back value m₂, attempts past = attempts back ∧ Prog.Runs sem m p (.ok value) m₂ ∧
      Prog.Reaches sem m₂ (f value) back m₁ (.act a k) := by
  have hnot : ¬ a.isPlain = true := fun hplain => by
    rw [isRequest_of_isPlain hplain] at ha
    cases ha
  obtain ⟨front, back, value, m₂, rfl, hfront, hruns, hback⟩ := h.skip hp.only hnot
  exact ⟨back, value, m₂, attempts_append fun e he => isRequest_of_isPlain (hfront e he), hruns,
    hback⟩

theorem Plain.reaches_eq_false {α : Type} {p : M α} {k : Reply a.Result → M α} (hp : Plain p)
    (h : Prog.Reaches sem m p past m₁ (.act a k)) (ha : a.isRequest = true) : False := by
  rw [isRequest_of_isPlain (hp.only.reaches h).1.1] at ha
  cases ha

theorem Step.failed {answer : Answer a.Result} (h : Step a m answer m') (ha : a.isPlain = true)
    (hm : m.failed.isSome = true) : m'.failed.isSome = true := by
  obtain ⟨_, containers, rfl⟩ := h
  have hsame : ∀ {part after : Machine}, part.failed.isSome = true → after.failed.isSome = true →
      (m.applied part after answer).failed.isSome = true := fun hpart hafter =>
    applied_cases (P := fun m => m.failed.isSome = true) hm hpart hafter answer
  cases a with
  | request _ | unlinkFailed => cases ha
  | writeFailed _ => exact hsame rfl rfl
  | setPhase _ | setStopped _ | setCommand _ | setCommandLast _ | writeCandidate _ | replaceOverride
  | writeCurrent _ => exact hsame hm hm
  | recordFailed _ => rfl
  | _ => exact hm

theorem Plain.failed {α : Type} {p : M α} {r : Except Exc α} (hp : Plain p)
    (hruns : Prog.Runs sem m p r m') (hm : m.failed.isSome = true) : m'.failed.isSome = true :=
  (hp.only.wp (I := fun m => m.failed.isSome = true)
    (fun _ _ _ _ ha hm hsem => (step_of_sem hsem).failed ha hm) hm).of_runs hruns

theorem stopServices_failed (d : Deployment) (m : Machine) :
    Prog.Wp sem (stopServices d)
      (Post (fun _ m' => m'.failed.isSome = true) fun _ => True) m := by
  refine (Quiet.wp (quiet_stage (by decide)) m).bind (fun _ m₁ _ => ?_) fun _ _ _ => trivial
  refine wp_call_bind (fun _ m₂ _ => ?_) fun _ _ _ _ => trivial
  refine wp_call_bind (fun _ m₃ hstep => ?_) fun _ _ _ _ => trivial
  have hfailed : m₃.failed.isSome = true := by
    obtain ⟨_, _, rfl⟩ := hstep
    rfl
  refine wp_call_bind (fun _ m₄ hstep₄ => ?_) fun _ _ _ _ => trivial
  refine wp_call_bind (fun _ m₅ hstep₅ => ?_) fun _ _ _ _ => trivial
  refine wp_call (fun _ _ hstep₆ => ?_) fun _ _ _ _ => trivial
  exact hstep₆.failed rfl (hstep₅.failed rfl (hstep₄.failed rfl hfailed))

/-- The program stands at a smoke test of the update: the exception of the handler leaves it
with one attempt less. -/
def Smoking (past : Past) (m : Machine) {a : Action} (k : Reply a.Result → M Unit) : Prop :=
  m.failed.isSome = true ∧ ∃ origin record j, attempts past + (j + 1) = 5 ∧
    ∀ effect containers, k ⟨.raised .interrupted effect, containers⟩ =
      retry origin j >>= fun _ => complete record

theorem reaches_finishUpdate {record : BuildRecord} {origin : Text} {k : Reply a.Result → M Unit}
    (h : Prog.Reaches sem m (finishUpdate record origin) past m₁ (.act a k))
    (ha : a.isRequest = true) (hm : m.failed.isSome = true) : Smoking past m₁ k := by
  obtain ⟨back, _, m₂, hattempts, hruns, hback⟩ := (plain_stage _).skip h ha
  have hm₂ := (plain_stage _).failed hruns hm
  have hback : Prog.Reaches sem m₂ (waitSmoke origin 5 >>= fun _ => complete record) back m₁
    (.act a k) := hback
  rcases hback.of_bind with ⟨k', hk, hsmoke⟩ | ⟨_, _, _, _, -, -, hcomplete⟩
  · obtain ⟨j, hj, rfl, hretry⟩ := reaches_waitSmoke hsmoke ha
    refine ⟨hm₂, origin, record, j, by omega, fun effect containers => ?_⟩
    rw [hk, hretry]
  · have hnot : a.isRequest = false := ((complete_only record).reaches hcomplete).1.1
    rw [ha] at hnot
    cases hnot

theorem reaches_replaceServices {d : Deployment} {record : BuildRecord} {origin : Text}
    {k : Reply a.Result → M Unit}
    (h : Prog.Reaches sem m (replaceServices d record origin) past m₁ (.act a k))
    (ha : a.isRequest = true) : Smoking past m₁ k := by
  obtain ⟨past₂, _, m₂, h₂, hstop, h⟩ := (plain_stopServices d).skip h ha
  obtain ⟨past₃, _, m₃, h₃, hmigrate, h⟩ := plain_migrateDatabase.skip h ha
  obtain ⟨past₄, _, m₄, h₄, hstart, h⟩ := (plain_startServices record).skip h ha
  have hfailed : m₂.failed.isSome = true := (stopServices_failed d m).of_runs hstop
  have hfailed₄ := (plain_startServices record).failed hstart
    (plain_migrateDatabase.failed hmigrate hfailed)
  rw [Smoking, show attempts past = attempts past₄ by omega]
  exact reaches_finishUpdate h ha hfailed₄

end

section

variable (urlsplit : Text → Except Exc SplitResult) {m m₁ : Machine} {past : Past} {a : Action}

theorem reaches_update {d : Deployment} {k : Reply a.Result → M Unit}
    (h : Prog.Reaches sem m (update urlsplit d) past m₁ (.act a k))
    (ha : a.isRequest = true) : Smoking past m₁ k := by
  obtain ⟨past₁, _, _, h₁, -, h⟩ := plain_checkHost.skip h ha
  obtain ⟨past₂, record, _, h₂, -, h⟩ := (plain_readRecord d).skip h ha
  obtain ⟨past₃, previousSha, _, h₃, -, h⟩ := (plain_call rfl).skip h ha
  obtain ⟨past₄, latest, _, h₄, -, h⟩ := plain_fetchedSha.skip h ha
  split at h
  · exact ((plain_stage _).reaches_eq_false h ha).elim
  obtain ⟨past₅, db, _, h₅, -, h⟩ := (plain_runningDatabase d previousSha).skip h ha
  obtain ⟨past₆, _, _, h₆, -, h⟩ := (plain_call rfl).skip h ha
  obtain ⟨past₇, _, _, h₇, -, h⟩ := (plain_checkImages record db.image).skip h ha
  obtain ⟨past₈, latest, _, h₈, -, h⟩ := plain_fetchedSha.skip h ha
  split at h
  · exact ((plain_stage _).reaches_eq_false h ha).elim
  obtain ⟨past₉, _, _, h₉, -, h⟩ := (plain_call rfl).skip h ha
  obtain ⟨past₁₀, origin, _, h₁₀, -, h⟩ := (plain_prepareCandidate urlsplit d record db).skip h ha
  rw [Smoking, show attempts past = attempts past₁₀ by omega]
  exact reaches_replaceServices h ha

theorem heeds_update (d : Deployment) : Heeds (update urlsplit d) := by
  refine plain_checkHost.heeds.bind fun _ => (plain_readRecord d).heeds.bind fun record => ?_
  refine (heeds_call _).bind fun previousSha => plain_fetchedSha.heeds.bind fun latest => ?_
  refine Prog.uncaught_ite (plain_stage _).heeds ?_
  refine (plain_runningDatabase d previousSha).heeds.bind fun db => (heeds_call _).bind fun _ => ?_
  refine (plain_checkImages record db.image).heeds.bind fun _ => ?_
  refine plain_fetchedSha.heeds.bind fun latest => Prog.uncaught_ite (plain_stage _).heeds ?_
  refine (heeds_call _).bind fun _ => ?_
  refine (plain_prepareCandidate urlsplit d record db).heeds.bind fun origin => ?_
  refine (plain_stopServices d).heeds.bind fun _ => plain_migrateDatabase.heeds.bind fun _ => ?_
  refine (plain_startServices record).heeds.bind fun _ => (plain_stage _).heeds.bind fun _ => ?_
  exact (heeds_waitSmoke origin 5).bind fun _ => heeds_complete record

end

/-! ### After the signal -/

/-- The handler of `execute` -/
def afterFailure (d : Deployment) (error : Exc) : M Unit := do
  failStop d
  throw error

/-- An action of the failure handler that can raise is its stop command. -/
theorem reaches_failStop {d : Deployment} {m m₁ m' : Machine} {past : Past} {a : Action}
    {k : Reply a.Result → M Unit} {error : Exc} {effect : Effect} {containers : Containers}
    (h : Prog.Reaches sem m (failStop d) past m₁ (.act a k))
    (hsem : sem a m₁ ⟨.raised error effect, containers⟩ = some m') : a = .stopAfterFailure := by
  have honly : Prog.Only (fun a => a = .isStopped ∨ a = .recordFailed d.sha ∨
      a = .stopAfterFailure) (failStop d) := by
    refine (only_call (.inl rfl)).bind fun stopped => Prog.only_ite (fun _ => ?_) fun _ =>
      Prog.only_pure ()
    refine ((only_call (.inr (.inl rfl))).tryCatch fun error => ?_).bind fun _ =>
      (only_call (.inr (.inr rfl))).tryCatch fun error => ?_
    · split
      · exact Prog.only_pure ()
      · exact Prog.only_pure ()
      · exact Prog.only_throw _
    · split
      · exact Prog.only_throw _
      · exact Prog.only_pure ()
  rcases (honly.reaches h).1.1 with rfl | rfl | rfl
  · cases (step_of_sem hsem).1
  · cases (step_of_sem hsem).1
  · rfl

/-- The failure handler has written its record, and issued no command yet. -/
def Written (d : Deployment) (m : Machine) (r : Except Exc Unit) (m' : Machine) : Prop :=
  r = .ok () ∧ m'.failed = some (.written ⟨d.sha, m'.phase⟩) ∧ m'.issued = m.issued

theorem failStop_obeyed (d : Deployment) {m : Machine} (h : m.stopped = true) (error : Exc) :
    Prog.Wp sem (afterFailure d error) (Obeyed d m) m := by
  have hfail : Prog.Wp sem (failStop d) (fun _ m' =>
      m'.failed = some (.written ⟨d.sha, m'.phase⟩) ∧
        ∃ front ok, m'.issued = m.issued ++ [.stopAfterFailure front ok]) m := by
    refine wp_call_bind (fun stopped m₁ hstep => ?_) fun _ _ _ hstep => nomatch hstep.1
    have hstopped : stopped = true := (of_decide_eq_true hstep.1).trans h
    obtain ⟨_, _, rfl⟩ := hstep
    rw [if_pos hstopped]
    -- the record is written, since writes to the state directory succeed
    have hrecord : Prog.Wp sem (call (.recordFailed d.sha)) (Written d m) m := by
      refine wp_call (fun _ m' hstep => ?_) fun _ _ _ hstep => nomatch hstep.1
      obtain ⟨_, _, rfl⟩ := hstep
      exact ⟨rfl, rfl, rfl⟩
    refine Prog.Wp.bind (Q := Written d m)
      (hrecord.tryCatch (fun _ _ hm' => hm') fun _ _ hm' => nomatch hm'.1)
      (fun _ m₂ hm₂ => ?_) fun _ _ hm' => nomatch hm'.1
    obtain ⟨_, hfailed, hissued⟩ := hm₂
    -- the stop command is issued, and may fail
    have hstop : Prog.Wp sem (call .stopAfterFailure) (fun _ m' =>
        m'.failed = some (.written ⟨d.sha, m'.phase⟩) ∧
          ∃ front ok, m'.issued = m.issued ++ [.stopAfterFailure front ok]) m₂ := by
      rw [← hissued]
      refine wp_call (fun _ _ hstep => ?_) fun _ _ _ hstep => ?_
      · obtain ⟨_, _, rfl⟩ := hstep
        exact ⟨hfailed, m₂.command, true, rfl⟩
      · obtain ⟨_, _, rfl⟩ := hstep
        exact ⟨hfailed, m₂.command, false, rfl⟩
    refine hstop.tryCatch (fun _ _ hm' => hm') fun error m' hm' => ?_
    split
    · exact hm'
    · exact hm'
  exact hfail.bind (fun _ _ hm' => ⟨⟨error, rfl⟩, hm'⟩) fun e _ hm' => ⟨⟨e, rfl⟩, hm'⟩

section

variable {urlsplit : Text → Except Exc SplitResult} {d : Deployment} {m m' : Machine}
  {past : Past} {a : Action} {rest : M Unit}

/-- What is left of an execution after a signal during the update. -/
theorem Signal.rest_eq (h : Signal urlsplit d m past a m' rest) (ha : a ≠ .stopAfterFailure) :
    (a.isRequest = false ∧ rest = afterFailure d .interrupted) ∨
      (a.isRequest = true ∧ m'.failed.isSome = true ∧
        ∃ origin record j, attempts past + (j + 1) = 5 ∧
          rest = MonadExcept.tryCatch (retry origin j >>= fun _ => complete record)
            (afterFailure d)) := by
  obtain ⟨hreach, hsem⟩ := h
  rcases hreach.of_tryCatch with ⟨k', hk, hbody⟩ | ⟨_, _, error, m₁, -, -, hhandler⟩
  · rw [hk]
    cases hrequest : a.isRequest with
    | false =>
      have hheeds := (plain_stage "preflight".toList).heeds.bind fun _ => heeds_update urlsplit d
      refine .inl ⟨rfl, ?_⟩
      rw [hheeds.reaches hbody ⟨hrequest, rfl⟩]
      rfl
    | true =>
      obtain ⟨back, _, m₂, hattempts, -, hback⟩ := (plain_stage _).skip hbody hrequest
      obtain ⟨hfailed, origin, record, j, hj, hrest⟩ := reaches_update urlsplit hback hrequest
      refine .inr ⟨rfl, ?_, origin, record, j, by omega, ?_⟩
      · rw [sem_pause hsem (.inl hrequest)]
        exact hfailed
      · rw [hrest]
        rfl
  · rcases hhandler.of_bind with ⟨k', -, hfail⟩ | ⟨_, _, _, _, -, -, hthrow⟩
    · exact absurd (reaches_failStop hfail hsem) ha
    · cases hthrow

/-- The smoke test fails in its last attempt. -/
theorem retry_zero_wp (origin : Text) (record : BuildRecord) (m : Machine) :
    Prog.Wp sem (retry origin 0 >>= fun _ => complete record)
      (fun r m' => (∃ error, r = .error error) ∧ m' = m) m := by
  refine Prog.Wp.bind (Q := fun r m' => (∃ error, r = .error error) ∧ m' = m) ?_
    (fun _ _ hr => nomatch hr.1) fun error _ hr => ⟨⟨error, rfl⟩, hr.2⟩
  refine wp_call_bind (fun _ m' hstep => ?_) fun error _ m' hstep => ?_
  · obtain ⟨_, _, rfl⟩ := hstep
    exact ⟨⟨_, rfl⟩, rfl⟩
  · obtain ⟨_, _, rfl⟩ := hstep
    exact ⟨⟨error, rfl⟩, rfl⟩

theorem complete_may (record : BuildRecord) (hm : m.failed.isSome = true) :
    Prog.May sem (complete record) (fun r _ => r = .ok ()) m := by
  refine Prog.may_act ⟨.ok (), m.containers⟩ _ rfl ?_
  refine Prog.may_act ⟨.ok (), m.containers⟩ _ (if_pos hm) ?_
  refine Prog.may_act ⟨.ok (), m.containers⟩ _ rfl ?_
  refine Prog.may_act ⟨.ok (), m.containers⟩ _ rfl ?_
  refine Prog.may_act ⟨.ok (), m.containers⟩ _ rfl ?_
  refine Prog.may_act ⟨.ok (), m.containers⟩ _ rfl ?_
  refine Prog.may_act ⟨.ok ⟨true, false, 1000, 0o700⟩, m.containers⟩ _ rfl ?_
  refine Prog.may_act ⟨.ok 1000, m.containers⟩ _ rfl ?_
  refine Prog.may_act ⟨.ok (), m.containers⟩ _ rfl ?_
  exact Prog.may_done rfl

/-- The answer of a deployment that works -/
def acceptedBody : SmokeBody :=
  ⟨3, "completed".toList, some 0, "smoke-ok".toList, "saved".toList, some 1⟩

/-- With an attempt left, the update may still succeed. -/
theorem retry_may (origin : Text) (record : BuildRecord) (j : ℕ) (hm : m.failed.isSome = true) :
    Prog.May sem (retry origin (j + 1) >>= fun _ => complete record) (fun r _ => r = .ok ()) m := by
  have hsmoke : Prog.May sem (waitSmoke origin (j + 1) >>= fun _ => complete record)
      (fun r _ => r = .ok ()) m := by
    have haccepted : acceptedBody.isAccepted = true := by decide
    rw [waitSmoke_succ]
    refine Prog.may_act ⟨.ok acceptedBody, m.containers⟩ m rfl ?_
    show Prog.May sem (afterRequest origin j (.ok acceptedBody) >>= _) _ m
    rw [afterRequest, if_pos haccepted]
    exact complete_may record hm
  exact Prog.may_act ⟨.ok (), m.containers⟩ m rfl hsmoke

/-- A stop request during the update leads to an exception of the execution, with the failure
record and an attempt to stop the services, whatever else happens, unless it comes just before
the flag is set or in one of the first four smoke tests. -/
theorem stop_request_obeyed_iff (h : Signal urlsplit d m past a m' rest) (hupdate : InUpdate a m') :
    (∀ r m'', Prog.Runs sem m' rest r m'' → Obeyed d m' r m'') ↔
      m'.stopped = true ∧ (a.isRequest = true → attempts past = 4) := by
  constructor
  · intro hobeyed
    rcases h.rest_eq hupdate.1 with ⟨hrequest, rfl⟩ | ⟨hrequest, hfailed, origin, record, j, hj, rfl⟩
    · refine ⟨?_, fun htrue => by simp [hrequest] at htrue⟩
      -- without the flag the failure handler does nothing
      by_contra hstopped
      have hstopped : m'.stopped = false := by simpa using hstopped
      have hruns : Prog.Runs sem m' (afterFailure d .interrupted) (.error .interrupted) m' := by
        have hsem : sem .isStopped m' ⟨.ok false, m'.containers⟩ = some m' :=
          if_pos (decide_eq_true hstopped.symm)
        exact .act hsem .done
      obtain ⟨-, -, front, ok, hissued⟩ := hobeyed _ _ hruns
      simp at hissued
    · have hstopped : m'.stopped = true := by
        rcases hupdate.2 with rfl | hstopped
        · cases hrequest
        · exact hstopped
      refine ⟨hstopped, fun _ => ?_⟩
      cases j with
      | zero => omega
      | succ j =>
        -- with an attempt left the smoke test may still pass
        obtain ⟨r, m'', hruns, rfl⟩ := retry_may origin record j hfailed
        obtain ⟨⟨error, herror⟩, -⟩ := hobeyed _ _ hruns.tryCatch_ok
        cases herror
  · rintro ⟨hstopped, hlast⟩
    refine Prog.wp_iff.1 ?_
    rcases h.rest_eq hupdate.1 with ⟨-, rfl⟩ | ⟨hrequest, -, origin, record, j, hj, rfl⟩
    · exact failStop_obeyed d hstopped .interrupted
    -- the signal in the last attempt is its error
    · have hattempts := hlast hrequest
      obtain rfl : j = 0 := by omega
      refine (retry_zero_wp origin record m').tryCatch (fun _ _ hr => nomatch hr.1)
        fun error m'' hr => ?_
      obtain ⟨-, rfl⟩ := hr
      exact failStop_obeyed d hstopped error

end

/-! A deployment in which everything works, but for the signal. -/

/-- Every action succeeds. -/
def steadyAnswer (m : Machine) : (a : Action) → Answer a.Result
  | .compose .migrate => .ok ()
  | a => sampleAnswer m a

/-- The reviewed images run. -/
def steadyHost : Machine :=
  { sampleHost with
    containers := ⟨id, fun id => (lookup sampleRecord.imageIds id).toOption.getD []⟩ }

/-- The replies of a host where every action succeeds. -/
def steadyReply (a : Action) (m : Machine) : Reply a.Result := ⟨steadyAnswer m a, m.containers⟩

/-- After `n` actions -/
def steadyRun (n : ℕ) : Machine × M Unit :=
  Prog.run sem steadyReply n (steadyHost.fresh, execute sampleSplit sampleDeployment)

/-- The signal arrives before the action. -/
def signalReply (a : Action) : Reply a.Result := ⟨.raised .interrupted .none, steadyHost.containers⟩

/-- The signal comes after `n` actions. -/
theorem signal_steadyRun (n : ℕ) {a : Action} {m' : Machine} (hhead : (steadyRun n).2.head = some a)
    (hsem : sem a (steadyRun n).1 (signalReply a) = some m') :
    ∃ past, Signal sampleSplit sampleDeployment steadyHost past a m'
      ((steadyRun n).2.resume signalReply) := by
  obtain ⟨past, hreach⟩ := Prog.reaches_run steadyReply n steadyHost.fresh
    (execute sampleSplit sampleDeployment)
  obtain ⟨k, hk, hresume⟩ := Prog.eq_act_of_head hhead
  rw [hresume]
  exact ⟨past, .terminate (hk ▸ hreach) hsem⟩

/-- In `wait_database` -/
theorem stop_request_obeyed_iff_waiting : ∃ past m' rest,
    Signal sampleSplit sampleDeployment steadyHost past (.compose .isReady) m' rest ∧
      ∀ r m'', Prog.Runs sem m' rest r m'' → Obeyed sampleDeployment m' r m'' := by
  have hhead : (steadyRun 44).2.head = some (.compose .isReady) := by decide +kernel
  have hstopped : (steadyRun 44).1.stopped = true := by decide +kernel
  obtain ⟨past, hsignal⟩ := signal_steadyRun 44 hhead rfl
  exact ⟨past, _, _, hsignal, (stop_request_obeyed_iff hsignal ⟨by decide, .inr hstopped⟩).2
    ⟨hstopped, by simp [Action.isRequest]⟩⟩

/-- Where the smoke test is sent. -/
def sampleUrl : Text := "https://soj.example/api/v3/submissions".toList

/-- In the first attempt of `wait_smoke`: the second one succeeds. -/
theorem stop_request_absorbed : ∃ past m' rest m'',
    Signal sampleSplit sampleDeployment steadyHost past (.request sampleUrl) m' rest ∧
      InUpdate (.request sampleUrl) m' ∧ Prog.Runs sem m' rest (.ok ()) m'' ∧
      m''.phase = "success".toList ∧ m''.failed = none := by
  have hhead : (steadyRun 59).2.head = some (.request sampleUrl) := by decide +kernel
  have hstopped : (steadyRun 59).1.stopped = true := by decide +kernel
  obtain ⟨past, hsignal⟩ := signal_steadyRun 59 hhead rfl
  have hruns : Prog.Runs sem (steadyRun 59).1 ((steadyRun 59).2.resume signalReply) (.ok ()) _ :=
    Prog.runs_of_result steadyReply 30 (by decide +kernel)
  exact ⟨past, _, _, _, hsignal, ⟨by decide, .inr hstopped⟩, hruns, by decide +kernel,
    by decide +kernel⟩

end ProductionDeployment
