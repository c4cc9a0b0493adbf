/-
The watchdog of an execution and its cleanup, on their own threads
(soj_runner/sandbox_executor.py).

SandboxExecutor.lean lets the timer meet the main thread only at the lock of the
watchdog.  Here every step is its own: `terminate` records its reason under the
lock, and calls `container.kill` afterwards; the timer thread runs it, the thread
of the execution runs it and then `stop`, and further threads may run it at any
time.  The steps that matter leave an `Event` in the log.

* `one_stop` — the container is killed once, under the reason that `stop`
  returns, and `stop` calls it stopped exactly when that kill has succeeded,
  unless a thread for which `stop` does not wait is inside a termination;
* `stopped_without_kill` — such a thread makes `stop` report a kill that has not
  been called.
-/
import ShellgeiOnlineJudge.Prog
import ShellgeiOnlineJudge.SandboxExecutor

namespace ExecutionWatchdog

open Utf8 (Text)
open SandboxExecutor (Reason SandboxCleanupResult raised)

/-- Where a termination runs: on the timer thread, on the thread that will call
`stop`, or on another one. -/
inductive Thread
  | timer
  | main
  | other
  deriving DecidableEq

/-- What the two threads have done with the watchdog and the container. -/
inductive Event
  /-- `_reason = reason` -/
  | recorded (thread : Thread) (reason : Reason)
  /-- `_finished = True` -/
  | finished
  /-- `container.kill` is called, in a termination or, without a reason, in `stop` -/
  | killCalled (reason : Option Reason)
  | killReturned (answer : Except Text Unit)
  /-- a `terminate` that has killed returns -/
  | terminated
  /-- `stop` returns -/
  | stopReturned (result : SandboxCleanupResult)

/-- The watchdog, the timer and what has happened, oldest first. -/
structure State where
  finished : Bool
  reason : Option Reason
  terminationError : Option Text
  /-- `timeout_timer.cancel` was called -/
  cancelled : Bool
  /-- the timer thread has ended -/
  timerDone : Bool
  log : List Event

/-- `ExecutionWatchdog.__init__` -/
def State.new : State where
  finished := false
  reason := none
  terminationError := none
  cancelled := false
  timerDone := false
  log := []

/-- The atomic steps of the threads. -/
inductive Action
  | recordReason (thread : Thread) (reason : Reason)
  | callKill (reason : Option Reason)
  | killReturns
  | keepError (error : Text)
  | terminateReturns
  | timerExpires
  | timerExits
  | cancelTimer
  | finish
  | joinTimer
  | stopReturns (reason : Option Reason) (error : Option Text) (containerStopped : Bool)

/-- What an action answers. -/
abbrev Action.Response : Action → Type
  | recordReason _ _ => Bool
  | callKill _ => Unit
  | killReturns => Except Text Unit
  | keepError _ => Unit
  | terminateReturns => Unit
  | timerExpires => Bool
  | timerExits => Unit
  | cancelTimer => Unit
  | finish => Option Reason
  | joinTimer => Unit
  | stopReturns _ _ _ => Unit

/-- Add an event to the log. -/
def State.record (s : State) (event : Event) : State := { s with log := s.log ++ [event] }

/-- The end of `stop`: with a reason, what the watchdog knows of the kill counts. -/
def State.cleanupResult (s : State) (reason : Option Reason) (error : Option Text)
    (containerStopped : Bool) : SandboxCleanupResult :=
  match reason with
  | none => ⟨none, error, containerStopped⟩
  | some r => ⟨some r, s.terminationError, s.terminationError.isNone⟩

/-- The state after an action that was answered by the given response; `none`
when the action cannot be answered so. -/
def sem : (a : Action) → State → a.Response → Option State
  | .recordReason thread reason, s, r =>
    if s.finished = true ∨ s.reason ≠ none then if r then none else some s
    else if r then some ({ s with reason := some reason }.record (.recorded thread reason))
    else none
  | .callKill reason, s, _ => some (s.record (.killCalled reason))
  | .killReturns, s, r => some (s.record (.killReturned r))
  | .keepError e, s, _ => some { s with terminationError := some e }
  | .terminateReturns, s, _ => some (s.record .terminated)
  -- a timer that is cancelled may have been past its last look at the event
  | .timerExpires, s, r => if r ∨ s.cancelled = true then some s else none
  | .timerExits, s, _ => some { s with timerDone := true }
  | .cancelTimer, s, _ => some { s with cancelled := true }
  | .finish, s, r =>
    if r = s.reason then some ({ s with finished := true }.record .finished) else none
  | .joinTimer, s, _ => if s.timerDone = true then some s else none
  | .stopReturns reason error containerStopped, s, _ =>
    some (s.record (.stopReturned (s.cleanupResult reason error containerStopped)))

/-- A part of a thread. -/
abbrev M (α : Type) := Prog Action Action.Response Empty α

/-- Do an action. -/
abbrev perform (a : Action) : M a.Response := Prog.perform a

/-- `ExecutionWatchdog.terminate` -/
def terminate (thread : Thread) (reason : Reason) : M Bool := do
  let started : Bool ← perform (.recordReason thread reason)
  if started then do
    perform (.callKill (some reason))
    let answer : Except Text Unit ← perform .killReturns
    match answer with
    | .ok () => pure ()
    | .error e => perform (.keepError e)
    perform .terminateReturns
    pure true
  else pure false

/-- The timer thread.  The code lets it expire once; here it may do so any
number of times. -/
def timer : ℕ → M Unit
  | 0 => perform .timerExits
  | n + 1 => do
    let expired : Bool ← perform .timerExpires
    if expired then do
      let _ ← terminate .timer .timeout
      timer n
    else perform .timerExits

/-- `SandboxCleanup.stop` -/
def stop : M Unit := do
  perform .cancelTimer
  let reason : Option Reason ← perform .finish
  match reason with
  | none => do
    perform (.callKill none)
    let answer : Except Text Unit ← perform .killReturns
    perform .joinTimer
    perform (.stopReturns none (raised answer) (raised answer).isNone)
  | some r => do
    perform .joinTimer
    perform (.stopReturns (some r) none false)

/-- The thread of the execution: the terminations of the capture, then `stop`. -/
def main : ℕ → M Unit
  | 0 => stop
  | n + 1 => do
    let _ ← terminate .main .outputLimit
    main n

/-- A termination on another thread. -/
def other (reason : Reason) : M Unit := do
  let _ ← terminate .other reason
  pure ()

/-- One execution: its timer, its own thread, and any other terminations. -/
def execution : ThreadSystem State (M Unit) :=
  Prog.system sem
    (fun s threads => s = .new ∧ ∃ fires captures, threads = [timer fires, main captures])
    (fun _ _ => False) fun _ _ p => ∃ reason, p = other reason

/-! ### What the log says -/

/-- The reason that an event records, and its thread. -/
def Event.recordedBy : Event → Option (Thread × Reason)
  | .recorded thread reason => some (thread, reason)
  | _ => none

/-- The kill that an event calls. -/
def Event.kill : Event → Option (Option Reason)
  | .killCalled reason => some reason
  | _ => none

/-- The answer that a kill returned with. -/
def Event.answer : Event → Option (Except Text Unit)
  | .killReturned answer => some answer
  | _ => none

/-- Who recorded which reasons, oldest first. -/
def recordings (log : List Event) : List (Thread × Reason) := log.filterMap Event.recordedBy

/-- The calls of `container.kill`, each with the reason it was issued under. -/
def kills (log : List Event) : List (Option Reason) := log.filterMap Event.kill

/-- The answers to the kills, in order. -/
def answers (log : List Event) : List (Except Text Unit) := log.filterMap Event.answer

theorem mem_recordings {log : List Event} {thread : Thread} {reason : Reason} :
    (thread, reason) ∈ recordings log ↔ .recorded thread reason ∈ log := by
  constructor
  · intro h
    obtain ⟨event, hevent, heq⟩ := List.mem_filterMap.mp h
    cases event <;> cases heq
    exact hevent
  · intro h
    exact List.mem_filterMap.mpr ⟨_, h, rfl⟩

theorem mem_answers {log : List Event} {answer : Except Text Unit} :
    answer ∈ answers log ↔ .killReturned answer ∈ log := by
  constructor
  · intro h
    obtain ⟨event, hevent, heq⟩ := List.mem_filterMap.mp h
    cases event <;> cases heq
    exact hevent
  · intro h
    exact List.mem_filterMap.mpr ⟨_, h, rfl⟩

theorem recordings_snoc (log : List Event) (event : Event) :
    recordings (log ++ [event]) = recordings log ++ event.recordedBy.toList := by
  rw [recordings, List.filterMap_append, recordings]
  cases event <;> rfl

theorem kills_snoc (log : List Event) (event : Event) :
    kills (log ++ [event]) = kills log ++ event.kill.toList := by
  rw [kills, List.filterMap_append, kills]
  cases event <;> rfl

theorem answers_snoc (log : List Event) (event : Event) :
    answers (log ++ [event]) = answers log ++ event.answer.toList := by
  rw [answers, List.filterMap_append, answers]
  cases event <;> rfl

/-- Every event of the log is allowed by the events before it. -/
def History (allowed : List Event → Event → Prop) (log : List Event) : Prop :=
  ∀ before event after, log = before ++ event :: after → allowed before event

theorem History.nil {allowed : List Event → Event → Prop} : History allowed [] := by
  intro before event after h
  simp at h

theorem History.snoc {allowed : List Event → Event → Prop} {log : List Event} {event : Event}
    (h : History allowed log) (hevent : allowed log event) : History allowed (log ++ [event]) := by
  intro before e after heq
  -- the event in question is the last one, or one of the old log
  rcases List.eq_nil_or_concat after with rfl | ⟨after, last, rfl⟩
  · obtain ⟨rfl, he⟩ := List.append_inj' heq rfl
    obtain rfl := List.singleton_inj.mp he
    exact hevent
  · rw [List.concat_eq_append, ← List.cons_append, ← List.append_assoc] at heq
    obtain ⟨hlog, -⟩ := List.append_inj' heq rfl
    exact h before e after hlog

/-- Every termination on a thread for which `stop` does not wait has returned. -/
def Awaited (log : List Event) : Prop :=
  ∀ reason, .recorded .other reason ∈ log → .terminated ∈ log

/-- No termination starts after `finish`; and when `stop` returns, the container
has been killed once, under the returned reason, and counts as stopped exactly
when that kill has succeeded. -/
def Allowed (before : List Event) : Event → Prop
  | .recorded _ _ => .finished ∉ before
  | .stopReturned result => Awaited before →
    kills before = [result.reason] ∧
    (result.containerStopped = true ↔ .killReturned (.ok ()) ∈ before)
  | _ => True

/-! ### How far the one kill has got -/

/-- How far the one kill has got.  `cleanup` and what follows it is the kill of
`stop`, the others are the kill of a termination. -/
inductive Phase
  | running
  | recorded (thread : Thread) (reason : Reason)
  | killing (thread : Thread) (reason : Reason)
  | returned (thread : Thread) (reason : Reason) (answer : Except Text Unit)
  /-- the error of the kill is kept in the watchdog -/
  | kept (thread : Thread) (reason : Reason) (answer : Except Text Unit)
  | terminated (thread : Thread) (reason : Reason) (answer : Except Text Unit)
  | cleanup
  | cleanupKilling
  | cleanupKilled (answer : Except Text Unit)
  | cleaned (answer : Except Text Unit)

namespace Phase

/-- A thread is in the middle of this phase. -/
def busy : Phase → Bool
  | running | terminated _ _ _ | cleaned _ => false
  | _ => true

/-- The thread that takes the kill forward. -/
def thread : Phase → Thread
  | recorded t _ | killing t _ | returned t _ _ | kept t _ _ | terminated t _ _ => t
  | _ => .main

/-- The reason that a phase acts for. -/
def reason : Phase → Option Reason
  | recorded _ r | killing _ r | returned _ r _ | kept _ r _ | terminated _ r _ => some r
  | _ => none

/-- The reasons that the thread of a phase has recorded. -/
def recordings : Phase → List (Thread × Reason)
  | recorded t r | killing t r | returned t r _ | kept t r _ | terminated t r _ => [(t, r)]
  | _ => []

/-- The kills that the thread of a phase has called. -/
def kills : Phase → List (Option Reason)
  | killing _ r | returned _ r _ | kept _ r _ | terminated _ r _ => [some r]
  | cleanupKilling | cleanupKilled _ | cleaned _ => [none]
  | _ => []

/-- The answers that it has got. -/
def answers : Phase → List (Except Text Unit)
  | returned _ _ a | kept _ _ a | terminated _ _ a | cleanupKilled a | cleaned a => [a]
  | _ => []

/-- The error that a phase has kept. -/
def terminationError : Phase → Option Text
  | kept _ _ a | terminated _ _ a => raised a
  | _ => none

end Phase

/-- What a thread is about. -/
inductive Token
  /-- in no termination, and before `finish` -/
  | idle (thread : Thread)
  /-- it takes the kill forward -/
  | busy (phase : Phase)
  /-- in `stop`, with a reason, before the timer is joined -/
  | awaiting (reason : Reason)
  /-- and after it -/
  | joined (reason : Reason)

namespace Token

/-- The thread that owns a token. -/
def thread : Token → Thread
  | idle t => t
  | busy p => p.thread
  | awaiting _ | joined _ => .main

/-- The phase of a thread that terminates or cleans up. -/
def phase : Token → Option Phase
  | busy p => some p
  | _ => none

/-- The thread that calls `stop`, before `finish`. -/
def unfinished : Token → Bool
  | idle t => t = .main
  | busy p => p.thread = .main && p.reason.isSome
  | awaiting _ | joined _ => false

/-- The thread that calls `stop`, after `finish`. -/
def afterFinish : Option Reason → Token
  | none => busy .cleanup
  | some r => awaiting r

theorem thread_of_unfinished {t : Token} (h : t.unfinished = true) : t.thread = .main := by
  cases t with
  | idle t => exact of_decide_eq_true h
  | busy p =>
    rw [unfinished, Bool.and_eq_true] at h
    exact of_decide_eq_true h.1
  | awaiting r => rfl
  | joined r => rfl

end Token

theorem phase_busy (p : Phase) (m : Multiset Token) :
    (Token.busy p ::ₘ m).filterMap Token.phase = p ::ₘ m.filterMap Token.phase :=
  Multiset.filterMap_cons_some Token.phase (.busy p) m rfl

theorem phase_idle {t : Token} (ht : t.phase = none) (m : Multiset Token) :
    (t ::ₘ m).filterMap Token.phase = m.filterMap Token.phase :=
  Multiset.filterMap_cons_none t m ht

/-- The threads that are on `thread`. -/
def on (thread : Thread) (m : Multiset Token) : ℕ := m.countP fun t => t.thread = thread

/-- The threads agree with the phase: one thread at most takes the kill forward,
and there is one timer thread and one thread that calls `stop`. -/
structure Threads (p : Phase) (finished timerDone : Bool) (m : Multiset Token) : Prop where
  busy : m.filterMap Token.phase = if p.busy then {p} else 0
  main : on .main m ≤ 1
  timer : on .timer m + timerDone.toNat ≤ 1
  unfinished : finished = false ↔ ∃ t ∈ m, t.unfinished = true
  awaiting : ∀ r, .awaiting r ∈ m → p.reason = some r
  joined : ∀ r, .joined r ∈ m → p.reason = some r ∧ timerDone = true

/-- The watchdog and the log agree with the phase. -/
structure Matches (p : Phase) (s : State) : Prop where
  reason : s.reason = p.reason
  recordings_eq : recordings s.log = p.recordings
  kills_eq : kills s.log = p.kills
  answers_eq : answers s.log = p.answers
  terminationError : s.terminationError = p.terminationError
  terminated : .terminated ∈ s.log → ∃ t r a, p = .terminated t r a
  finished : .finished ∈ s.log ↔ s.finished = true
  unfinished : p.reason = none → (s.finished = false ↔ p = .running)
  stopped : ∀ result, .stopReturned result ∈ s.log → result.reason = p.reason ∧ s.finished = true
  history : History Allowed s.log

/-- The invariant of an execution. -/
def Inv (s : State) (m : Multiset Token) : Prop :=
  ∃ p, Threads p s.finished s.timerDone m ∧ Matches p s

/-- The watchdog with what its threads own. -/
def logic : Prog.Logic Action Action.Response State Token where
  sem := sem
  inv := Inv
  here := fun _ _ => True

theorem on_cons (thread : Thread) (t : Token) (m : Multiset Token) :
    on thread (t ::ₘ m) = on thread m + if t.thread = thread then 1 else 0 :=
  Multiset.countP_cons _ t m

theorem on_pos {thread : Thread} {t : Token} {m : Multiset Token} (ht : t ∈ m)
    (hthread : t.thread = thread) : 0 < on thread m :=
  Multiset.countP_pos.mpr ⟨t, ht, hthread⟩

section Threads

variable {p p' : Phase} {finished timerDone : Bool} {t t' : Token} {F : Multiset Token}

/-- The phase is the one of the thread that takes the kill forward. -/
theorem Threads.phase_eq (h : Threads p finished timerDone (.busy p' ::ₘ F)) :
    p = p' ∧ p.busy = true ∧ F.filterMap Token.phase = 0 := by
  have hbusy := h.busy
  rw [phase_busy] at hbusy
  by_cases hp : p.busy = true
  · rw [if_pos hp] at hbusy
    obtain ⟨rfl, hF⟩ := (Multiset.singleton_eq_cons_iff _).mp hbusy.symm
    exact ⟨rfl, hp, hF⟩
  · rw [if_neg hp] at hbusy
    exact absurd hbusy Multiset.cons_ne_zero

/-- The other threads, when no thread takes the kill forward. -/
theorem Threads.rest (h : Threads p finished timerDone (t ::ₘ F)) (hp : p.busy = false) :
    F.filterMap Token.phase = 0 := by
  have hbusy := h.busy
  rw [hp, if_neg Bool.false_ne_true] at hbusy
  refine Multiset.eq_zero_of_forall_notMem fun q hq => ?_
  have hmem : q ∈ (t ::ₘ F).filterMap Token.phase := by
    obtain ⟨u, hu, huq⟩ := (Multiset.mem_filterMap _ _).mp hq
    exact (Multiset.mem_filterMap _ _).mpr ⟨u, Multiset.mem_cons_of_mem hu, huq⟩
  rw [hbusy] at hmem
  exact Multiset.notMem_zero q hmem

/-- A thread goes on: from `t` to `t'`. -/
theorem Threads.step {finished' : Bool} (h : Threads p finished timerDone (t ::ₘ F))
    (hthread : t'.thread = t.thread)
    (hunfinished : finished' = false ↔ ∃ u ∈ t' ::ₘ F, u.unfinished = true)
    (hbusy : (t' ::ₘ F).filterMap Token.phase = if p'.busy then {p'} else 0)
    (hreason : ∀ r, p.reason = some r → p'.reason = some r)
    (hawaiting : ∀ r, t' = .awaiting r → p'.reason = some r)
    (hjoined : ∀ r, t' = .joined r → p'.reason = some r ∧ timerDone = true) :
    Threads p' finished' timerDone (t' ::ₘ F) := by
  have hon : ∀ thread, on thread (t' ::ₘ F) = on thread (t ::ₘ F) := by
    intro thread
    rw [on_cons, on_cons, hthread]
  refine ⟨hbusy, hon .main ▸ h.main, hon .timer ▸ h.timer, hunfinished, ?_, ?_⟩
  · intro r hr
    rcases Multiset.mem_cons.mp hr with heq | hr
    · exact hawaiting r heq.symm
    · exact hreason r (h.awaiting r (Multiset.mem_cons_of_mem hr))
  · intro r hr
    rcases Multiset.mem_cons.mp hr with heq | hr
    · exact hjoined r heq.symm
    · obtain ⟨hp, hd⟩ := h.joined r (Multiset.mem_cons_of_mem hr)
      exact ⟨hreason r hp, hd⟩

/-- It goes on, on the same side of `finish`. -/
theorem Threads.replace (h : Threads p finished timerDone (t ::ₘ F))
    (hthread : t'.thread = t.thread) (hunfinished : t'.unfinished = t.unfinished)
    (hbusy : (t' ::ₘ F).filterMap Token.phase = if p'.busy then {p'} else 0)
    (hreason : ∀ r, p.reason = some r → p'.reason = some r)
    (hawaiting : ∀ r, t' = .awaiting r → p'.reason = some r)
    (hjoined : ∀ r, t' = .joined r → p'.reason = some r ∧ timerDone = true) :
    Threads p' finished timerDone (t' ::ₘ F) := by
  refine h.step hthread ?_ hbusy hreason hawaiting hjoined
  rw [h.unfinished]
  simp only [Multiset.mem_cons, exists_eq_or_imp, hunfinished]

/-- No other thread calls `stop`. -/
theorem Threads.not_unfinished (h : Threads p finished timerDone (t ::ₘ F))
    (ht : t.thread = .main) {u : Token} (hu : u ∈ F) : u.unfinished = false := by
  have hmain := h.main
  rw [on_cons, if_pos ht] at hmain
  refine Bool.eq_false_iff.mpr fun hunf => ?_
  have := on_pos hu (Token.thread_of_unfinished hunf)
  omega

/-- After `finish` no thread is before it. -/
theorem Threads.finish (h : Threads p finished timerDone (t ::ₘ F)) (ht : t.thread = .main)
    (hthread : t'.thread = .main) (hunfinished : t'.unfinished = false)
    (hbusy : (t' ::ₘ F).filterMap Token.phase = if p'.busy then {p'} else 0)
    (hreason : ∀ r, p.reason = some r → p'.reason = some r)
    (hawaiting : ∀ r, t' = .awaiting r → p'.reason = some r)
    (hjoined : ∀ r, t' = .joined r → p'.reason = some r ∧ timerDone = true) :
    Threads p' true timerDone (t' ::ₘ F) := by
  refine h.step (hthread.trans ht.symm) ?_ hbusy hreason hawaiting hjoined
  refine iff_of_false (by simp) ?_
  intro hex
  obtain ⟨u, hu, hunf⟩ := hex
  rcases Multiset.mem_cons.mp hu with rfl | hu
  · rw [hunfinished] at hunf
    cases hunf
  · rw [h.not_unfinished ht hu] at hunf
    cases hunf

/-- The thread that calls `stop` knows whether it has called `finish`. -/
theorem Threads.finished_of_main (h : Threads p finished timerDone (t ::ₘ F))
    (ht : t.thread = .main) (hunfinished : t.unfinished = false) : finished = true := by
  refine Bool.eq_true_of_not_eq_false fun hfalse => ?_
  obtain ⟨u, hu, hunf⟩ := h.unfinished.mp hfalse
  rcases Multiset.mem_cons.mp hu with rfl | hu
  · rw [hunfinished] at hunf
    cases hunf
  · rw [h.not_unfinished ht hu] at hunf
    cases hunf

/-- A thread ends. -/
theorem Threads.drop (h : Threads p finished timerDone (t ::ₘ F))
    (hunfinished : t.unfinished = false)
    (hbusy : F.filterMap Token.phase = if p'.busy then {p'} else 0)
    (hreason : ∀ r, p.reason = some r → p'.reason = some r) :
    Threads p' finished timerDone F := by
  have hle : ∀ thread, on thread F ≤ on thread (t ::ₘ F) := by
    intro thread
    rw [on_cons]
    omega
  have hmem : ∀ {u}, u ∈ F → u ∈ t ::ₘ F := fun hu => Multiset.mem_cons_of_mem hu
  refine ⟨hbusy, (hle .main).trans h.main, ?_, ?_,
    fun r hr => hreason r (h.awaiting r (hmem hr)),
    fun r hr => ⟨hreason r (h.joined r (hmem hr)).1, (h.joined r (hmem hr)).2⟩⟩
  · have := hle .timer
    have := h.timer
    omega
  · rw [h.unfinished]
    simp only [Multiset.mem_cons, exists_eq_or_imp, hunfinished, Bool.false_eq_true, false_or]

/-- The timer thread ends. -/
theorem Threads.timerExits (h : Threads p finished timerDone (.idle .timer ::ₘ F)) :
    Threads p finished true F := by
  have hdrop : Threads p finished timerDone F := by
    refine h.drop rfl ?_ (fun _ hr => hr)
    have hbusy := h.busy
    rwa [phase_idle rfl] at hbusy
  have htimer := h.timer
  rw [on_cons, if_pos (show (Token.idle .timer).thread = .timer from rfl)] at htimer
  refine ⟨hdrop.busy, hdrop.main, ?_, hdrop.unfinished, hdrop.awaiting,
    fun r hr => ⟨(hdrop.joined r hr).1, rfl⟩⟩
  show on .timer F + 1 ≤ 1
  omega

/-- Another thread starts. -/
theorem Threads.start (h : Threads p finished timerDone F) :
    Threads p finished timerDone (.idle .other ::ₘ F) := by
  have hon : ∀ thread, thread ≠ .other → on thread (.idle .other ::ₘ F) = on thread F := by
    intro thread hthread
    rw [on_cons, if_neg (show (Token.idle .other).thread ≠ thread from Ne.symm hthread), add_zero]
  have hmem : ∀ {u}, u ∈ Token.idle .other ::ₘ F → u ≠ .idle .other → u ∈ F := by
    intro u hu hne
    exact (Multiset.mem_cons.mp hu).resolve_left hne
  refine ⟨?_, hon .main (by decide) ▸ h.main, hon .timer (by decide) ▸ h.timer, ?_,
    fun r hr => h.awaiting r (hmem hr (by simp)), fun r hr => h.joined r (hmem hr (by simp))⟩
  · rw [phase_idle rfl]
    exact h.busy
  · rw [h.unfinished]
    simp [Token.unfinished]

end Threads

section Matches

variable {p p' : Phase} {s : State}

/-- An event that leaves the watchdog as it is. -/
theorem Matches.record (h : Matches p s) {event : Event}
    (hreason : p'.reason = p.reason)
    (hrecordings : p'.recordings = p.recordings ++ event.recordedBy.toList)
    (hkills : p'.kills = p.kills ++ event.kill.toList)
    (hanswers : p'.answers = p.answers ++ event.answer.toList)
    (herror : p'.terminationError = p.terminationError)
    (hterminated : .terminated ∈ s.log ∨ event = .terminated → ∃ t r a, p' = .terminated t r a)
    (hfinished : event ≠ .finished)
    (hrunning : p' = .running ↔ p = .running)
    (hstopped : ∀ result, event = .stopReturned result →
      result.reason = p.reason ∧ s.finished = true)
    (hallowed : Allowed s.log event) : Matches p' (s.record event) := by
  refine ⟨hreason ▸ h.reason, ?_, ?_, ?_, herror ▸ h.terminationError, ?_, ?_, ?_, ?_,
    h.history.snoc hallowed⟩
  · rw [hrecordings, ← h.recordings_eq]
    exact recordings_snoc s.log event
  · rw [hkills, ← h.kills_eq]
    exact kills_snoc s.log event
  · rw [hanswers, ← h.answers_eq]
    exact answers_snoc s.log event
  · -- the termination has ended before, or this event ends it
    intro hmem
    refine hterminated ?_
    rcases List.mem_append.mp hmem with hmem | hmem
    · exact .inl hmem
    · exact .inr (List.mem_singleton.mp hmem).symm
  · show .finished ∈ s.log ++ [event] ↔ s.finished = true
    rw [List.mem_append, List.mem_singleton, ← h.finished]
    exact or_iff_left hfinished.symm
  · intro hnone
    rw [hrunning]
    exact h.unfinished (hreason ▸ hnone)
  · intro result hmem
    rw [hreason]
    rcases List.mem_append.mp hmem with hmem | hmem
    · exact h.stopped result hmem
    · exact hstopped result (List.mem_singleton.mp hmem).symm

/-- A termination that is the first one before `finish` records its reason. -/
theorem Matches.recordReason (h : Matches .running s) (hfin : s.finished = false) (t : Thread)
    (r : Reason) :
    Matches (.recorded t r) ({ s with reason := some r }.record (.recorded t r)) := by
  -- the watchdog is not closed, so this is the first reason
  have hnot : .finished ∉ s.log := by
    intro hmem
    rw [h.finished.mp hmem] at hfin
    cases hfin
  refine ⟨rfl, ?_, ?_, ?_, h.terminationError, ?_, ?_, ?_, ?_, h.history.snoc hnot⟩
  · show recordings (s.log ++ [.recorded t r]) = [(t, r)]
    rw [recordings_snoc, h.recordings_eq]
    rfl
  · show kills (s.log ++ [.recorded t r]) = []
    rw [kills_snoc, h.kills_eq]
    rfl
  · show answers (s.log ++ [.recorded t r]) = []
    rw [answers_snoc, h.answers_eq]
    rfl
  · intro hmem
    rcases List.mem_append.mp hmem with hmem | hmem
    · obtain ⟨_, _, _, hp⟩ := h.terminated hmem
      cases hp
    · cases List.mem_singleton.mp hmem
  · show .finished ∈ s.log ++ [.recorded t r] ↔ s.finished = true
    rw [List.mem_append, List.mem_singleton, ← h.finished]
    exact or_iff_left (by simp)
  · intro hnone
    cases hnone
  · intro result hmem
    rcases List.mem_append.mp hmem with hmem | hmem
    · rw [(h.stopped result hmem).2] at hfin
      cases hfin
    · cases List.mem_singleton.mp hmem

/-- `finish` closes the watchdog. -/
theorem Matches.finish (h : Matches p s)
    (hp : p' = if p.reason = none then .cleanup else p) (hfin : s.finished = false) :
    Matches p' ({ s with finished := true }.record .finished) := by
  -- without a reason no termination has begun
  have hrun : p.reason = none → p = .running := fun hnone => (h.unfinished hnone).mp hfin
  have hdata : p'.reason = p.reason ∧ p'.recordings = p.recordings ∧ p'.kills = p.kills ∧
      p'.answers = p.answers ∧ p'.terminationError = p.terminationError := by
    by_cases hnone : p.reason = none
    · obtain rfl := hrun hnone
      rw [if_pos hnone] at hp
      subst hp
      exact ⟨rfl, rfl, rfl, rfl, rfl⟩
    · rw [if_neg hnone] at hp
      subst hp
      exact ⟨rfl, rfl, rfl, rfl, rfl⟩
  obtain ⟨hreason, hrecordings, hkills, hanswers, herror⟩ := hdata
  refine ⟨hreason ▸ h.reason, ?_, ?_, ?_, herror ▸ h.terminationError, ?_, ?_, ?_, ?_,
    h.history.snoc trivial⟩
  · show recordings (s.log ++ [.finished]) = p'.recordings
    rw [recordings_snoc, h.recordings_eq, hrecordings]
    exact List.append_nil _
  · show kills (s.log ++ [.finished]) = p'.kills
    rw [kills_snoc, h.kills_eq, hkills]
    exact List.append_nil _
  · show answers (s.log ++ [.finished]) = p'.answers
    rw [answers_snoc, h.answers_eq, hanswers]
    exact List.append_nil _
  · intro hmem
    rcases List.mem_append.mp hmem with hmem | hmem
    · obtain ⟨t, r, a, rfl⟩ := h.terminated hmem
      exact ⟨t, r, a, hp⟩
    · cases List.mem_singleton.mp hmem
  · show .finished ∈ s.log ++ [.finished] ↔ true = true
    simp
  · intro hnone
    rw [hreason] at hnone
    rw [if_pos hnone] at hp
    subst hp
    show true = false ↔ Phase.cleanup = .running
    simp
  · intro result hmem
    rcases List.mem_append.mp hmem with hmem | hmem
    · rw [(h.stopped result hmem).2] at hfin
      cases hfin
    · cases List.mem_singleton.mp hmem

/-- The error of a kill is kept. -/
theorem Matches.keepError {t : Thread} {r : Reason} {e : Text}
    (h : Matches (.returned t r (.error e)) s) :
    Matches (.kept t r (.error e)) { s with terminationError := some e } := by
  refine ⟨h.reason, h.recordings_eq, h.kills_eq, h.answers_eq, rfl, ?_, h.finished, ?_, h.stopped,
    h.history⟩
  · intro hmem
    obtain ⟨_, _, _, hp⟩ := h.terminated hmem
    cases hp
  · intro hnone
    cases hnone

end Matches

/-! ### The steps -/

variable {s s' : State} {F : Multiset Token}

/-- A thread that takes the kill forward knows the phase. -/
theorem Inv.phase {p : Phase} (h : Inv s (.busy p ::ₘ F)) :
    Threads p s.finished s.timerDone (.busy p ::ₘ F) ∧ Matches p s ∧
      F.filterMap Token.phase = 0 := by
  obtain ⟨q, hthreads, hmatches⟩ := h
  obtain ⟨rfl, -, hF⟩ := hthreads.phase_eq
  exact ⟨hthreads, hmatches, hF⟩

/-- It goes on to the next phase. -/
theorem Inv.advance {p p' : Phase} (h : Inv s (.busy p ::ₘ F)) (hbusy : p'.busy = true)
    (hthread : p'.thread = p.thread) (hreason : p'.reason = p.reason)
    (hfinished : s'.finished = s.finished) (htimer : s'.timerDone = s.timerDone)
    (hmatches : Matches p s → Matches p' s') : Inv s' (.busy p' ::ₘ F) := by
  obtain ⟨hthreads, hm, hF⟩ := h.phase
  refine ⟨p', ?_, hmatches hm⟩
  rw [hfinished, htimer]
  refine hthreads.replace hthread ?_ ?_ ?_ ?_ ?_
  · rw [Token.unfinished, Token.unfinished, hthread, hreason]
  · rw [phase_busy, hF, if_pos hbusy]
    rfl
  · intro r hr
    rw [hreason]
    exact hr
  · intro r hr
    cases hr
  · intro r hr
    cases hr

/-- The call of a kill, or its return, is on the way. -/
theorem Inv.killEvent {p p' : Phase} {event : Event} (h : Inv s (.busy p ::ₘ F))
    (hevent : (∃ reason, event = .killCalled reason) ∨ ∃ answer, event = .killReturned answer)
    (hbusy : p'.busy = true) (hthread : p'.thread = p.thread) (hreason : p'.reason = p.reason)
    (hrecordings : p'.recordings = p.recordings)
    (hkills : p'.kills = p.kills ++ event.kill.toList)
    (hanswers : p'.answers = p.answers ++ event.answer.toList)
    (herror : p'.terminationError = p.terminationError)
    (hrunning : p' ≠ .running ∧ p ≠ .running) (hterminated : ∀ t r a, p ≠ .terminated t r a) :
    Inv (s.record event) (.busy p' ::ₘ F) := by
  refine h.advance hbusy hthread hreason rfl rfl fun hm => ?_
  have hnot : .terminated ∉ s.log := by
    intro hmem
    obtain ⟨t, r, a, hp⟩ := hm.terminated hmem
    exact hterminated t r a hp
  rcases hevent with ⟨reason, rfl⟩ | ⟨answer, rfl⟩
  · refine hm.record hreason (hrecordings.trans (List.append_nil _).symm) hkills hanswers herror
      (fun hmem => absurd hmem (by simp [hnot])) (by simp) (iff_of_false hrunning.1 hrunning.2)
      (by simp) trivial
  · refine hm.record hreason (hrecordings.trans (List.append_nil _).symm) hkills hanswers herror
      (fun hmem => absurd hmem (by simp [hnot])) (by simp) (iff_of_false hrunning.1 hrunning.2)
      (by simp) trivial

theorem triple_recordReason (t : Thread) (r : Reason) :
    Prog.Triple logic (.recordReason t r) {.idle t} fun started m =>
      m = {if started then .busy (.recorded t r) else .idle t} := by
  refine ⟨trivial, fun s F started s' h hs => ⟨_, ?_, rfl⟩⟩
  have h : Inv s (.idle t ::ₘ F) := h
  have hs : sem (.recordReason t r) s started = some s' := hs
  show Inv s' (_ ::ₘ F)
  rw [sem] at hs
  by_cases hlate : s.finished = true ∨ s.reason ≠ none
  · -- too late: nothing happens
    rw [if_pos hlate] at hs
    cases started with
    | true => cases hs
    | false =>
      cases hs
      exact h
  · rw [if_neg hlate] at hs
    cases started with
    | false => cases hs
    | true =>
      cases hs
      obtain ⟨hfin, hnone⟩ := not_or.mp hlate
      have hfin : s.finished = false := Bool.eq_false_iff.mpr hfin
      have hnone : s.reason = none := not_not.mp hnone
      obtain ⟨p, hthreads, hmatches⟩ := h
      -- no reason yet and not closed: the kill has not begun
      obtain rfl : p = .running :=
        (hmatches.unfinished (hmatches.reason ▸ hnone)).mp hfin
      refine ⟨.recorded t r, ?_, hmatches.recordReason hfin t r⟩
      refine hthreads.replace rfl (Bool.and_true _) ?_ ?_ ?_ ?_
      · show (Token.busy (.recorded t r) ::ₘ F).filterMap Token.phase = {.recorded t r}
        rw [phase_busy, hthreads.rest rfl]
        rfl
      · intro r hr
        cases hr
      · intro r hr
        cases hr
      · intro r hr
        cases hr

theorem triple_callKill (t : Thread) (r : Reason) :
    Prog.Triple logic (.callKill (some r)) {.busy (.recorded t r)} fun _ m =>
      m = {.busy (.killing t r)} := by
  refine ⟨trivial, fun s F _ s' h hs => ⟨_, ?_, rfl⟩⟩
  cases hs
  exact Inv.killEvent h (.inl ⟨_, rfl⟩) rfl rfl rfl rfl rfl rfl rfl (by simp) (by simp)

theorem triple_killReturns (t : Thread) (r : Reason) :
    Prog.Triple logic .killReturns {.busy (.killing t r)} fun answer m =>
      m = {.busy (.returned t r answer)} := by
  refine ⟨trivial, fun s F answer s' h hs => ⟨_, ?_, rfl⟩⟩
  cases hs
  exact Inv.killEvent h (.inr ⟨_, rfl⟩) rfl rfl rfl rfl rfl rfl rfl (by simp) (by simp)

theorem triple_keepError (t : Thread) (r : Reason) (e : Text) :
    Prog.Triple logic (.keepError e) {.busy (.returned t r (.error e))} fun _ m =>
      m = {.busy (.kept t r (.error e))} := by
  refine ⟨trivial, fun s F _ s' h hs => ⟨_, ?_, rfl⟩⟩
  cases hs
  exact Inv.advance h rfl rfl rfl rfl rfl fun hm => hm.keepError

/-- A termination is over when its kill has returned and the error, if any, is kept. -/
theorem triple_terminateReturns {p : Phase} {t : Thread} {r : Reason} {a : Except Text Unit}
    (hp : p = .returned t r a ∧ raised a = none ∨ p = .kept t r a) :
    Prog.Triple logic .terminateReturns {.busy p} fun _ m => m = {.idle t} := by
  refine ⟨trivial, fun s F _ s' h hs => ⟨_, ?_, rfl⟩⟩
  cases hs
  have h : Inv s (.busy p ::ₘ F) := h
  obtain ⟨hthreads, hmatches, hF⟩ := h.phase
  -- the two ways to get here agree on everything that is recorded
  have hdata : p.thread = t ∧ p.reason = some r ∧ p.recordings = [(t, r)] ∧ p.kills = [some r] ∧
      p.answers = [a] ∧ p.terminationError = raised a ∧ p ≠ .running := by
    rcases hp with ⟨rfl, ha⟩ | rfl
    · exact ⟨rfl, rfl, rfl, rfl, rfl, ha.symm, by simp⟩
    · exact ⟨rfl, rfl, rfl, rfl, rfl, rfl, by simp⟩
  obtain ⟨hthread, hreason, hrecordings, hkills, hanswers, herror, hrunning⟩ := hdata
  refine ⟨.terminated t r a, ?_, ?_⟩
  · refine hthreads.replace hthread.symm ?_ ?_ ?_ ?_ ?_
    · rw [Token.unfinished, Token.unfinished, hthread, hreason, Option.isSome_some, Bool.and_true]
    · rw [phase_idle rfl, hF]
      rfl
    · intro r' hr'
      rw [← hr', hreason]
      rfl
    · intro r hr
      cases hr
    · intro r hr
      cases hr
  · refine hmatches.record hreason.symm ?_ ?_ ?_ herror.symm (fun _ => ⟨t, r, a, rfl⟩) (by simp) ?_
      (by simp) trivial
    · rw [hrecordings]
      rfl
    · rw [hkills]
      rfl
    · rw [hanswers]
      rfl
    · exact iff_of_false (by simp) hrunning

/-- A step that changes nothing but the timer's event. -/
theorem Inv.cancelled {m : Multiset Token} (h : Inv s m) (b : Bool) :
    Inv { s with cancelled := b } m := by
  obtain ⟨p, hthreads, hm⟩ := h
  exact ⟨p, hthreads, hm.reason, hm.recordings_eq, hm.kills_eq, hm.answers_eq,
    hm.terminationError, hm.terminated, hm.finished, hm.unfinished, hm.stopped, hm.history⟩

theorem triple_timerExpires :
    Prog.Triple logic .timerExpires {.idle .timer} fun _ m => m = {.idle .timer} := by
  refine ⟨trivial, fun s F expired s' h hs => ⟨_, ?_, rfl⟩⟩
  obtain ⟨-, hs⟩ := Option.ite_none_right_eq_some.mp hs
  cases hs
  exact h

theorem triple_timerExits :
    Prog.Triple logic .timerExits {.idle .timer} fun _ m => m = 0 := by
  refine ⟨trivial, fun s F _ s' h hs => ⟨0, ?_, rfl⟩⟩
  cases hs
  have h : Inv s (.idle .timer ::ₘ F) := h
  obtain ⟨p, hthreads, hm⟩ := h
  show Inv { s with timerDone := true } (0 + F)
  rw [zero_add]
  exact ⟨p, hthreads.timerExits, hm.reason, hm.recordings_eq, hm.kills_eq, hm.answers_eq,
    hm.terminationError, hm.terminated, hm.finished, hm.unfinished, hm.stopped, hm.history⟩

theorem triple_cancelTimer :
    Prog.Triple logic .cancelTimer {.idle .main} fun _ m => m = {.idle .main} := by
  refine ⟨trivial, fun s F _ s' h hs => ⟨_, ?_, rfl⟩⟩
  cases hs
  exact Inv.cancelled h true

theorem triple_finish :
    Prog.Triple logic .finish {.idle .main} fun reason m =>
      m = {Token.afterFinish reason} := by
  refine ⟨trivial, fun s F reason s' h hs => ⟨_, ?_, rfl⟩⟩
  obtain ⟨hr, hs'⟩ := Option.ite_none_right_eq_some.mp hs
  cases hs'
  subst hr
  have h : Inv s (.idle .main ::ₘ F) := h
  obtain ⟨p, hthreads, hm⟩ := h
  have hfin : s.finished = false :=
    hthreads.unfinished.mpr ⟨_, Multiset.mem_cons_self _ _, rfl⟩
  show Inv _ (Token.afterFinish s.reason ::ₘ F)
  cases hreason : p.reason with
  -- no termination has come first: the kill is left to `stop`
  | none =>
    rw [show Token.afterFinish s.reason = .busy .cleanup by rw [hm.reason, hreason]; rfl]
    obtain rfl := (hm.unfinished hreason).mp hfin
    refine ⟨.cleanup, ?_, hm.finish rfl hfin⟩
    refine hthreads.finish rfl rfl rfl ?_ ?_ ?_ ?_
    · show (Token.busy .cleanup ::ₘ F).filterMap Token.phase = {.cleanup}
      rw [phase_busy, hthreads.rest rfl]
      rfl
    · intro r hr
      cases hr
    · intro r hr
      cases hr
    · intro r hr
      cases hr
  -- a termination has come first: `stop` waits for the timer
  | some r =>
    rw [show Token.afterFinish s.reason = .awaiting r by rw [hm.reason, hreason]; rfl]
    refine ⟨p, ?_, hm.finish ?_ hfin⟩
    · refine hthreads.finish rfl rfl rfl ?_ (fun _ hr => hr) ?_ ?_
      · have hbusy := hthreads.busy
        rw [phase_idle rfl] at hbusy ⊢
        exact hbusy
      · intro r' hr'
        cases hr'
        exact hreason
      · intro r hr
        cases hr
    · rw [hreason, if_neg (by simp)]

theorem triple_joinTimer (r : Reason) :
    Prog.Triple logic .joinTimer {.awaiting r} fun _ m => m = {.joined r} := by
  refine ⟨trivial, fun s F _ s' h hs => ⟨_, ?_, rfl⟩⟩
  obtain ⟨hdone, hs'⟩ := Option.ite_none_right_eq_some.mp hs
  cases hs'
  have h : Inv s (.awaiting r ::ₘ F) := h
  obtain ⟨p, hthreads, hm⟩ := h
  have hreason : p.reason = some r := hthreads.awaiting r (Multiset.mem_cons_self _ _)
  refine ⟨p, hthreads.replace rfl rfl ?_ (fun _ hr => hr) ?_ ?_, hm⟩
  · have hbusy := hthreads.busy
    rw [phase_idle rfl] at hbusy ⊢
    exact hbusy
  · intro r hr
    cases hr
  · intro r' hr'
    cases hr'
    exact ⟨hreason, hdone⟩

theorem triple_joinTimer_cleanup (a : Except Text Unit) :
    Prog.Triple logic .joinTimer {.busy (.cleanupKilled a)} fun _ m =>
      m = {.busy (.cleanupKilled a)} := by
  refine ⟨trivial, fun s F _ s' h hs => ⟨_, ?_, rfl⟩⟩
  obtain ⟨-, hs'⟩ := Option.ite_none_right_eq_some.mp hs
  cases hs'
  exact h

theorem triple_callKill_cleanup :
    Prog.Triple logic (.callKill none) {.busy .cleanup} fun _ m =>
      m = {.busy .cleanupKilling} := by
  refine ⟨trivial, fun s F _ s' h hs => ⟨_, ?_, rfl⟩⟩
  cases hs
  exact Inv.killEvent h (.inl ⟨_, rfl⟩) rfl rfl rfl rfl rfl rfl rfl (by simp) (by simp)

theorem triple_killReturns_cleanup :
    Prog.Triple logic .killReturns {.busy .cleanupKilling} fun answer m =>
      m = {.busy (.cleanupKilled answer)} := by
  refine ⟨trivial, fun s F answer s' h hs => ⟨_, ?_, rfl⟩⟩
  cases hs
  exact Inv.killEvent h (.inr ⟨_, rfl⟩) rfl rfl rfl rfl rfl rfl rfl (by simp) (by simp)

theorem isNone_raised {a : Except Text Unit} : (raised a).isNone = true ↔ a = .ok () := by
  rcases a with e | ⟨⟨⟩⟩
  · exact iff_of_false (by simp [raised]) (by simp)
  · exact iff_of_true rfl rfl

/-- When `stop` returns, an `answers` of one element decides what it may say. -/
theorem Matches.allowed {p : Phase} {s : State} (h : Matches p s) {result : SandboxCleanupResult}
    {a : Except Text Unit} (hkills : p.kills = [result.reason]) (hanswers : p.answers = [a])
    (hstopped : result.containerStopped = (raised a).isNone) :
    Allowed s.log (.stopReturned result) := by
  intro _
  refine ⟨h.kills_eq.trans hkills, ?_⟩
  rw [hstopped, isNone_raised, ← mem_answers, h.answers_eq, hanswers, List.mem_singleton]
  exact eq_comm

theorem triple_stopReturns_cleanup (a : Except Text Unit) :
    Prog.Triple logic (.stopReturns none (raised a) (raised a).isNone)
      {.busy (.cleanupKilled a)} fun _ m => m = 0 := by
  refine ⟨trivial, fun s F _ s' h hs => ⟨0, ?_, rfl⟩⟩
  cases hs
  have h : Inv s (.busy (.cleanupKilled a) ::ₘ F) := h
  obtain ⟨hthreads, hm, hF⟩ := h.phase
  have hfin : s.finished = true := by
    by_contra hne
    have hrun := (hm.unfinished rfl).mp (Bool.eq_false_iff.mpr hne)
    cases hrun
  show Inv _ (0 + F)
  rw [zero_add]
  refine ⟨.cleaned a, hthreads.drop rfl hF (fun _ hr => by cases hr), ?_⟩
  refine hm.record rfl rfl rfl rfl rfl ?_ (by simp) (by simp) ?_ (hm.allowed rfl rfl rfl)
  · intro hmem
    obtain ⟨_, _, _, hp⟩ := hm.terminated (hmem.resolve_right (by simp))
    cases hp
  · intro result hresult
    cases hresult
    exact ⟨rfl, hfin⟩

/-- Once `stop` has joined the timer, only a thread for which it does not wait
can still be in a termination. -/
theorem Threads.other_of_busy {p : Phase} {finished timerDone : Bool} {r : Reason}
    (h : Threads p finished timerDone (.joined r ::ₘ F)) (hp : p.busy = true) :
    p.thread = .other := by
  have hdone : timerDone = true := (h.joined r (Multiset.mem_cons_self _ _)).2
  have hmem : Token.busy p ∈ F := by
    have hbusy := h.busy
    rw [phase_idle rfl, if_pos hp] at hbusy
    have hpmem : p ∈ F.filterMap Token.phase := by
      rw [hbusy]
      exact Multiset.mem_singleton_self p
    obtain ⟨t, ht, htp⟩ := (Multiset.mem_filterMap _ _).mp hpmem
    cases t <;> cases htp
    exact ht
  have hmain := h.main
  have htimer := h.timer
  rw [on_cons, if_pos (show (Token.joined r).thread = .main from rfl)] at hmain
  rw [on_cons, hdone] at htimer
  cases hthread : p.thread with
  | other => rfl
  | main =>
    have := @on_pos .main _ _ hmem hthread
    omega
  | timer =>
    have := @on_pos .timer _ _ hmem hthread
    simp only [Bool.toNat_true] at htimer
    omega

theorem triple_stopReturns (r : Reason) :
    Prog.Triple logic (.stopReturns (some r) none false) {.joined r} fun _ m => m = 0 := by
  refine ⟨trivial, fun s F _ s' h hs => ⟨0, ?_, rfl⟩⟩
  cases hs
  have h : Inv s (.joined r ::ₘ F) := h
  obtain ⟨p, hthreads, hm⟩ := h
  have hreason : p.reason = some r := (hthreads.joined r (Multiset.mem_cons_self _ _)).1
  have hfin : s.finished = true := hthreads.finished_of_main rfl rfl
  show Inv _ (0 + F)
  rw [zero_add]
  refine ⟨p, ?_, ?_⟩
  · refine hthreads.drop rfl ?_ (fun _ hr => hr)
    have hbusy := hthreads.busy
    rw [phase_idle rfl] at hbusy
    exact hbusy
  refine hm.record rfl (List.append_nil _).symm (List.append_nil _).symm (List.append_nil _).symm
    rfl ?_ (by simp) Iff.rfl ?_ ?_
  · intro hmem
    exact hm.terminated (hmem.resolve_right (by simp))
  · intro result hresult
    cases hresult
    exact ⟨hreason.symm, hfin⟩
  · -- the termination has ended, or it runs where `stop` does not wait for it
    intro hawaited
    have hover : p.busy = false := by
      by_contra hbusy
      have hother := hthreads.other_of_busy (Bool.eq_true_of_not_eq_false hbusy)
      have hrec : (Thread.other, r) ∈ recordings s.log := by
        rw [hm.recordings_eq]
        cases p <;> cases hreason <;> cases hother <;> exact List.mem_singleton_self _
      obtain ⟨_, _, _, rfl⟩ := hm.terminated (hawaited r (mem_recordings.mp hrec))
      exact hbusy rfl
    cases p with
    | terminated t r' a =>
      cases hreason
      refine hm.allowed (a := a) rfl rfl ?_ hawaited
      show s.terminationError.isNone = (raised a).isNone
      rw [hm.terminationError]
      rfl
    | running => cases hreason
    | cleaned a => cases hreason
    | _ => cases hover

/-! ### The threads -/

/-- A termination leaves its thread as it was. -/
theorem terminate_safe (t : Thread) (r : Reason) :
    Prog.Safe logic (fun _ m => m = {.idle t}) (terminate t r) {.idle t} := by
  refine Prog.Safe.perform_bind (triple_recordReason t r) fun started m hm => ?_
  obtain rfl := hm
  cases started with
  | false => exact rfl
  | true =>
    refine Prog.Safe.perform_bind (triple_callKill t r) fun _ m hm => ?_
    obtain rfl := hm
    refine Prog.Safe.perform_bind (triple_killReturns t r) fun answer m hm => ?_
    obtain rfl := hm
    rcases answer with e | ⟨⟨⟩⟩
    · refine Prog.Safe.perform_bind (triple_keepError t r e) fun _ m hm => ?_
      obtain rfl := hm
      exact Prog.Safe.perform_bind (triple_terminateReturns (.inr rfl)) fun _ m hm => hm
    · exact Prog.Safe.perform_bind (triple_terminateReturns (.inl ⟨rfl, rfl⟩)) fun _ m hm => hm

theorem timer_safe (fires : ℕ) :
    Prog.Safe logic (fun _ m => m = 0) (timer fires) {.idle .timer} := by
  induction fires with
  | zero => exact Prog.Safe.perform triple_timerExits fun _ m hm => hm
  | succ n ih =>
    refine Prog.Safe.perform_bind triple_timerExpires fun expired m hm => ?_
    obtain rfl := hm
    cases expired with
    | false => exact Prog.Safe.perform triple_timerExits fun _ m hm => hm
    | true =>
      refine Prog.Safe.bind (terminate_safe .timer .timeout) (fun _ m hm => ?_) fun e => e.elim
      obtain rfl := hm
      exact ih

theorem stop_safe : Prog.Safe logic (fun _ m => m = 0) stop {.idle .main} := by
  refine Prog.Safe.perform_bind triple_cancelTimer fun _ m hm => ?_
  obtain rfl := hm
  refine Prog.Safe.perform_bind triple_finish fun reason m hm => ?_
  obtain rfl := hm
  cases reason with
  | none =>
    refine Prog.Safe.perform_bind triple_callKill_cleanup fun _ m hm => ?_
    obtain rfl := hm
    refine Prog.Safe.perform_bind triple_killReturns_cleanup fun answer m hm => ?_
    obtain rfl := hm
    refine Prog.Safe.perform_bind (triple_joinTimer_cleanup answer) fun _ m hm => ?_
    obtain rfl := hm
    exact Prog.Safe.perform (triple_stopReturns_cleanup answer) fun _ m hm => hm
  | some r =>
    refine Prog.Safe.perform_bind (triple_joinTimer r) fun _ m hm => ?_
    obtain rfl := hm
    exact Prog.Safe.perform (triple_stopReturns r) fun _ m hm => hm

theorem main_safe (captures : ℕ) :
    Prog.Safe logic (fun _ m => m = 0) (main captures) {.idle .main} := by
  induction captures with
  | zero => exact stop_safe
  | succ n ih =>
    refine Prog.Safe.bind (terminate_safe .main .outputLimit) (fun _ m hm => ?_) fun e => e.elim
    obtain rfl := hm
    exact ih

/-- A thread at its end holds nothing that matters. -/
def Ended (m : Multiset Token) : Prop := m = 0 ∨ m = {.idle .other}

theorem other_safe (r : Reason) :
    Prog.Safe logic (fun _ m => Ended m) (other r) {.idle .other} :=
  Prog.Safe.bind (terminate_safe .other r) (fun _ _ hm => .inr hm) fun e => e.elim

theorem Inv.new : Inv .new {.idle .timer, .idle .main} := by
  refine ⟨.running, ⟨?_, ?_, ?_, ?_, ?_, ?_⟩, ?_⟩
  · rfl
  · exact Nat.le_of_ble_eq_true rfl
  · exact Nat.le_of_ble_eq_true rfl
  · exact iff_of_true rfl ⟨.idle .main, by simp, rfl⟩
  · intro r hr
    simp at hr
  · intro r hr
    simp at hr
  · refine ⟨rfl, rfl, rfl, rfl, rfl, ?_, ?_, fun _ => iff_of_true rfl rfl, ?_, History.nil⟩
    · intro hmem
      cases hmem
    · exact iff_of_false (by simp [State.new]) (by simp [State.new])
    · intro result hmem
      cases hmem

/-- The proof outline of an execution. -/
def executionOutline : execution.Outline Token :=
  logic.outline (fun _ m => Ended m)
    (by
      intro s threads h
      obtain ⟨rfl, fires, captures, rfl⟩ := h
      refine ⟨[(timer fires, {.idle .timer}), (main captures, {.idle .main})], rfl, ?_, ?_⟩
      · intro a ha
        rcases List.mem_cons.mp ha with rfl | ha
        · exact (timer_safe fires).mono fun _ _ hm => .inl hm
        · obtain rfl := List.mem_singleton.mp ha
          exact (main_safe captures).mono fun _ _ hm => .inl hm
      · show Inv .new (ThreadSystem.tokens _)
        rw [ThreadSystem.tokens_cons, ThreadSystem.tokens_cons, ThreadSystem.tokens_nil, add_zero]
        exact Inv.new)
    (fun henv _ => henv.elim)
    (by
      intro s p ann hp _ h
      obtain ⟨r, rfl⟩ := hp
      obtain ⟨q, hthreads, hmatches⟩ := h
      exact ⟨{.idle .other}, other_safe r, q, hthreads.start, hmatches⟩)

/-! ### What holds of every run -/

/-- What the watchdog and `stop` agree on, in every state of an execution. -/
structure OneStop (x : ThreadSystem.State State (M Unit)) : Prop where
  /-- a reason is recorded at most once, and it is the reason of the watchdog -/
  recordings : (recordings x.shared.log).length ≤ 1 ∧
    x.shared.reason = ((recordings x.shared.log).map Prod.snd).head?
  /-- the container is killed at most once, -/
  kills_le : (kills x.shared.log).length ≤ 1
  /-- and once when all threads have ended -/
  kills_one : (∀ p ∈ x.threads, p.finished = true) → (kills x.shared.log).length = 1
  /-- `stop` returns the recorded reason, under which the kill was issued -/
  reason : ∀ result, .stopReturned result ∈ x.shared.log → result.reason = x.shared.reason ∧
    ∀ reason ∈ kills x.shared.log, reason = result.reason
  /-- no termination starts after `finish` -/
  late : ∀ before after, x.shared.log = before ++ .finished :: after →
    ∀ thread reason, .recorded thread reason ∉ after
  /-- when `stop` returns, and no thread for which it does not wait is inside a
  termination, the container has been killed once, under the returned reason,
  and counts as stopped exactly when that kill has succeeded -/
  stopped : ∀ before result after, x.shared.log = before ++ .stopReturned result :: after →
    Awaited before → kills before = [result.reason] ∧
    (result.containerStopped = true ↔ .killReturned (.ok ()) ∈ before)

theorem Phase.lengths (p : Phase) :
    p.recordings.length ≤ 1 ∧ p.reason = (p.recordings.map Prod.snd).head? ∧
      p.kills.length ≤ 1 := by
  cases p <;> exact ⟨Nat.le_of_ble_eq_true rfl, rfl, Nat.le_of_ble_eq_true rfl⟩

/-- **Watchdog and cleanup agree on one stop**, in every interleaving. -/
theorem one_stop {x : ThreadSystem.State State (M Unit)} (hx : execution.Reachable x) :
    OneStop x := by
  obtain ⟨ann, hann, howns, hinv⟩ := executionOutline.annotated hx
  obtain ⟨p, hthreads, hm⟩ : Inv x.shared (ThreadSystem.tokens ann) := hinv
  have howns : ∀ a ∈ ann, Prog.Safe logic (fun _ m => Ended m) a.1 a.2 := howns
  obtain ⟨hlen, hreason, hkills⟩ := p.lengths
  refine ⟨⟨?_, ?_⟩, ?_, ?_, ?_, ?_, fun before result after h => hm.history before _ after h⟩
  · rw [hm.recordings_eq]
    exact hlen
  · rw [hm.recordings_eq, hm.reason]
    exact hreason
  · rw [hm.kills_eq]
    exact hkills
  · intro hfinished
    -- no thread is left that could be before `finish` or take the kill forward
    have hended : ∀ t ∈ ThreadSystem.tokens ann, t = .idle .other := by
      intro t ht
      obtain ⟨a, ha, hta⟩ := ThreadSystem.exists_of_mem_tokens ht
      have hfin := hfinished a.1 (hann ▸ List.mem_map_of_mem ha)
      obtain ⟨_, hm | hm⟩ := (howns a ha).post_of_finished hfin
      · rw [hm] at hta
        exact absurd hta (Multiset.notMem_zero t)
      · rw [hm] at hta
        exact Multiset.mem_singleton.mp hta
    have hover : p.busy = false := by
      refine Bool.eq_false_iff.mpr fun hbusy => ?_
      have hbusies := hthreads.busy
      rw [if_pos hbusy] at hbusies
      have hpmem : p ∈ (ThreadSystem.tokens ann).filterMap Token.phase := by
        rw [hbusies]
        exact Multiset.mem_singleton_self p
      obtain ⟨t, ht, htp⟩ := (Multiset.mem_filterMap _ _).mp hpmem
      rw [hended t ht] at htp
      cases htp
    have hfin : x.shared.finished = true := by
      refine Bool.eq_true_of_not_eq_false fun hfalse => ?_
      obtain ⟨t, ht, hunf⟩ := hthreads.unfinished.mp hfalse
      rw [hended t ht] at hunf
      cases hunf
    rw [hm.kills_eq]
    cases p with
    | running =>
      rw [(hm.unfinished rfl).mpr rfl] at hfin
      cases hfin
    | terminated t r a => rfl
    | cleaned a => rfl
    | _ => cases hover
  · intro result hresult
    obtain ⟨hr, -⟩ := hm.stopped result hresult
    refine ⟨hr.trans hm.reason.symm, ?_⟩
    intro reason hmem
    rw [hm.kills_eq] at hmem
    rw [hr]
    cases p <;> first | exact List.mem_singleton.mp hmem | cases hmem
  · intro before after hlog thread reason hmem
    obtain ⟨between, rest, rfl⟩ := List.append_of_mem hmem
    have hnot : .finished ∉ before ++ .finished :: between :=
      hm.history (before ++ .finished :: between) (.recorded thread reason) rest (by
        rw [hlog, List.append_assoc, List.cons_append])
    exact hnot (by simp)

/-- The answers of a timer that expires and of a container that can be killed. -/
def killable : (a : Action) → State → a.Response
  | .recordReason _ _, s => !s.finished && s.reason.isNone
  | .callKill _, _ => ()
  | .killReturns, _ => .ok ()
  | .keepError _, _ => ()
  | .terminateReturns, _ => ()
  | .timerExpires, _ => true
  | .timerExits, _ => ()
  | .cancelTimer, _ => ()
  | .finish, s => s.reason
  | .joinTimer, _ => ()
  | .stopReturns _ _ _, _ => ()

/-- The timer expires and kills; then the execution stops. -/
def timedOut : ThreadSystem.State State (M Unit) :=
  let x := Prog.run sem killable 6 (.new, timer 1)
  let y := Prog.run sem killable 4 (x.1, main 0)
  ⟨y.1, [x.2, y.2]⟩

theorem reachable_timedOut : execution.Reachable timedOut := by
  have hinit : execution.Reachable ⟨.new, [timer 1, main 0]⟩ := .init ⟨rfl, 1, 0, rfl⟩
  have htimer := @Prog.reachable_run _ _ _ _ _ _ killable _ _ _ [] [main 0] 6 (.new, timer 1) hinit
  exact @Prog.reachable_run _ _ _ _ _ _ killable _ _ _
    [(Prog.run sem killable 6 (.new, timer 1)).2] [] 4 (_, main 0) htimer

theorem one_stop_timedOut :
    (timedOut.threads.all Prog.finished = true ∧
      .stopReturned ⟨some .timeout, none, true⟩ ∈ timedOut.shared.log) ∧ OneStop timedOut :=
  ⟨⟨rfl, .tail _ (.tail _ (.tail _ (.tail _ (.tail _ (.head _)))))⟩, one_stop reachable_timedOut⟩

/-- A termination for too much output, on another thread, has recorded its
reason when the execution stops. -/
def overtaken : ThreadSystem.State State (M Unit) :=
  let x := Prog.run sem killable 1 (.new, other .outputLimit)
  let y := Prog.run sem killable 1 (x.1, timer 0)
  let z := Prog.run sem killable 4 (y.1, main 0)
  ⟨z.1, [y.2, z.2, x.2]⟩

theorem reachable_overtaken : execution.Reachable overtaken := by
  have hinit : execution.Reachable ⟨.new, [timer 0, main 0]⟩ := .init ⟨rfl, 0, 0, rfl⟩
  have hstart : execution.Reachable ⟨.new, [timer 0, main 0] ++ [other .outputLimit]⟩ :=
    hinit.tail (.start ⟨.outputLimit, rfl⟩)
  have hother := @Prog.reachable_run _ _ _ _ _ _ killable _ _ _ [timer 0, main 0] [] 1
    (.new, other .outputLimit) hstart
  have htimer := @Prog.reachable_run _ _ _ _ _ _ killable _ _ _ []
    [main 0, (Prog.run sem killable 1 (.new, other .outputLimit)).2] 1 (_, timer 0) hother
  exact @Prog.reachable_run _ _ _ _ _ _ killable _ _ _ [_]
    [(Prog.run sem killable 1 (.new, other .outputLimit)).2] 4 (_, main 0) htimer

/-- `stop` has called the container stopped, and no kill has been called. -/
theorem stopped_without_kill : ∃ x : ThreadSystem.State State (M Unit),
    execution.Reachable x ∧ .stopReturned ⟨some .outputLimit, none, true⟩ ∈ x.shared.log ∧
    kills x.shared.log = [] ∧ .killReturned (.ok ()) ∉ x.shared.log :=
  ⟨overtaken, reachable_overtaken, .tail _ (.tail _ (.head _)), rfl, by
    rw [← mem_answers]
    exact List.not_mem_nil⟩

end ExecutionWatchdog
