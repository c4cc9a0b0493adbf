/-
The sandbox start limiter: soj_runner/admission_control.py, over exact
rationals.

`_tokens` is the least slack of the windows that end at the last clock reading
(`Holds`), whatever was called before (`holds_run`).  So a call is rejected
exactly when some window would be overfilled, and no window ever is
(`start_limiter_exact`).
-/
import Mathlib.Data.Rat.Floor
import Mathlib.Tactic.NormNum
import ShellgeiOnlineJudge.TokenBucket

namespace AdmissionControl

open TokenBucket

/-- `DEFAULT_SANDBOX_START_RATE_PER_SECOND` -/
def defaultSandboxStartRatePerSecond : ℚ := 1

/-- `DEFAULT_SANDBOX_START_BURST` -/
def defaultSandboxStartBurst : ℤ := 3

/-- `SandboxStartRateLimiter`; the clock is the list of its readings. -/
structure SandboxStartRateLimiter where
  ratePerSecond : ℚ
  burst : ℤ
  tokens : ℚ
  updatedAt : ℚ
deriving Repr, DecidableEq

namespace SandboxStartRateLimiter

/-- `__init__`; the clock is read once, and the error is a `ValueError`. -/
def init (ratePerSecond : ℚ) (burst : ℤ) (clock : ℚ) : Except String SandboxStartRateLimiter :=
  if ratePerSecond ≤ 0 then
    .error "rate_per_second must be a positive finite number"
  else if burst < 1 then
    .error "burst must be at least 1"
  else
    .ok { ratePerSecond, burst, tokens := burst, updatedAt := clock }

/-- The tokens after the refill of `try_acquire`. -/
def refilled (limiter : SandboxStartRateLimiter) (now : ℚ) : ℚ :=
  let elapsed := max 0 (now - limiter.updatedAt)
  min (limiter.burst : ℚ) (limiter.tokens + elapsed * limiter.ratePerSecond)

/-- `try_acquire`, with the lock held and the clock at `now`. -/
def tryAcquire (limiter : SandboxStartRateLimiter) (now : ℚ) : Bool × SandboxStartRateLimiter :=
  let tokens := limiter.refilled now
  if tokens < 1 then
    (false, { limiter with tokens, updatedAt := now })
  else
    (true, { limiter with tokens := tokens - 1, updatedAt := now })

/-- The limiter after a call for each clock reading, with the times of the calls
it admitted. -/
def run (limiter : SandboxStartRateLimiter) : List ℚ → SandboxStartRateLimiter × List ℚ
  | [] => (limiter, [])
  | now :: clock =>
    let (admitted, limiter') := limiter.tryAcquire now
    let (last, times) := limiter'.run clock
    (last, if admitted then now :: times else times)

/-- `_tokens` is the least slack of the windows that end at `_updated_at`, after
the admissions in `times`. -/
structure Holds (limiter : SandboxStartRateLimiter) (times : List ℚ) : Prop where
  rate_pos : 0 < limiter.ratePerSecond
  level : IsLevel limiter.ratePerSecond limiter.burst times limiter.updatedAt limiter.tokens
  past : ∀ a ∈ times, a ≤ limiter.updatedAt
  nonneg : 0 ≤ limiter.tokens
  conforms : Conforms limiter.ratePerSecond limiter.burst times

variable {limiter : SandboxStartRateLimiter} {times : List ℚ} {now : ℚ}

theorem init_ok {ratePerSecond clock : ℚ} {burst : ℤ} (hrate : 0 < ratePerSecond)
    (hburst : 1 ≤ burst) : init ratePerSecond burst clock =
      .ok { ratePerSecond, burst, tokens := burst, updatedAt := clock } := by
  rw [init, if_neg (not_le.mpr hrate), if_neg (not_lt.mpr hburst)]

theorem holds_init {ratePerSecond clock : ℚ} {burst : ℤ} (hrate : 0 < ratePerSecond)
    (hburst : 1 ≤ burst) :
    Holds { ratePerSecond, burst, tokens := burst, updatedAt := clock } [] := by
  have hnonneg : (0 : ℚ) ≤ burst := by exact_mod_cast (zero_le_one.trans hburst)
  exact {
    rate_pos := hrate
    level := isLevel_nil hrate.le
    past := fun a ha => by cases ha
    nonneg := hnonneg
    conforms := Conforms.nil hrate.le hnonneg }

@[simp] theorem tryAcquire_ratePerSecond :
    (limiter.tryAcquire now).2.ratePerSecond = limiter.ratePerSecond := by
  rw [tryAcquire]
  split <;> rfl

@[simp] theorem tryAcquire_burst : (limiter.tryAcquire now).2.burst = limiter.burst := by
  rw [tryAcquire]
  split <;> rfl

@[simp] theorem tryAcquire_updatedAt : (limiter.tryAcquire now).2.updatedAt = now := by
  rw [tryAcquire]
  split <;> rfl

/-- When the clock does not go back, the refill is the level of the bucket. -/
theorem Holds.level_refilled (h : limiter.Holds times) (hnow : limiter.updatedAt ≤ now) :
    IsLevel limiter.ratePerSecond limiter.burst times now (limiter.refilled now) := by
  have helapsed : limiter.refilled now = min (limiter.burst : ℚ)
      (limiter.tokens + limiter.ratePerSecond * (now - limiter.updatedAt)) := by
    rw [refilled, max_eq_right (sub_nonneg.mpr hnow), mul_comm]
  rw [helapsed]
  exact h.level.advance h.rate_pos.le h.past hnow

/-- A call is admitted exactly when every window has room for it. -/
theorem Holds.admitted_iff (h : limiter.Holds times) (hnow : limiter.updatedAt ≤ now) :
    (limiter.tryAcquire now).1 = true ↔
      Admissible limiter.ratePerSecond limiter.burst times now := by
  rw [(h.level_refilled hnow).admissible_iff, tryAcquire]
  split
  · next hlow => simpa using hlow
  · next hlow => simpa using hlow

/-- One call keeps the invariant, with the admission added to the stream. -/
theorem Holds.tryAcquire (h : limiter.Holds times) (hnow : limiter.updatedAt ≤ now) :
    (limiter.tryAcquire now).2.Holds
      (times ++ if (limiter.tryAcquire now).1 then [now] else []) := by
  have hlevel := h.level_refilled hnow
  have hpast : ∀ a ∈ times, a ≤ now := fun a ha => (h.past a ha).trans hnow
  have hadm := h.admitted_iff hnow
  by_cases hlow : limiter.refilled now < 1
  -- refused: the bucket is filled up and nothing is admitted
  · have hcall : limiter.tryAcquire now =
        (false, { limiter with tokens := limiter.refilled now, updatedAt := now }) := by
      rw [SandboxStartRateLimiter.tryAcquire, if_pos hlow]
    rw [hcall, if_neg Bool.false_ne_true, List.append_nil]
    have hrefill : 0 ≤ limiter.refilled now := by
      have hburst : limiter.tokens ≤ limiter.burst := h.level.le_burst
      refine le_min (h.nonneg.trans hburst) (add_nonneg h.nonneg ?_)
      exact mul_nonneg (le_max_left _ _) h.rate_pos.le
    exact ⟨h.rate_pos, hlevel, hpast, hrefill, h.conforms⟩
  -- admitted: the stream gets the call and still conforms
  · have hcall : limiter.tryAcquire now =
        (true, { limiter with tokens := limiter.refilled now - 1, updatedAt := now }) := by
      rw [SandboxStartRateLimiter.tryAcquire, if_neg hlow]
    rw [hcall] at hadm
    rw [hcall, if_pos rfl]
    refine ⟨h.rate_pos, hlevel.admitNow, ?_, sub_nonneg.mpr (not_lt.mp hlow), ?_⟩
    · intro a ha
      rcases List.mem_append.mp ha with ha | ha
      · exact hpast a ha
      · exact (List.mem_singleton.mp ha).le
    · exact h.conforms.admitNow h.rate_pos.le hpast (hadm.mp rfl)

theorem run_cons (clock : List ℚ) : limiter.run (now :: clock) =
    (((limiter.tryAcquire now).2.run clock).1,
      (if (limiter.tryAcquire now).1 then [now] else []) ++
        ((limiter.tryAcquire now).2.run clock).2) := by
  rw [run]
  by_cases hadm : (limiter.tryAcquire now).1 = true
  · simp [hadm]
  · simp [hadm]

/-- The invariant along every run on a clock that does not go back. -/
theorem Holds.run {clock : List ℚ} (h : limiter.Holds times)
    (hclock : (limiter.updatedAt :: clock).Pairwise (· ≤ ·)) :
    (limiter.run clock).1.Holds (times ++ (limiter.run clock).2) ∧
      (limiter.run clock).1.ratePerSecond = limiter.ratePerSecond ∧
      (limiter.run clock).1.burst = limiter.burst ∧
      (limiter.run clock).1.updatedAt = (limiter.updatedAt :: clock).getLast (by simp) := by
  induction clock generalizing limiter times with
  | nil =>
    rw [SandboxStartRateLimiter.run, List.append_nil]
    exact ⟨h, rfl, rfl, rfl⟩
  | cons now clock ih =>
    obtain ⟨hfirst, hrest⟩ := List.pairwise_cons.mp hclock
    have hstep := h.tryAcquire (hfirst now List.mem_cons_self)
    have hrun := ih hstep (by rw [tryAcquire_updatedAt]; exact hrest)
    rw [run_cons, ← List.append_assoc]
    obtain ⟨hholds, hrate, hburst, hlast⟩ := hrun
    refine ⟨hholds, hrate.trans tryAcquire_ratePerSecond, hburst.trans tryAcquire_burst, ?_⟩
    rw [hlast, List.getLast_cons (List.cons_ne_nil now clock)]
    simp only [tryAcquire_updatedAt]

/-- The limiter is an exact greedy token bucket: after any calls at
non-decreasing clock readings the tokens lie between 0 and the burst, no window
holds more admissions than its share, and the next call is rejected exactly when
admitting it would overfill a window that starts earlier. -/
theorem start_limiter_exact (ratePerSecond start : ℚ) (burst : ℤ) (clock : List ℚ)
    (hrate : 0 < ratePerSecond) (hburst : 1 ≤ burst)
    (hclock : (start :: clock).Pairwise (· ≤ ·)) :
    ∃ limiter, init ratePerSecond burst start = .ok limiter ∧
      0 ≤ (limiter.run clock).1.tokens ∧ (limiter.run clock).1.tokens ≤ burst ∧
      (∀ s t, s ≤ t →
        (countIn s t (limiter.run clock).2 : ℚ) ≤ burst + ratePerSecond * (t - s)) ∧
      ∀ now, (∀ reading ∈ start :: clock, reading ≤ now) →
        (((limiter.run clock).1.tryAcquire now).1 = false ↔
          ∃ s < now, burst + ratePerSecond * (now - s) <
            (countIn s now (limiter.run clock).2 : ℚ) + 1) := by
  have hinit := @init_ok _ start _ hrate hburst
  have hstart := @holds_init _ start _ hrate hburst
  refine ⟨_, hinit, ?_⟩
  obtain ⟨h, hr, hb, hlast⟩ := hstart.run hclock
  rw [List.nil_append] at h
  refine ⟨h.nonneg, ?_, ?_, ?_⟩
  · have hle := h.level.le_burst
    rwa [hb] at hle
  · have hconforms := h.conforms
    rw [hr, hb] at hconforms
    exact hconforms
  · intro now hnow
    have hupdated := hnow _ (List.getLast_mem (List.cons_ne_nil start clock))
    have hadm := h.admitted_iff (hlast.le.trans hupdated)
    rw [hr, hb] at hadm
    rw [← Bool.not_eq_true, hadm]
    constructor
    · intro hreject
      exact exists_lt_of_not_admissible hrate hreject
    · rintro ⟨s, hs, hover⟩ hall
      exact absurd (hall s hs.le) (not_le.mpr hover)

theorem start_limiter_exact_production :
    ∃ limiter, init 1 3 100 = .ok limiter ∧
      0 ≤ (limiter.run [100, 100, 101]).1.tokens ∧
      (limiter.run [100, 100, 101]).1.tokens ≤ (3 : ℤ) ∧
      (∀ s t, s ≤ t →
        (countIn s t (limiter.run [100, 100, 101]).2 : ℚ) ≤ (3 : ℤ) + 1 * (t - s)) ∧
      ∀ now, (∀ reading ∈ [100, 100, 100, 101], reading ≤ now) →
        (((limiter.run [100, 100, 101]).1.tryAcquire now).1 = false ↔
          ∃ s < now, (3 : ℤ) + 1 * (now - s) <
            (countIn s now (limiter.run [100, 100, 101]).2 : ℚ) + 1) :=
  start_limiter_exact 1 100 3 [100, 100, 101] (by norm_num) (by norm_num) (by norm_num)

/-- Three starts at once are admitted and the fourth is refused, until one second
has passed. -/
example : (init defaultSandboxStartRatePerSecond defaultSandboxStartBurst 100).map
    (fun limiter => (limiter.run [100, 100, 100, 100, 1009 / 10, 101]).2) =
      .ok [100, 100, 100, 101] := by decide +kernel

end SandboxStartRateLimiter

end AdmissionControl
