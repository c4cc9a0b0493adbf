/-
Token buckets over an ordered field.

A stream of admissions conforms to a rate and a burst when no window `[s, t]`
holds more than `burst + rate * (t - s)` of them.  A token bucket keeps one
number instead of the stream: `IsLevel` says that this number is the least slack
over all windows that end now.  The level of the empty stream is the burst
(`isLevel_nil`), it is refilled as time passes (`IsLevel.advance`), an admission
costs one token (`IsLevel.admitNow`), and one more admission is allowed by every
window exactly when a whole token is left (`IsLevel.admissible_iff`).
-/
import Mathlib.Algebra.Order.Field.Basic
import Mathlib.Order.Bounds.Image
import Mathlib.Order.Interval.Set.Defs
import Mathlib.Tactic.FieldSimp
import Mathlib.Tactic.Linarith
import Mathlib.Tactic.Ring

namespace TokenBucket

section Count

variable {K : Type*} [LinearOrder K]

/-- How many of `times` lie in the window `[s, t]`. -/
def countIn (s t : K) (times : List K) : ℕ :=
  times.countP fun a => decide (s ≤ a ∧ a ≤ t)

@[simp] theorem countIn_nil (s t : K) : countIn s t ([] : List K) = 0 := rfl

theorem countIn_append (s t : K) (as bs : List K) :
    countIn s t (as ++ bs) = countIn s t as + countIn s t bs :=
  List.countP_append

theorem countIn_singleton_of_mem {s t a : K} (hs : s ≤ a) (ht : a ≤ t) :
    countIn s t [a] = 1 := by
  rw [countIn, List.countP_singleton, if_pos (decide_eq_true ⟨hs, ht⟩)]

theorem countIn_eq_zero {s t : K} {times : List K} (h : ∀ a ∈ times, ¬(s ≤ a ∧ a ≤ t)) :
    countIn s t times = 0 := by
  rw [countIn, List.countP_eq_zero]
  intro a ha
  have hout := h a ha
  simpa using hout

/-- A window that ends after the last admission may as well end there. -/
theorem countIn_eq_of_le {s now t : K} {times : List K} (hle : ∀ a ∈ times, a ≤ now)
    (hnow : now ≤ t) : countIn s t times = countIn s now times := by
  refine List.countP_congr fun a ha => ?_
  have ha' := hle a ha
  have hat : a ≤ t := ha'.trans hnow
  simp only [decide_eq_true_eq]
  constructor
  · intro h
    exact ⟨h.1, ha'⟩
  · intro h
    exact ⟨h.1, hat⟩

theorem countIn_anti {s s' : K} (t : K) (times : List K) (h : s' ≤ s) :
    countIn s t times ≤ countIn s' t times := by
  refine List.countP_mono_left fun a _ ha => ?_
  simp only [decide_eq_true_eq] at ha ⊢
  exact ⟨h.trans ha.1, ha.2⟩

end Count

variable {K : Type*} [Field K] [LinearOrder K]

/-- No window holds more than its share of the admissions. -/
def Conforms (rate burst : K) (times : List K) : Prop :=
  ∀ s t, s ≤ t → (countIn s t times : K) ≤ burst + rate * (t - s)

/-- One more admission `now` stays within every window that ends `now`. -/
def Admissible (rate burst : K) (times : List K) (now : K) : Prop :=
  ∀ s ≤ now, (countIn s now times : K) + 1 ≤ burst + rate * (now - s)

/-- What the window from `s` to `now` still has room for. -/
def slack (rate burst : K) (times : List K) (now s : K) : K :=
  burst + rate * (now - s) - countIn s now times

/-- `level` is the least slack of the windows that end `now`. -/
def IsLevel (rate burst : K) (times : List K) (now level : K) : Prop :=
  IsLeast (slack rate burst times now '' Set.Iic now) level

variable {rate burst now level : K} {times : List K}

theorem IsLevel.le_slack (h : IsLevel rate burst times now level) {s : K} (hs : s ≤ now) :
    level ≤ slack rate burst times now s :=
  h.2 ⟨s, hs, rfl⟩

theorem slack_advance {now' : K} (hle : ∀ a ∈ times, a ≤ now) (hnow : now ≤ now') (s : K) :
    slack rate burst times now' s =
      slack rate burst times now s + rate * (now' - now) := by
  rw [slack, slack, countIn_eq_of_le hle hnow]
  ring

/-- A window that starts after the last admission has room for the burst. -/
theorem slack_of_lt {now' s : K} (hle : ∀ a ∈ times, a ≤ now) (hs : now < s) :
    slack rate burst times now' s = burst + rate * (now' - s) := by
  have hzero : countIn s now' times = 0 :=
    countIn_eq_zero fun a ha hin => absurd (hin.1.trans (hle a ha)) (not_le.mpr hs)
  rw [slack, hzero, Nat.cast_zero, sub_zero]

variable [IsStrictOrderedRing K]

theorem Conforms.nil (hrate : 0 ≤ rate) (hburst : 0 ≤ burst) : Conforms rate burst [] := by
  intro s t hst
  have hlen : 0 ≤ rate * (t - s) := mul_nonneg hrate (sub_nonneg.mpr hst)
  rw [countIn_nil, Nat.cast_zero]
  linarith

/-- An admissible admission at the end of the stream keeps it conforming. -/
theorem Conforms.admitNow (h : Conforms rate burst times) (hrate : 0 ≤ rate)
    (hle : ∀ a ∈ times, a ≤ now) (hadm : Admissible rate burst times now) :
    Conforms rate burst (times ++ [now]) := by
  intro s t hst
  rw [countIn_append]
  by_cases hin : s ≤ now ∧ now ≤ t
  · -- the window holds `now`: what it holds lies in the window that ends `now`
    rw [countIn_singleton_of_mem hin.1 hin.2, countIn_eq_of_le hle hin.2, Nat.cast_add,
      Nat.cast_one]
    have hwindow := hadm s hin.1
    have hmore : rate * (now - s) ≤ rate * (t - s) :=
      mul_le_mul_of_nonneg_left (by linarith [hin.2]) hrate
    linarith
  · have hzero : countIn s t [now] = 0 := by
      refine countIn_eq_zero fun a ha => ?_
      rw [List.mem_singleton.mp ha]
      exact hin
    rw [hzero, add_zero]
    exact h s t hst

theorem isLevel_nil (hrate : 0 ≤ rate) : IsLevel rate burst [] now burst := by
  constructor
  · exact ⟨now, Set.mem_Iic.mpr le_rfl, by simp [slack]⟩
  · rintro _ ⟨s, hs, rfl⟩
    have hlen : 0 ≤ rate * (now - s) := mul_nonneg hrate (sub_nonneg.mpr hs)
    simp only [slack, countIn_nil, Nat.cast_zero]
    linarith

/-- The window that is only `now` has room for the burst at most. -/
theorem IsLevel.le_burst (h : IsLevel rate burst times now level) : level ≤ burst := by
  have hnow := h.le_slack le_rfl
  rw [slack, sub_self, mul_zero, add_zero] at hnow
  have hcount : (0 : K) ≤ countIn now now times := Nat.cast_nonneg _
  linarith

/-- Refilling: the level rises at the rate, up to the burst. -/
theorem IsLevel.advance {now' : K} (h : IsLevel rate burst times now level) (hrate : 0 ≤ rate)
    (hle : ∀ a ∈ times, a ≤ now) (hnow : now ≤ now') :
    IsLevel rate burst times now' (min burst (level + rate * (now' - now))) := by
  constructor
  · rcases le_total (level + rate * (now' - now)) burst with hmin | hmin
    · -- the window that was the fullest still is
      obtain ⟨s, hs, hslack⟩ := h.1
      rw [min_eq_right hmin]
      refine ⟨s, Set.mem_Iic.mpr (le_trans hs hnow), ?_⟩
      rw [slack_advance hle hnow, hslack]
    · rw [min_eq_left hmin]
      rcases hnow.lt_or_eq with hlt | rfl
      · -- the bucket is full: the window that is only `now'` is empty
        refine ⟨now', Set.mem_Iic.mpr le_rfl, ?_⟩
        rw [slack_of_lt hle hlt, sub_self, mul_zero, add_zero]
      · rw [sub_self, mul_zero, add_zero] at hmin
        obtain rfl : level = burst := le_antisymm h.le_burst hmin
        exact h.1
  · rintro _ ⟨s, hs, rfl⟩
    rcases le_or_gt s now with hold | hnew
    · rw [slack_advance hle hnow]
      exact (min_le_right _ _).trans (add_le_add_left (h.le_slack hold) _)
    · rw [slack_of_lt hle hnew]
      have hlen : 0 ≤ rate * (now' - s) := mul_nonneg hrate (sub_nonneg.mpr hs)
      exact (min_le_left _ _).trans (by linarith)

/-- An admission costs every window that ends `now` one token. -/
theorem IsLevel.admitNow (h : IsLevel rate burst times now level) :
    IsLevel rate burst (times ++ [now]) now (level - 1) := by
  have hslack : ∀ s ≤ now,
      slack rate burst (times ++ [now]) now s = slack rate burst times now s - 1 := by
    intro s hs
    rw [slack, slack, countIn_append, countIn_singleton_of_mem hs le_rfl, Nat.cast_add,
      Nat.cast_one]
    ring
  constructor
  · obtain ⟨s, hs, hlevel⟩ := h.1
    exact ⟨s, hs, by rw [hslack s hs, hlevel]⟩
  · rintro _ ⟨s, hs, rfl⟩
    rw [hslack s hs]
    exact sub_le_sub_right (h.le_slack hs) 1

/-- A whole token is left exactly when every window has room for one more. -/
theorem IsLevel.admissible_iff (h : IsLevel rate burst times now level) :
    Admissible rate burst times now ↔ 1 ≤ level := by
  constructor
  · intro hadm
    obtain ⟨s, hs, hlevel⟩ := h.1
    have hwindow := hadm s hs
    rw [slack] at hlevel
    linarith
  · intro hlevel s hs
    have hwindow := h.le_slack hs
    rw [slack] at hwindow
    linarith

/-- What is not admissible overfills a window that starts strictly earlier. -/
theorem exists_lt_of_not_admissible (hrate : 0 < rate)
    (h : ¬Admissible rate burst times now) :
    ∃ s < now, burst + rate * (now - s) < (countIn s now times : K) + 1 := by
  rw [Admissible] at h
  push Not at h
  obtain ⟨s, hs, hover⟩ := h
  -- the excess leaves room to start the window a little earlier
  set excess := (countIn s now times : K) + 1 - (burst + rate * (now - s)) with hexcess
  have hpos : 0 < excess := by linarith
  have hstep : 0 < excess / (2 * rate) := div_pos hpos (by linarith)
  have hcost : rate * (excess / (2 * rate)) = excess / 2 := by
    field_simp
  refine ⟨s - excess / (2 * rate), by linarith, ?_⟩
  have hcount : (countIn s now times : K) ≤ countIn (s - excess / (2 * rate)) now times :=
    Nat.cast_le.mpr (countIn_anti now times (by linarith))
  have hwindow : rate * (now - (s - excess / (2 * rate))) = rate * (now - s) + excess / 2 := by
    rw [← hcost]
    ring
  rw [hwindow]
  linarith

end TokenBucket
