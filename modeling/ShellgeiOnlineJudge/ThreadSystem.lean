/-
Systems of threads over one shared state (the concurrency library, part 1).

A `ThreadSystem` interleaves the atomic steps of any number of threads with
steps of their surroundings, and may start new threads at any time.  Its
invariants are proved with *tokens*: every thread carries a multiset of ghost
tokens, and one global invariant relates the shared state to the sum of all
tokens.  An `Outline` packages the obligations of such a proof:

* `Outline.annotated` — in every reachable state the threads can be annotated
  with tokens that satisfy the global invariant;
* `count_tokens`, `nodup_tokens` — reading off what the tokens say about the
  threads: how many of them stand at a place, and that no two of them hold the
  same resource.
-/
import Mathlib.Logic.Relation
import Mathlib.Algebra.Order.Group.Multiset
import Mathlib.Algebra.BigOperators.Group.List.Basic

/-- Threads with local states in `Λ` over a shared state in `σ`. -/
structure ThreadSystem (σ Λ : Type*) where
  /-- The shared states in which the system starts, and the threads it starts with. -/
  init : σ → List Λ → Prop
  /-- One atomic step of one thread. -/
  step : σ → Λ → σ → Λ → Prop
  /-- One step of the surroundings. -/
  env : σ → σ → Prop
  /-- Which threads may be started next to the present ones. -/
  start : σ → List Λ → Λ → Prop

namespace ThreadSystem

variable {σ Λ τ : Type*}

/-- A shared state with the threads started so far. -/
structure State (σ Λ : Type*) where
  shared : σ
  threads : List Λ

/-- One step of the whole system. -/
inductive Step (T : ThreadSystem σ Λ) : State σ Λ → State σ Λ → Prop
  | thread {s s' : σ} {l l' : Λ} (before after : List Λ) (h : T.step s l s' l') :
      Step T ⟨s, before ++ l :: after⟩ ⟨s', before ++ l' :: after⟩
  | env {s s' : σ} (threads : List Λ) (h : T.env s s') : Step T ⟨s, threads⟩ ⟨s', threads⟩
  | start {s : σ} {threads : List Λ} {l : Λ} (h : T.start s threads l) :
      Step T ⟨s, threads⟩ ⟨s, threads ++ [l]⟩

/-- The states a system can be in: any interleaving from any initial state. -/
def Reachable (T : ThreadSystem σ Λ) (x : State σ Λ) : Prop :=
  ∃ s threads, T.init s threads ∧ Relation.ReflTransGen (Step T) ⟨s, threads⟩ x

theorem Reachable.init {T : ThreadSystem σ Λ} {s : σ} {threads : List Λ} (h : T.init s threads) :
    T.Reachable ⟨s, threads⟩ :=
  ⟨s, threads, h, .refl⟩

theorem Reachable.tail {T : ThreadSystem σ Λ} {x y : State σ Λ} (h : T.Reachable x)
    (hstep : T.Step x y) : T.Reachable y := by
  obtain ⟨s, threads, hs, hx⟩ := h
  exact ⟨s, threads, hs, hx.tail hstep⟩

/-- What holds of the initial shared states and is kept by every step holds in
every reachable state. -/
theorem Reachable.invariant {T : ThreadSystem σ Λ} {P : σ → Prop} {x : State σ Λ}
    (hx : T.Reachable x) (hinit : ∀ s threads, T.init s threads → P s)
    (hstep : ∀ s l s' l', T.step s l s' l' → P s → P s') (henv : ∀ s s', T.env s s' → P s → P s') :
    P x.shared := by
  obtain ⟨s, threads, hs, hrun⟩ := hx
  induction hrun with
  | refl => exact hinit s threads hs
  | tail _ h ih =>
    cases h with
    | thread before after h => exact hstep _ _ _ _ h ih
    | env threads h => exact henv _ _ h ih
    | start h => exact ih

/-- All tokens held by the threads of an annotation. -/
def tokens (ann : List (Λ × Multiset τ)) : Multiset τ := (ann.map Prod.snd).sum

@[simp] theorem tokens_nil : tokens ([] : List (Λ × Multiset τ)) = 0 := rfl

@[simp] theorem tokens_cons (a : Λ × Multiset τ) (ann : List (Λ × Multiset τ)) :
    tokens (a :: ann) = a.2 + tokens ann := by
  simp [tokens]

@[simp] theorem tokens_append (ann ann' : List (Λ × Multiset τ)) :
    tokens (ann ++ ann') = tokens ann + tokens ann' := by
  simp [tokens]

/-- A proof that an invariant holds along every run: `owns l m` says which
tokens a thread holds where it stands, `inv s m` what the shared state has to
do with the tokens of all threads.  Each field is one obligation. -/
structure Outline (T : ThreadSystem σ Λ) (τ : Type*) where
  inv : σ → Multiset τ → Prop
  owns : Λ → Multiset τ → Prop
  init : ∀ {s threads}, T.init s threads → ∃ ann : List (Λ × Multiset τ),
    ann.map Prod.fst = threads ∧ (∀ a ∈ ann, owns a.1 a.2) ∧ inv s (tokens ann)
  step : ∀ {s s' l l' m frame}, T.step s l s' l' → owns l m → inv s (m + frame) →
    ∃ m', owns l' m' ∧ inv s' (m' + frame)
  env : ∀ {s s' m}, T.env s s' → inv s m → inv s' m
  start : ∀ {s l} {ann : List (Λ × Multiset τ)}, T.start s (ann.map Prod.fst) l →
    (∀ a ∈ ann, owns a.1 a.2) → inv s (tokens ann) → ∃ m, owns l m ∧ inv s (m + tokens ann)

namespace Outline

variable {T : ThreadSystem σ Λ}

/-- The threads of `x` can be given tokens as the outline prescribes. -/
def Annotated (O : T.Outline τ) (x : State σ Λ) : Prop :=
  ∃ ann : List (Λ × Multiset τ), ann.map Prod.fst = x.threads ∧
    (∀ a ∈ ann, O.owns a.1 a.2) ∧ O.inv x.shared (tokens ann)

/-- One step of the system keeps an annotation. -/
theorem annotated_step (O : T.Outline τ) {x y : State σ Λ} (hstep : T.Step x y)
    (hx : O.Annotated x) : O.Annotated y := by
  obtain ⟨ann, hfst, howns, hinv⟩ := hx
  cases hstep with
  | @thread s s' l l' before after h =>
    -- the thread steps with its own tokens, the others keep theirs
    obtain ⟨ann₁, rest, rfl, rfl, hrest⟩ := List.map_eq_append_iff.mp hfst
    obtain ⟨⟨l, m⟩, ann₂, rfl, rfl, rfl⟩ := List.map_eq_cons_iff.mp hrest
    have hm : O.owns l m := howns (l, m) (by simp)
    have hinv' : O.inv s (m + (tokens ann₁ + tokens ann₂)) := by
      simpa [add_left_comm] using hinv
    obtain ⟨m', hm', hinv''⟩ := O.step h hm hinv'
    refine ⟨ann₁ ++ (l', m') :: ann₂, by simp, ?_, by simpa [add_left_comm] using hinv''⟩
    intro a ha
    rcases List.mem_append.mp ha with ha | ha
    · exact howns a (by simp [ha])
    · rcases List.mem_cons.mp ha with rfl | ha
      · exact hm'
      · exact howns a (by simp [ha])
  | env threads h => exact ⟨ann, hfst, howns, O.env h hinv⟩
  | @start s threads l h =>
    obtain rfl := hfst
    obtain ⟨m, hm, hinv'⟩ := O.start h howns hinv
    refine ⟨ann ++ [(l, m)], by simp, ?_, by simpa [add_comm] using hinv'⟩
    intro a ha
    rcases List.mem_append.mp ha with ha | ha
    · exact howns a ha
    · obtain rfl := List.mem_singleton.mp ha
      exact hm

/-- **Soundness of outlines**: every reachable state can be annotated. -/
theorem annotated (O : T.Outline τ) {x : State σ Λ} (hx : T.Reachable x) : O.Annotated x := by
  obtain ⟨s, threads, hs, hrun⟩ := hx
  induction hrun with
  | refl => exact O.init hs
  | tail _ hstep ih => exact O.annotated_step hstep ih

end Outline

/-! ### Reading tokens off the threads -/

/-- When exactly the threads at `p` hold the token `t`, once each, counting the
token counts these threads. -/
theorem count_tokens [DecidableEq τ] {ann : List (Λ × Multiset τ)} {t : τ} {p : Λ → Bool}
    (h : ∀ a ∈ ann, a.2.count t = if p a.1 then 1 else 0) :
    (tokens ann).count t = (ann.map Prod.fst).countP p := by
  induction ann with
  | nil => simp
  | cons a ann ih =>
    have ha := h a (by simp)
    have htail := ih fun b hb => h b (by simp [hb])
    rw [tokens_cons, Multiset.count_add, ha, htail, List.map_cons, List.countP_cons, add_comm]

theorem mem_tokens {ann : List (Λ × Multiset τ)} {a : Λ × Multiset τ} {t : τ}
    (ha : a ∈ ann) (ht : t ∈ a.2) : t ∈ tokens ann := by
  induction ann with
  | nil => simp at ha
  | cons b ann ih =>
    rw [tokens_cons, Multiset.mem_add]
    rcases List.mem_cons.mp ha with rfl | ha
    · exact .inl ht
    · exact .inr (ih ha)

theorem exists_of_mem_tokens {ann : List (Λ × Multiset τ)} {t : τ} (ht : t ∈ tokens ann) :
    ∃ a ∈ ann, t ∈ a.2 := by
  induction ann with
  | nil => simp at ht
  | cons b ann ih =>
    rw [tokens_cons, Multiset.mem_add] at ht
    rcases ht with ht | ht
    · exact ⟨b, by simp, ht⟩
    · obtain ⟨a, ha, hta⟩ := ih ht
      exact ⟨a, by simp [ha], hta⟩

theorem tokens_eq_zero {ann : List (Λ × Multiset τ)} (h : ∀ a ∈ ann, a.2 = 0) :
    tokens ann = 0 := by
  refine Multiset.eq_zero_of_forall_notMem fun t ht => ?_
  obtain ⟨a, ha, hta⟩ := exists_of_mem_tokens ht
  rw [h a ha] at hta
  exact Multiset.notMem_zero t hta

/-- When a thread at which `f` reads the resource `c` holds the token `t c`, and
every token occurs at most once, no resource is read at two threads. -/
theorem nodup_tokens [DecidableEq τ] {γ : Type*} [DecidableEq γ]
    {ann : List (Λ × Multiset τ)} {f : Λ → Option γ} {t : γ → τ}
    (h : ∀ a ∈ ann, ∀ c, f a.1 = some c → t c ∈ a.2)
    (hone : ∀ c, (tokens ann).count (t c) ≤ 1) :
    ((ann.map Prod.fst).filterMap f).Nodup := by
  rw [List.nodup_iff_count_le_one]
  intro c
  refine le_trans ?_ (hone c)
  clear hone
  induction ann with
  | nil => simp
  | cons a ann ih =>
    have htail := ih fun b hb => h b (by simp [hb])
    rw [tokens_cons, Multiset.count_add, List.map_cons]
    cases hf : f a.1 with
    | none => rw [List.filterMap_cons_none hf]; omega
    | some d =>
      rw [List.filterMap_cons_some hf, List.count_cons]
      by_cases hd : d = c
      · subst hd
        have : 0 < a.2.count (t d) := Multiset.count_pos.mpr (h a (by simp) d hf)
        simp only [beq_self_eq_true, if_true]
        omega
      · have : (d == c) = false := by simpa using hd
        simp only [this, Bool.false_eq_true, if_false]
        omega

end ThreadSystem
