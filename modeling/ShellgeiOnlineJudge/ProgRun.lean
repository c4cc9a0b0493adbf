/-
Programs of one thread: their runs, and weakest preconditions (the concurrency
library, part 5).

`Runs sem s p r s'` says that the program `p`, started in `s`, may end with `r` in
`s'`; the actions get any response that the state allows.

* `wp_iff` — the weakest precondition of a postcondition is that every run ends in it;
* `Wp.bind`, `Wp.tryCatch`, `Wp.finally'` — the rules for the program constructs;
* `Only.wp` — what every action of a program preserves, the program preserves.
-/
import ShellgeiOnlineJudge.Prog

namespace Prog

variable {A : Type} {R : A → Type} {ε ε' α β σ : Type} {sem : (a : A) → σ → R a → Option σ}

/-- The program may end with this result in this state. -/
inductive Runs (sem : (a : A) → σ → R a → Option σ) :
    σ → Prog A R ε α → Except ε α → σ → Prop
  | done {s : σ} {r : Except ε α} : Runs sem s (.done r) r s
  | act {s s' s'' : σ} {a : A} {k : R a → Prog A R ε α} {response : R a} {r : Except ε α}
      (h : sem a s response = some s') (rest : Runs sem s' (k response) r s'') :
      Runs sem s (.act a k) r s''

/-- Wherever the program ends, `Q` holds. -/
def Wp (sem : (a : A) → σ → R a → Option σ) :
    Prog A R ε α → (Except ε α → σ → Prop) → σ → Prop
  | .done r, Q, s => Q r s
  | .act a k, Q, s => ∀ response s', sem a s response = some s' → Wp sem (k response) Q s'

theorem Wp.of_runs {p : Prog A R ε α} {Q : Except ε α → σ → Prop} {s s' : σ} {r : Except ε α}
    (h : Wp sem p Q s) (hruns : Runs sem s p r s') : Q r s' := by
  induction hruns with
  | done => exact h
  | act hsem _ ih => exact ih (h _ _ hsem)

theorem wp_iff {p : Prog A R ε α} {Q : Except ε α → σ → Prop} {s : σ} :
    Wp sem p Q s ↔ ∀ r s', Runs sem s p r s' → Q r s' := by
  constructor
  · intro h r s' hruns
    exact h.of_runs hruns
  · intro h
    induction p generalizing s with
    | done r => exact h r s .done
    | act a k ih =>
      intro response s' hsem
      exact ih response fun r s'' hruns => h r s'' (.act hsem hruns)

/-- The run that the answers lead to, when they end it. -/
theorem runs_run (answer : (a : A) → σ → R a) (n : ℕ) {s s' : σ} {p : Prog A R ε α}
    {r : Except ε α} (h : run sem answer n (s, p) = (s', .done r)) : Runs sem s p r s' := by
  induction n generalizing s p with
  | zero =>
    obtain ⟨rfl, rfl⟩ := Prod.mk.inj h
    exact .done
  | succ n ih =>
    cases p with
    | done r' =>
      obtain ⟨rfl, hr⟩ := Prod.mk.inj h
      obtain rfl := done.inj hr
      exact .done
    | act a k =>
      simp only [run] at h
      split at h
      · next s₁ hsem => exact .act hsem (ih h)
      · cases h

/-- What a program that has ended has ended with. -/
def result : Prog A R ε α → Option (Except ε α)
  | .done r => some r
  | .act _ _ => none

theorem runs_of_result (answer : (a : A) → σ → R a) (n : ℕ) {s : σ} {p : Prog A R ε α}
    {r : Except ε α} (h : (run sem answer n (s, p)).2.result = some r) :
    Runs sem s p r (run sem answer n (s, p)).1 := by
  have hdone : (run sem answer n (s, p)).2 = .done r := by
    cases hp : (run sem answer n (s, p)).2 with
    | done r' =>
      rw [hp] at h
      rw [Option.some.inj h]
    | act a k =>
      rw [hp] at h
      cases h
  exact runs_run answer n (Prod.ext rfl hdone)

/-! ### Rules -/

section Rules

variable {s : σ}

theorem Wp.mono {p : Prog A R ε α} {Q Q' : Except ε α → σ → Prop} (h : Wp sem p Q s)
    (himp : ∀ r s', Q r s' → Q' r s') : Wp sem p Q' s := by
  induction p generalizing s with
  | done r => exact himp r s h
  | act a k ih =>
    intro response s' hsem
    exact ih response (h response s' hsem)

theorem Wp.handle {p : Prog A R ε α} {f : Except ε α → Prog A R ε' β}
    {Q : Except ε α → σ → Prop} {Q' : Except ε' β → σ → Prop} (hp : Wp sem p Q s)
    (hf : ∀ r s', Q r s' → Wp sem (f r) Q' s') : Wp sem (p.handle f) Q' s := by
  induction p generalizing s with
  | done r => exact hf r s hp
  | act a k ih =>
    intro response s' hsem
    exact ih response (hp response s' hsem)

theorem Wp.bind {p : Prog A R ε α} {f : α → Prog A R ε β} {Q : Except ε α → σ → Prop}
    {Q' : Except ε β → σ → Prop} (hp : Wp sem p Q s)
    (hok : ∀ a s', Q (.ok a) s' → Wp sem (f a) Q' s')
    (herror : ∀ e s', Q (.error e) s' → Q' (.error e) s') : Wp sem (p >>= f) Q' s :=
  Wp.handle hp fun r s' hr => match r with
    | .ok a => hok a s' hr
    | .error e => herror e s' hr

theorem Wp.tryCatch {p : Prog A R ε α} {f : ε → Prog A R ε α} {Q Q' : Except ε α → σ → Prop}
    (hp : Wp sem p Q s) (hok : ∀ a s', Q (.ok a) s' → Q' (.ok a) s')
    (herror : ∀ e s', Q (.error e) s' → Wp sem (f e) Q' s') :
    Wp sem (MonadExcept.tryCatch p f) Q' s :=
  Wp.handle hp fun r s' hr => match r with
    | .ok a => hok a s' hr
    | .error e => herror e s' hr

theorem Wp.finally' {p : Prog A R ε α} {last : Prog A R ε Unit}
    {Q Q' : Except ε α → σ → Prop} (hp : Wp sem p Q s)
    (hlast : ∀ r s', Q r s' → Wp sem last (fun x s'' => match x with
      | .ok _ => Q' r s''
      | .error e => Q' (.error e) s'') s') : Wp sem (p.finally' last) Q' s :=
  Wp.handle hp fun r s' hr => Wp.handle (hlast r s' hr) fun x _ hx => match x with
    | .ok _ => hx
    | .error _ => hx

theorem Wp.perform_bind {a : A} {f : R a → Prog A R ε β} {Q : Except ε β → σ → Prop}
    (h : ∀ response s', sem a s response = some s' → Wp sem (f response) Q s') :
    Wp sem (perform a >>= f) Q s := h

theorem Wp.unwrap_bind {r : Except ε α} {f : α → Prog A R ε β} {Q : Except ε β → σ → Prop}
    (hok : ∀ a, r = .ok a → Wp sem (f a) Q s) (herror : ∀ e, r = .error e → Q (.error e) s) :
    Wp sem (unwrap r >>= f) Q s :=
  match r with
  | .ok a => hok a rfl
  | .error e => herror e rfl

end Rules

/-! ### What a program may do -/

/-- The program may end with `Q`. -/
def May (sem : (a : A) → σ → R a → Option σ) (p : Prog A R ε α) (Q : Except ε α → σ → Prop)
    (s : σ) : Prop := ∃ r s', Runs sem s p r s' ∧ Q r s'

theorem may_done {r : Except ε α} {Q : Except ε α → σ → Prop} {s : σ} (h : Q r s) :
    May sem (.done r) Q s :=
  ⟨r, s, .done, h⟩

theorem May.perform_bind {a : A} {f : R a → Prog A R ε β} {Q : Except ε β → σ → Prop} {s : σ}
    (response : R a) (s' : σ) (hsem : sem a s response = some s') (h : May sem (f response) Q s') :
    May sem (perform a >>= f) Q s := by
  obtain ⟨r, s'', hruns, hQ⟩ := h
  exact ⟨r, s'', .act hsem hruns, hQ⟩

/-! ### Programs of some actions only -/

/-- All actions of a program are among those of `P`. -/
def Only (P : A → Prop) : Prog A R ε α → Prop
  | .done _ => True
  | .act a k => P a ∧ ∀ response, Only P (k response)

variable {P : A → Prop}

theorem only_pure (a : α) : Only P (pure a : Prog A R ε α) := trivial

theorem only_throw (e : ε) : Only P (throw e : Prog A R ε α) := trivial

theorem only_unwrap (r : Except ε α) : Only P (unwrap r : Prog A R ε α) := trivial

theorem Only.handle {p : Prog A R ε α} {f : Except ε α → Prog A R ε' β} (hp : Only P p)
    (hf : ∀ r, Only P (f r)) : Only P (p.handle f) := by
  induction p with
  | done r => exact hf r
  | act a k ih => exact ⟨hp.1, fun response => ih response (hp.2 response)⟩

theorem Only.bind {p : Prog A R ε α} {f : α → Prog A R ε β} (hp : Only P p)
    (hf : ∀ a, Only P (f a)) : Only P (p >>= f) :=
  Only.handle hp fun r => match r with
    | .ok a => hf a
    | .error _ => trivial

theorem Only.tryCatch {p : Prog A R ε α} {f : ε → Prog A R ε α} (hp : Only P p)
    (hf : ∀ e, Only P (f e)) : Only P (MonadExcept.tryCatch p f) :=
  Only.handle hp fun r => match r with
    | .ok _ => trivial
    | .error e => hf e

theorem Only.finally' {p : Prog A R ε α} {last : Prog A R ε Unit} (hp : Only P p)
    (hlast : Only P last) : Only P (p.finally' last) :=
  Only.handle hp fun _ => Only.handle hlast fun r => match r with
    | .ok _ => trivial
    | .error _ => trivial

theorem only_ite {c : Prop} [Decidable c] {p q : Prog A R ε α} (hp : c → Only P p)
    (hq : ¬ c → Only P q) : Only P (if c then p else q) := by
  by_cases hc : c
  · rw [if_pos hc]
    exact hp hc
  · rw [if_neg hc]
    exact hq hc

/-- What every action of the program preserves, the program preserves. -/
theorem Only.wp {p : Prog A R ε α} {I : σ → Prop} {s : σ} (hp : Only P p)
    (hstep : ∀ a s response s', P a → I s → sem a s response = some s' → I s') (hs : I s) :
    Wp sem p (fun _ => I) s := by
  induction p generalizing s with
  | done r => exact hs
  | act a k ih =>
    intro response s' hsem
    exact ih response (hp.2 response) (hstep a s response s' hp.1 hs hsem)

end Prog
