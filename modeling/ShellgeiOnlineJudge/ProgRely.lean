/-
One program and its surroundings (the concurrency library, part 7).

Between two actions of a program its surroundings take any number of steps.  A program
`Withstands` them when `here` holds wherever it stands at an action and the postcondition
holds where it has ended, at whatever time one looks.

* `Withstands.bind`, `Withstands.tryCatch`, `Withstands.perform_bind` — the rules for the
  program constructs; what is known between two actions is kept by the surroundings;
* `withstands_only` — the rule for a program of actions that keep a fact;
* `Withstands.turns` — what it says of every state that the program can be in.
-/
import Mathlib.Logic.Relation
import ShellgeiOnlineJudge.ProgRun

namespace Prog

variable {A : Type} {R : A → Type} {ε ε' α β σ : Type}

/-- The surroundings and the program take turns. -/
inductive Turn (sem : (a : A) → σ → R a → Option σ) (env : σ → σ → Prop) :
    σ × Prog A R ε α → σ × Prog A R ε α → Prop
  | env {s s' : σ} {p : Prog A R ε α} (h : env s s') : Turn sem env (s, p) (s', p)
  | act {s s' : σ} {a : A} {k : R a → Prog A R ε α} {r : R a} (h : sem a s r = some s') :
      Turn sem env (s, .act a k) (s', k r)

/-- A run without the surroundings -/
theorem turns_run {sem : (a : A) → σ → R a → Option σ} (env : σ → σ → Prop)
    (answer : (a : A) → σ → R a) (n : ℕ) (x : σ × Prog A R ε α) :
    Relation.ReflTransGen (Turn sem env) x (run sem answer n x) := by
  induction n generalizing x with
  | zero => exact .refl
  | succ n ih =>
    obtain ⟨s, p⟩ := x
    cases p with
    | done r => exact .refl
    | act a k =>
      simp only [run]
      split
      · next s' hs => exact .head (.act hs) (ih (s', k (answer a s)))
      · exact .refl

/-- What the surroundings keep. -/
def Stable (env : σ → σ → Prop) (P : σ → Prop) : Prop := ∀ s s', P s → env s s' → P s'

theorem Stable.star {env : σ → σ → Prop} {P : σ → Prop} (h : Stable env P) {s s' : σ} (hs : P s)
    (hrun : Relation.ReflTransGen env s s') : P s' := by
  induction hrun with
  | refl => exact hs
  | tail _ hstep ih => exact h _ _ ih hstep

theorem Stable.and {env : σ → σ → Prop} {P Q : σ → Prop} (hP : Stable env P) (hQ : Stable env Q) :
    Stable env fun s => P s ∧ Q s :=
  fun s s' hs h => ⟨hP s s' hs.1 h, hQ s s' hs.2 h⟩

/-- A fact about something that does not change. -/
theorem stable_const (env : σ → σ → Prop) (c : Prop) : Stable env fun _ => c :=
  fun _ _ hs _ => hs

section Withstands

variable (sem : (a : A) → σ → R a → Option σ) (env : σ → σ → Prop) (here : A → σ → Prop)

/-- Whatever the environment does between the actions, each of them is allowed and the end is as
asked. -/
def Withstands (post : Except ε α → σ → Prop) : Prog A R ε α → σ → Prop
  | .done r, s => ∀ s', Relation.ReflTransGen env s s' → post r s'
  | .act a k, s => ∀ s', Relation.ReflTransGen env s s' →
      here a s' ∧ ∀ r s'', sem a s' r = some s'' → Withstands post (k r) s''

variable {sem env here} {s s' : σ}

theorem Withstands.env_star {post : Except ε α → σ → Prop} {p : Prog A R ε α}
    (h : Withstands sem env here post p s) (hrun : Relation.ReflTransGen env s s') :
    Withstands sem env here post p s' := by
  cases p with
  | done r => exact fun s'' hs => h s'' (hrun.trans hs)
  | act a k => exact fun s'' hs => h s'' (hrun.trans hs)

theorem Withstands.turn {post : Except ε α → σ → Prop} {p p' : Prog A R ε α}
    (h : Withstands sem env here post p s) (hturn : Turn sem env (s, p) (s', p')) :
    Withstands sem env here post p' s' := by
  cases hturn with
  | env henv => exact h.env_star (.single henv)
  | act hsem => exact (h s .refl).2 _ _ hsem

/-- Where the program stands at an action, after any turns. -/
theorem Withstands.turns {post : Except ε α → σ → Prop} {p : Prog A R ε α}
    (h : Withstands sem env here post p s) {x : σ × Prog A R ε α}
    (hrun : Relation.ReflTransGen (Turn sem env) (s, p) x) :
    Withstands sem env here post x.2 x.1 := by
  induction hrun with
  | refl => exact h
  | @tail y z _ hturn ih => exact ih.turn (show Turn sem env (y.1, y.2) (z.1, z.2) from hturn)

theorem Withstands.here_of_act {post : Except ε α → σ → Prop} {a : A} {k : R a → Prog A R ε α}
    (h : Withstands sem env here post (.act a k) s) : here a s :=
  (h s .refl).1

theorem Withstands.post_of_done {post : Except ε α → σ → Prop} {r : Except ε α}
    (h : Withstands sem env here post (.done r) s) : post r s :=
  h s .refl

theorem Withstands.mono {post post' : Except ε α → σ → Prop} {p : Prog A R ε α}
    (h : Withstands sem env here post p s) (himp : ∀ r s, post r s → post' r s) :
    Withstands sem env here post' p s := by
  induction p generalizing s with
  | done r => exact fun s' hs => himp r s' (h s' hs)
  | act a k ih => exact fun s' hs => ⟨(h s' hs).1, fun r s'' hsem => ih r ((h s' hs).2 r s'' hsem)⟩

theorem withstands_done {post : Except ε α → σ → Prop} {r : Except ε α}
    (hstable : Stable env (post r)) (h : post r s) :
    Withstands sem env here post (.done r) s :=
  fun _ hs => hstable.star h hs

theorem Withstands.handle {post : Except ε α → σ → Prop} {post' : Except ε' β → σ → Prop}
    {p : Prog A R ε α} {f : Except ε α → Prog A R ε' β} (hp : Withstands sem env here post p s)
    (hf : ∀ r s, post r s → Withstands sem env here post' (f r) s) :
    Withstands sem env here post' (p.handle f) s := by
  induction p generalizing s with
  | done r => exact hf r s (hp s .refl)
  | act a k ih =>
    exact fun s' hs => ⟨(hp s' hs).1, fun r s'' hsem => ih r ((hp s' hs).2 r s'' hsem)⟩

theorem Withstands.bind {post : Except ε α → σ → Prop} {post' : Except ε β → σ → Prop}
    {p : Prog A R ε α} {f : α → Prog A R ε β} (hp : Withstands sem env here post p s)
    (hok : ∀ a s, post (.ok a) s → Withstands sem env here post' (f a) s)
    (herror : ∀ e s, post (.error e) s → Withstands sem env here post' (.done (.error e)) s) :
    Withstands sem env here post' (p >>= f) s :=
  Withstands.handle hp fun r s hr => match r with
    | .ok a => hok a s hr
    | .error e => herror e s hr

theorem Withstands.tryCatch {post post' : Except ε α → σ → Prop} {p : Prog A R ε α}
    {f : ε → Prog A R ε α} (hp : Withstands sem env here post p s)
    (hok : ∀ a s, post (.ok a) s → Withstands sem env here post' (.done (.ok a)) s)
    (herror : ∀ e s, post (.error e) s → Withstands sem env here post' (f e) s) :
    Withstands sem env here post' (MonadExcept.tryCatch p f) s :=
  Withstands.handle hp fun r s hr => match r with
    | .ok a => hok a s hr
    | .error e => herror e s hr

/-- `try: p except: handler`, and what follows. -/
theorem Withstands.tryCatch_bind {post : Except ε α → σ → Prop} {post' : Except ε β → σ → Prop}
    {p : Prog A R ε α} {handler : ε → Prog A R ε α} {f : α → Prog A R ε β}
    (hp : Withstands sem env here post p s)
    (hok : ∀ a s, post (.ok a) s → Withstands sem env here post' (f a) s)
    (herror : ∀ e s, post (.error e) s → Withstands sem env here post' (handler e >>= f) s) :
    Withstands sem env here post' (MonadExcept.tryCatch p handler >>= f) s := by
  induction p generalizing s with
  | done r =>
    cases r with
    | ok a => exact hok a s (hp s .refl)
    | error e => exact herror e s (hp s .refl)
  | act a k ih =>
    exact fun s' hs => ⟨(hp s' hs).1, fun r s'' hsem => ih r ((hp s' hs).2 r s'' hsem)⟩

/-- One action; `P` is what is known before it. -/
theorem withstands_perform_bind {P : σ → Prop} {post : Except ε β → σ → Prop} {a : A}
    {f : R a → Prog A R ε β} (hstable : Stable env P) (hs : P s) (hhere : ∀ s, P s → here a s)
    (hnext : ∀ s r s', P s → sem a s r = some s' → Withstands sem env here post (f r) s') :
    Withstands sem env here post (perform a >>= f) s := by
  intro s' hrun
  have hP := hstable.star hs hrun
  exact ⟨hhere s' hP, fun r s'' hsem => hnext s' r s'' hP hsem⟩

/-- What every action of a program keeps, the program keeps. -/
theorem withstands_only {P : σ → Prop} {quiet : A → Prop} {p : Prog A R ε α} (hp : Only quiet p)
    (hstable : Stable env P) (hs : P s)
    (hquiet : ∀ a s, quiet a → P s → here a s ∧ ∀ r s', sem a s r = some s' → P s') :
    Withstands sem env here (fun _ => P) p s := by
  induction p generalizing s with
  | done r => exact withstands_done hstable hs
  | act a k ih =>
    intro s' hrun
    obtain ⟨hhere, hkeep⟩ := hquiet a s' hp.1 (hstable.star hs hrun)
    exact ⟨hhere, fun r s'' hsem => ih r (hp.2 r) (hkeep r s'' hsem)⟩

end Withstands

end Prog
