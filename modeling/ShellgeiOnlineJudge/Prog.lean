/-
Programs of atomic actions with exceptions (the concurrency library, part 2).

A `Prog A R ε α` performs actions of type `A`, goes on with the response
`R a` to each, and ends with a value or an exception.  Between two actions
any other thread may run, so an action is exactly one atomic step of the
program it models.  The response also resolves the choices of the
surroundings: `sem a s r` is the state after action `a` answered by `r`, or
`none` when this answer (or any answer, for a blocking action) is impossible.

* `Safe` — a program keeps the global invariant, whatever the other threads
  do, and ends with tokens that satisfy its postcondition; `Safe.bind`,
  `Safe.tryCatch`, `Safe.finally'` are the rules for the program constructs;
* `Logic.outline` — programs that are safe where they start give an
  `Outline` of the system that runs them.
-/
import ShellgeiOnlineJudge.ThreadSystem

/-- Programs over actions `A`, where `R a` is the type of responses to `a`. -/
inductive Prog (A : Type) (R : A → Type) (ε α : Type) where
  | done (r : Except ε α)
  | act (a : A) (k : R a → Prog A R ε α)

namespace Prog

variable {A : Type} {R : A → Type} {ε α β σ τ : Type}

/-- Run a program, then go on with its value or exception. -/
def handle {ε' : Type} :
    Prog A R ε α → (Except ε α → Prog A R ε' β) → Prog A R ε' β
  | .done r, h => h r
  | .act a k, h => .act a fun r => (k r).handle h

instance : Monad (Prog A R ε) where
  pure a := .done (.ok a)
  bind p f := p.handle fun
    | .ok a => f a
    | .error e => .done (.error e)

instance : MonadExcept ε (Prog A R ε) where
  throw e := .done (.error e)
  tryCatch p h := p.handle fun
    | .ok a => .done (.ok a)
    | .error e => h e

/-- Perform one action and return the response. -/
def perform (a : A) : Prog A R ε (R a) := .act a fun r => .done (.ok r)

/-- Go on with a value, or raise an exception that a response carries. -/
def unwrap (r : Except ε α) : Prog A R ε α := .done r

/-- `try: p finally: last`. -/
def finally' (p : Prog A R ε α) (last : Prog A R ε Unit) : Prog A R ε α :=
  p.handle fun r => last.handle fun
    | .ok _ => .done r
    | .error e => .done (.error e)

/-- The action a program is about to perform. -/
def head : Prog A R ε α → Option A
  | .done _ => none
  | .act a _ => some a

/-- A program that has ended. -/
def finished : Prog A R ε α → Bool
  | .done _ => true
  | .act _ _ => false

@[simp] theorem head_done (r : Except ε α) : (done r : Prog A R ε α).head = none := rfl

@[simp] theorem head_act (a : A) (k : R a → Prog A R ε α) : (act a k).head = some a := rfl

@[simp] theorem finished_done (r : Except ε α) : (done r : Prog A R ε α).finished = true := rfl

@[simp] theorem finished_act (a : A) (k : R a → Prog A R ε α) : (act a k).finished = false := rfl

/-- The step of a thread: its next action, with any response the shared state
allows. -/
inductive Step (sem : (a : A) → σ → R a → Option σ) :
    σ → Prog A R ε α → σ → Prog A R ε α → Prop
  | act {s s' : σ} {a : A} {k : R a → Prog A R ε α} {r : R a} (h : sem a s r = some s') :
      Step sem s (.act a k) s' (k r)

/-- What a proof about programs fixes: the meaning of the actions, the global
invariant, and what a thread's tokens must be where it performs an action. -/
structure Logic (A : Type) (R : A → Type) (σ τ : Type) where
  sem : (a : A) → σ → R a → Option σ
  inv : σ → Multiset τ → Prop
  here : A → Multiset τ → Prop

/-- The action `a`, performed by a thread with tokens `m`, keeps the invariant
and leaves the thread with tokens that satisfy `post`. -/
def Triple (L : Logic A R σ τ) (a : A) (m : Multiset τ)
    (post : R a → Multiset τ → Prop) : Prop :=
  L.here a m ∧ ∀ s frame r s', L.inv s (m + frame) → L.sem a s r = some s' →
    ∃ m', L.inv s' (m' + frame) ∧ post r m'

/-- The program keeps the invariant at every action and ends in `post`. -/
def Safe (L : Logic A R σ τ) (post : Except ε α → Multiset τ → Prop) :
    Prog A R ε α → Multiset τ → Prop
  | .done r, m => post r m
  | .act a k, m => Triple L a m fun r m' => Safe L post (k r) m'

/-- The tokens `m` may be exchanged for `m'`, in any state. -/
def Shift (L : Logic A R σ τ) (m m' : Multiset τ) : Prop :=
  ∀ s frame, L.inv s (m + frame) → L.inv s (m' + frame)

section Rules

variable {L : Logic A R σ τ} {m : Multiset τ}

theorem Triple.mono {a : A} {post post' : R a → Multiset τ → Prop}
    (h : Triple L a m post) (himp : ∀ r m', post r m' → post' r m') : Triple L a m post' := by
  refine ⟨h.1, fun s frame r s' hinv hsem => ?_⟩
  obtain ⟨m', hm', hpost⟩ := h.2 s frame r s' hinv hsem
  exact ⟨m', hm', himp r m' hpost⟩

theorem Triple.shift {a : A} {post post' : R a → Multiset τ → Prop} (h : Triple L a m post)
    (himp : ∀ r m', post r m' → ∃ m'', Shift L m' m'' ∧ post' r m'') : Triple L a m post' := by
  refine ⟨h.1, fun s frame r s' hinv hsem => ?_⟩
  obtain ⟨m', hm', hpost⟩ := h.2 s frame r s' hinv hsem
  obtain ⟨m'', hshift, hpost'⟩ := himp r m' hpost
  exact ⟨m'', hshift s' frame hm', hpost'⟩

theorem Safe.mono {post post' : Except ε α → Multiset τ → Prop} {p : Prog A R ε α}
    (h : Safe L post p m) (himp : ∀ r m', post r m' → post' r m') : Safe L post' p m := by
  induction p generalizing m with
  | done r => exact himp r m h
  | act a k ih => exact Triple.mono h fun r m' hr => ih r hr

theorem Safe.handle {ε' : Type} {post : Except ε α → Multiset τ → Prop}
    {post' : Except ε' β → Multiset τ → Prop} {p : Prog A R ε α}
    {h : Except ε α → Prog A R ε' β}
    (hp : Safe L post p m) (hh : ∀ r m', post r m' → Safe L post' (h r) m') :
    Safe L post' (p.handle h) m := by
  induction p generalizing m with
  | done r => exact hh r m hp
  | act a k ih => exact Triple.mono hp fun r m' hr => ih r hr

theorem Safe.bind {post : Except ε α → Multiset τ → Prop}
    {post' : Except ε β → Multiset τ → Prop} {p : Prog A R ε α} {f : α → Prog A R ε β}
    (hp : Safe L post p m) (hok : ∀ a m', post (.ok a) m' → Safe L post' (f a) m')
    (herr : ∀ e m', post (.error e) m' → post' (.error e) m') :
    Safe L post' (p >>= f) m :=
  Safe.handle hp fun r m' hr => match r with
    | .ok a => hok a m' hr
    | .error e => herr e m' hr

theorem Safe.tryCatch {post post' : Except ε α → Multiset τ → Prop} {p : Prog A R ε α}
    {h : ε → Prog A R ε α}
    (hp : Safe L post p m) (hok : ∀ a m', post (.ok a) m' → post' (.ok a) m')
    (herr : ∀ e m', post (.error e) m' → Safe L post' (h e) m') :
    Safe L post' (MonadExcept.tryCatch p h) m :=
  Safe.handle hp fun r m' hr => match r with
    | .ok a => hok a m' hr
    | .error e => herr e m' hr

theorem Safe.finally' {post post' : Except ε α → Multiset τ → Prop} {p : Prog A R ε α}
    {last : Prog A R ε Unit}
    (hp : Safe L post p m)
    (hlast : ∀ r m', post r m' → Safe L (fun x m'' => match x with
      | .ok _ => post' r m''
      | .error e => post' (.error e) m'') last m') :
    Safe L post' (p.finally' last) m :=
  Safe.handle hp fun r m' hr => Safe.handle (hlast r m' hr) fun x _ hx => match x with
    | .ok _ => hx
    | .error _ => hx

theorem Safe.pure {post : Except ε α → Multiset τ → Prop} {a : α} (h : post (.ok a) m) :
    Safe L post (Pure.pure a : Prog A R ε α) m := h

theorem Safe.throw {post : Except ε α → Multiset τ → Prop} {e : ε} (h : post (.error e) m) :
    Safe L post (MonadExcept.throw e : Prog A R ε α) m := h

theorem Safe.unwrap_bind {post : Except ε β → Multiset τ → Prop} {r : Except ε α}
    {f : α → Prog A R ε β} (hok : ∀ a, r = .ok a → Safe L post (f a) m)
    (herr : ∀ e, r = .error e → post (.error e) m) : Safe L post (unwrap r >>= f) m :=
  match r with
  | .ok a => hok a rfl
  | .error e => herr e rfl

/-- The rule for one action followed by the rest of the program. -/
theorem Safe.perform_bind {a : A} {post : R a → Multiset τ → Prop}
    {post' : Except ε β → Multiset τ → Prop} {f : R a → Prog A R ε β}
    (ha : Triple L a m post) (hf : ∀ r m', post r m' → Safe L post' (f r) m') :
    Safe L post' (perform a >>= f) m :=
  Triple.mono ha hf

theorem Safe.perform {a : A} {post : R a → Multiset τ → Prop}
    {post' : Except ε (R a) → Multiset τ → Prop}
    (ha : Triple L a m post) (hpost : ∀ r m', post r m' → post' (.ok r) m') :
    Safe L post' (Prog.perform a : Prog A R ε (R a)) m :=
  Triple.mono ha hpost

/-- What a safe program's tokens are where it stands. -/
theorem Safe.here {post : Except ε α → Multiset τ → Prop} {p : Prog A R ε α} {a : A}
    (h : Safe L post p m) (hp : p.head = some a) : L.here a m := by
  cases p with
  | done r => simp at hp
  | act b k =>
    obtain rfl : b = a := by simpa using hp
    exact h.1

end Rules

/-! ### Systems of programs -/

/-- The threads are programs, and a step of a thread is its next action. -/
def system (sem : (a : A) → σ → R a → Option σ)
    (init : σ → List (Prog A R ε α) → Prop) (env : σ → σ → Prop)
    (start : σ → List (Prog A R ε α) → Prog A R ε α → Prop) :
    ThreadSystem σ (Prog A R ε α) where
  init := init
  step := Step sem
  env := env
  start := start

/-- Run a program for a number of steps, with the answers that `answer` gives;
it stays where it gets an impossible one. -/
def run (sem : (a : A) → σ → R a → Option σ) (answer : (a : A) → σ → R a) :
    ℕ → σ × Prog A R ε α → σ × Prog A R ε α
  | 0, x => x
  | _ + 1, (s, .done r) => (s, .done r)
  | n + 1, (s, .act a k) => match sem a s (answer a s) with
    | some s' => run sem answer n (s', k (answer a s))
    | none => (s, .act a k)

theorem reachable_run {sem : (a : A) → σ → R a → Option σ} (answer : (a : A) → σ → R a)
    {init : σ → List (Prog A R ε α) → Prop} {env : σ → σ → Prop}
    {start : σ → List (Prog A R ε α) → Prog A R ε α → Prop}
    {before after : List (Prog A R ε α)} (n : ℕ) (x : σ × Prog A R ε α)
    (h : (system sem init env start).Reachable ⟨x.1, before ++ x.2 :: after⟩) :
    (system sem init env start).Reachable
      ⟨(run sem answer n x).1, before ++ (run sem answer n x).2 :: after⟩ := by
  induction n generalizing x with
  | zero => exact h
  | succ n ih =>
    obtain ⟨s, p⟩ := x
    cases p with
    | done r => exact h
    | act a k =>
      simp only [run]
      split
      · next s' hs => exact ih (s', k (answer a s)) (h.tail (.thread before after (.act hs)))
      · exact h

open ThreadSystem in
/-- Programs that are safe where they start keep the invariant along every
run of the system. -/
def Logic.outline (L : Logic A R σ τ) (post : Except ε α → Multiset τ → Prop)
    {init : σ → List (Prog A R ε α) → Prop} {env : σ → σ → Prop}
    {start : σ → List (Prog A R ε α) → Prog A R ε α → Prop}
    (hinit : ∀ {s threads}, init s threads → ∃ ann : List (Prog A R ε α × Multiset τ),
      ann.map Prod.fst = threads ∧ (∀ a ∈ ann, Safe L post a.1 a.2) ∧ L.inv s (tokens ann))
    (henv : ∀ {s s' m}, env s s' → L.inv s m → L.inv s' m)
    (hstart : ∀ {s p} {ann : List (Prog A R ε α × Multiset τ)}, start s (ann.map Prod.fst) p →
      (∀ a ∈ ann, Safe L post a.1 a.2) → L.inv s (tokens ann) →
      ∃ m, Safe L post p m ∧ L.inv s (m + tokens ann)) :
    (system L.sem init env start).Outline τ where
  inv := L.inv
  owns := Safe L post
  init := hinit
  env := henv
  start := hstart
  step := by
    rintro s s' l l' m frame ⟨hsem⟩ hsafe hinv
    obtain ⟨m', hm', hpost⟩ := hsafe.2 _ frame _ _ hinv hsem
    exact ⟨m', hpost, hm'⟩

/-- Where a thread stands, the tokens of all threads include what the logic says
a thread has there. -/
theorem Logic.here_of_head {L : Logic A R σ τ} {post : Except ε α → Multiset τ → Prop}
    {ann : List (Prog A R ε α × Multiset τ)} (h : ∀ x ∈ ann, Safe L post x.1 x.2)
    {p : Prog A R ε α} (hp : p ∈ ann.map Prod.fst) {a : A} (ha : p.head = some a) :
    ∃ m, L.here a m ∧ ∀ t ∈ m, t ∈ ThreadSystem.tokens ann := by
  obtain ⟨x, hx, rfl⟩ := List.mem_map.mp hp
  exact ⟨x.2, (h x hx).here ha, fun t ht => ThreadSystem.mem_tokens hx ht⟩

/-- A safe program that has ended satisfies its postcondition. -/
theorem Safe.post_of_finished {L : Logic A R σ τ} {post : Except ε α → Multiset τ → Prop}
    {p : Prog A R ε α} {m : Multiset τ} (h : Safe L post p m) (hp : p.finished = true) :
    ∃ r, post r m := by
  cases p with
  | done r => exact ⟨r, h⟩
  | act a k => cases hp

end Prog
