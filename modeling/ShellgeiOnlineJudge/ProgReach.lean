/-
Where a program stands in the middle of a run (the concurrency library, part 6).

`Reaches sem s p events s' q` says that the events take the program `p` from the
state `s` to the state `s'`, where `q` is left of it.

* `Reaches.runs` — what is left of a run completes it;
* `Reaches.of_bind`, `Reaches.of_tryCatch` — in which part of a program it stands;
* `Reaches.skip`, `Path.skip` — an action that a part does not have comes after that part;
* `Uncaught` — some responses raise an exception that the program does not handle.
-/
import ShellgeiOnlineJudge.ProgPath
import ShellgeiOnlineJudge.ProgRun

namespace Prog

variable {A : Type} {R : A → Type} {ε ε' α β σ : Type} {sem : (a : A) → σ → R a → Option σ}

/-- A program does some actions from one state to another and has a rest. -/
inductive Reaches (sem : (a : A) → σ → R a → Option σ) :
    σ → Prog A R ε α → List (Event A R) → σ → Prog A R ε α → Prop
  | refl (s : σ) (p : Prog A R ε α) : Reaches sem s p [] s p
  | act {s s' s'' : σ} {a : A} {k : R a → Prog A R ε α} {response : R a}
      {events : List (Event A R)} {q : Prog A R ε α} (h : sem a s response = some s')
      (rest : Reaches sem s' (k response) events s'' q) :
      Reaches sem s (.act a k) (⟨a, response⟩ :: events) s'' q

variable {s s' s'' : σ} {events : List (Event A R)}

theorem Reaches.runs {p q : Prog A R ε α} {r : Except ε α} (h : Reaches sem s p events s' q)
    (hruns : Runs sem s' q r s'') : Runs sem s p r s'' := by
  induction h with
  | refl => exact hruns
  | act hsem _ ih => exact .act hsem (ih hruns)

theorem Reaches.snoc {p : Prog A R ε α} {a : A} {k : R a → Prog A R ε α} {response : R a}
    (h : Reaches sem s p events s' (.act a k)) (hsem : sem a s' response = some s'') :
    Reaches sem s p (events ++ [⟨a, response⟩]) s'' (k response) := by
  generalize hq : Prog.act a k = q at h
  induction h with
  | refl =>
    subst hq
    exact .act hsem (.refl _ _)
  | act h _ ih => exact .act h (ih hsem hq)

/-- Where the answers lead. -/
theorem reaches_run (answer : (a : A) → σ → R a) (n : ℕ) (s : σ) (p : Prog A R ε α) :
    ∃ events, Reaches sem s p events (run sem answer n (s, p)).1 (run sem answer n (s, p)).2 := by
  induction n generalizing s p with
  | zero => exact ⟨[], .refl _ _⟩
  | succ n ih =>
    cases p with
    | done r => exact ⟨[], .refl _ _⟩
    | act a k =>
      simp only [run]
      split
      · next s' hsem =>
        obtain ⟨events, hrest⟩ := ih s' (k (answer a s))
        exact ⟨_ :: events, .act hsem hrest⟩
      · exact ⟨[], .refl _ _⟩

/-- All responses from one function -/
def play (response : (a : A) → R a) : Prog A R ε α → List (Event A R) × Except ε α
  | .done r => ([], r)
  | .act a k =>
    let (events, r) := play response (k (response a))
    (⟨a, response a⟩ :: events, r)

theorem ends_play (response : (a : A) → R a) (p : Prog A R ε α) :
    Ends p (play response p).1 (play response p).2 := by
  induction p with
  | done r => exact .nil _
  | act a k ih => exact .cons (ih (response a))

theorem mem_play {response : (a : A) → R a} {p : Prog A R ε α} {e : Event A R}
    (h : e ∈ (play response p).1) : e.2 = response e.1 := by
  induction p with
  | done r => cases h
  | act a k ih =>
    rcases List.mem_cons.1 h with rfl | h
    · rfl
    · exact ih _ h

/-- All responses from one function, up to an action -/
def playUntil (response : (a : A) → R a) (stop : A → Bool) :
    Prog A R ε α → List (Event A R) × Prog A R ε α
  | .done r => ([], .done r)
  | .act a k =>
    if stop a then ([], .act a k)
    else
      let (events, q) := playUntil response stop (k (response a))
      (⟨a, response a⟩ :: events, q)

theorem path_playUntil (response : (a : A) → R a) (stop : A → Bool) (p : Prog A R ε α) :
    Path p (playUntil response stop p).1 (playUntil response stop p).2 := by
  induction p with
  | done r => exact .nil _
  | act a k ih =>
    rw [playUntil]
    split
    · exact .nil _
    · exact .cons (ih (response a))

theorem Ends.of_unwrap_bind {r : Except ε α} {f : α → Prog A R ε β} {b : β}
    {events : List (Event A R)} (h : Ends (unwrap r >>= f) events (.ok b)) :
    ∃ a, r = .ok a ∧ Ends (f a) events (.ok b) := by
  cases r with
  | ok a => exact ⟨a, rfl, h⟩
  | error e =>
    obtain ⟨-, hr⟩ := ends_done.1 h
    cases hr

/-- What is left of a program when its next action gets this response. -/
def resume (response : (a : A) → R a) : Prog A R ε α → Prog A R ε α
  | .done r => .done r
  | .act a k => k (response a)

theorem eq_act_of_head {p : Prog A R ε α} {a : A} (h : p.head = some a) :
    ∃ k, p = .act a k ∧ ∀ response, p.resume response = k (response a) := by
  cases p with
  | done r => cases h
  | act a' k =>
    obtain rfl := Option.some.inj h
    exact ⟨k, rfl, fun _ => rfl⟩

theorem may_act {a : A} {k : R a → Prog A R ε α} {Q : Except ε α → σ → Prop} (response : R a)
    (s' : σ) (hsem : sem a s response = some s') (h : May sem (k response) Q s') :
    May sem (.act a k) Q s := by
  obtain ⟨r, s'', hruns, hQ⟩ := h
  exact ⟨r, s'', .act hsem hruns, hQ⟩

theorem Runs.tryCatch_ok {p : Prog A R ε α} {f : ε → Prog A R ε α} {a : α}
    (h : Runs sem s p (.ok a) s') : Runs sem s (MonadExcept.tryCatch p f) (.ok a) s' := by
  generalize hr : Except.ok a = r at h
  induction h with
  | done =>
    subst hr
    exact .done
  | act hsem _ ih => exact .act hsem (ih hr)

/-- A program that goes on after another one stands in the one or in the other. -/
theorem Reaches.of_handle {p : Prog A R ε α} {f : Except ε α → Prog A R ε' β}
    {q : Prog A R ε' β} (h : Reaches sem s (p.handle f) events s' q) :
    (∃ p', q = p'.handle f ∧ Reaches sem s p events s' p') ∨
      ∃ front back r s₁, events = front ++ back ∧ Reaches sem s p front s₁ (.done r) ∧
        Reaches sem s₁ (f r) back s' q := by
  induction p generalizing s events with
  | done r => exact .inr ⟨[], events, r, s, rfl, .refl _ _, h⟩
  | act a k ih =>
    cases h with
    | refl => exact .inl ⟨.act a k, rfl, .refl _ _⟩
    | act hsem hrest =>
      rcases ih _ hrest with ⟨p', rfl, hp⟩ | ⟨front, back, r, s₁, rfl, hp, hf⟩
      · exact .inl ⟨p', rfl, .act hsem hp⟩
      · exact .inr ⟨_ :: front, back, r, s₁, rfl, .act hsem hp, hf⟩

theorem Reaches.of_bind {p : Prog A R ε α} {f : α → Prog A R ε β} {a : A}
    {k : R a → Prog A R ε β} (h : Reaches sem s (p >>= f) events s' (.act a k)) :
    (∃ k', (∀ response, k response = k' response >>= f) ∧
      Reaches sem s p events s' (.act a k')) ∨
      ∃ front back value s₁, events = front ++ back ∧
        Reaches sem s p front s₁ (.done (.ok value)) ∧
        Reaches sem s₁ (f value) back s' (.act a k) := by
  rcases h.of_handle with ⟨p', hp', hp⟩ | ⟨front, back, r, s₁, rfl, hp, hf⟩
  · cases p' with
    | done r =>
      refine .inr ⟨events, [], ?_⟩
      cases r with
      | ok value =>
        have hfvalue : f value = .act a k := hp'.symm
        refine ⟨value, s', (List.append_nil _).symm, hp, ?_⟩
        rw [hfvalue]
        exact .refl _ _
      | error e => cases hp'
    | act a' k' =>
      obtain ⟨rfl, hk⟩ := act.inj hp'
      obtain rfl := eq_of_heq hk
      exact .inl ⟨k', fun _ => rfl, hp⟩
  · cases r with
    | ok value => exact .inr ⟨front, back, value, s₁, rfl, hp, hf⟩
    | error e => cases hf

theorem Reaches.of_tryCatch {p : Prog A R ε α} {f : ε → Prog A R ε α} {a : A}
    {k : R a → Prog A R ε α}
    (h : Reaches sem s (MonadExcept.tryCatch p f) events s' (.act a k)) :
    (∃ k', (∀ response, k response = MonadExcept.tryCatch (k' response) f) ∧
      Reaches sem s p events s' (.act a k')) ∨
      ∃ front back e s₁, events = front ++ back ∧
        Reaches sem s p front s₁ (.done (.error e)) ∧ Reaches sem s₁ (f e) back s' (.act a k) := by
  rcases h.of_handle with ⟨p', hp', hp⟩ | ⟨front, back, r, s₁, rfl, hp, hf⟩
  · cases p' with
    | done r =>
      refine .inr ⟨events, [], ?_⟩
      cases r with
      | ok value => cases hp'
      | error e =>
        have hfe : f e = .act a k := hp'.symm
        refine ⟨e, s', (List.append_nil _).symm, hp, ?_⟩
        rw [hfe]
        exact .refl _ _
    | act a' k' =>
      obtain ⟨rfl, hk⟩ := act.inj hp'
      obtain rfl := eq_of_heq hk
      exact .inl ⟨k', fun _ => rfl, hp⟩
  · cases r with
    | ok value => cases hf
    | error e => exact .inr ⟨front, back, e, s₁, rfl, hp, hf⟩

/-! ### Programs of some actions only -/

section Only

variable {P : A → Prop}

theorem Only.mono {P' : A → Prop} {p : Prog A R ε α} (hp : Only P p)
    (himp : ∀ a, P a → P' a) : Only P' p := by
  induction p with
  | done r => trivial
  | act a k ih => exact ⟨himp a hp.1, fun response => ih response (hp.2 response)⟩

theorem Only.reaches {p q : Prog A R ε α} (hp : Only P p) (h : Reaches sem s p events s' q) :
    Only P q ∧ ∀ e ∈ events, P e.1 := by
  induction h with
  | refl => exact ⟨hp, by simp⟩
  | act _ _ ih =>
    obtain ⟨hq, hevents⟩ := ih (hp.2 _)
    exact ⟨hq, List.forall_mem_cons.2 ⟨hp.1, hevents⟩⟩

theorem Only.path {p q : Prog A R ε α} (hp : Only P p) (h : Path p events q) :
    ∀ e ∈ events, P e.1 := by
  induction h with
  | nil => simp
  | cons _ ih => exact List.forall_mem_cons.2 ⟨hp.1, ih (hp.2 _)⟩

theorem Only.not_reaches {p : Prog A R ε α} (hp : Only P p) {a : A} (ha : ¬ P a)
    {k : R a → Prog A R ε α} : ¬ Reaches sem s p events s' (.act a k) :=
  fun h => ha (hp.reaches h).1.1

/-- A program that stands at an action which its first part does not have is behind that part. -/
theorem Reaches.skip {p : Prog A R ε α} {f : α → Prog A R ε β} {a : A} {k : R a → Prog A R ε β}
    (h : Reaches sem s (p >>= f) events s' (.act a k)) (hp : Only P p) (ha : ¬ P a) :
    ∃ front back value s₁, events = front ++ back ∧ (∀ e ∈ front, P e.1) ∧
      Runs sem s p (.ok value) s₁ ∧ Reaches sem s₁ (f value) back s' (.act a k) := by
  rcases h.of_bind with ⟨k', -, hp'⟩ | ⟨front, back, value, s₁, rfl, hp', hf⟩
  · exact absurd hp' (hp.not_reaches ha)
  · exact ⟨front, back, value, s₁, rfl, (hp.reaches hp').2, hp'.runs .done, hf⟩

/-- A program that goes on after another one, part of the way. -/
theorem Path.of_handle {p : Prog A R ε α} {f : Except ε α → Prog A R ε' β} {q : Prog A R ε' β}
    (h : Path (p.handle f) events q) :
    (∃ p', q = p'.handle f ∧ Path p events p') ∨
      ∃ front back r, events = front ++ back ∧ Ends p front r ∧ Path (f r) back q := by
  induction p generalizing events with
  | done r => exact .inr ⟨[], events, r, rfl, .nil _, h⟩
  | act a k ih =>
    cases h with
    | nil => exact .inl ⟨.act a k, rfl, .nil _⟩
    | cons hrest =>
      rcases ih _ hrest with ⟨p', rfl, hp⟩ | ⟨front, back, r, rfl, hp, hf⟩
      · exact .inl ⟨p', rfl, .cons hp⟩
      · exact .inr ⟨_ :: front, back, r, rfl, .cons hp, hf⟩

/-- A program that stands at an action which its first part does not have has run that part. -/
theorem Path.skip {p : Prog A R ε α} {f : α → Prog A R ε β} {a : A} {k : R a → Prog A R ε β}
    (h : Path (p >>= f) events (.act a k)) (hp : Only P p) (ha : ¬ P a) :
    ∃ front back value, events = front ++ back ∧ Ends p front (.ok value) ∧
      Path (f value) back (.act a k) := by
  rcases h.of_handle with ⟨p', hp', hpath⟩ | ⟨front, back, r, rfl, hends, hpath⟩
  · cases p' with
    | done r =>
      cases r with
      | ok value =>
        have hf : f value = .act a k := hp'.symm
        refine ⟨events, [], value, (List.append_nil _).symm, hpath, ?_⟩
        rw [hf]
        exact .nil _
      | error e => cases hp'
    | act a' k' =>
      obtain ⟨rfl, -⟩ := act.inj hp'
      -- the first part still has only its own actions
      have honly : ∀ {p q : Prog A R ε α} {events : List (Event A R)}, Only P p →
          Path p events q → Only P q := by
        intro p q events hp hpath
        induction hpath with
        | nil => exact hp
        | cons _ ih => exact ih (hp.2 _)
      exact absurd (honly hp hpath).1 ha
  · cases r with
    | ok value => exact ⟨front, back, value, rfl, hends, hpath⟩
    | error e => cases hpath

/-- A program that stands at an action which its last part does not have is still in its first. -/
theorem Path.within {p : Prog A R ε α} {f : Except ε α → Prog A R ε' β} {a : A}
    {k : R a → Prog A R ε' β} (h : Path (p.handle f) events (.act a k))
    (hf : ∀ r, Only P (f r)) (ha : ¬ P a) : ∃ k', Path p events (.act a k') := by
  have honly : ∀ {p q : Prog A R ε' β} {events : List (Event A R)}, Only P p →
      Path p events q → Only P q := by
    intro p q events hp hpath
    induction hpath with
    | nil => exact hp
    | cons _ ih => exact ih (hp.2 _)
  rcases h.of_handle with ⟨p', hp', hpath⟩ | ⟨front, back, r, rfl, -, hpath⟩
  · cases p' with
    | done r =>
      have hr : f r = .act a k := hp'.symm
      exact absurd (hr ▸ hf r : Only P (.act a k)).1 ha
    | act a' k' =>
      obtain ⟨rfl, -⟩ := act.inj hp'
      exact ⟨k', hpath⟩
  · exact absurd (honly (hf r) hpath).1 ha

end Only

/-! ### Exceptions that are not handled -/

/-- A response that raises ends the program with the exception `e`. -/
def Uncaught (raises : (a : A) → R a → Prop) (e : ε) : Prog A R ε α → Prop
  | .done _ => True
  | .act a k => ∀ response, (raises a response → k response = .done (.error e)) ∧
      Uncaught raises e (k response)

section Uncaught

variable {raises : (a : A) → R a → Prop} {e : ε}

theorem uncaught_pure (a : α) : Uncaught raises e (pure a : Prog A R ε α) := trivial

theorem uncaught_throw (e' : ε) : Uncaught raises e (throw e' : Prog A R ε α) := trivial

theorem uncaught_unwrap (r : Except ε α) : Uncaught raises e (unwrap r : Prog A R ε α) := trivial

theorem Uncaught.handle {p : Prog A R ε α} {f : Except ε α → Prog A R ε β}
    (hp : Uncaught raises e p) (he : f (.error e) = .done (.error e))
    (hf : ∀ r, Uncaught raises e (f r)) : Uncaught raises e (p.handle f) := by
  induction p with
  | done r => exact hf r
  | act a k ih =>
    intro response
    refine ⟨fun hraises => ?_, ih response (hp response).2⟩
    show (k response).handle f = .done (.error e)
    rw [(hp response).1 hraises]
    exact he

theorem Uncaught.bind {p : Prog A R ε α} {f : α → Prog A R ε β} (hp : Uncaught raises e p)
    (hf : ∀ a, Uncaught raises e (f a)) : Uncaught raises e (p >>= f) :=
  Uncaught.handle hp rfl fun r => match r with
    | .ok a => hf a
    | .error _ => trivial

/-- The handler raises the exception again. -/
theorem Uncaught.tryCatch {p : Prog A R ε α} {f : ε → Prog A R ε α} (hp : Uncaught raises e p)
    (he : f e = throw e) (hf : ∀ e', Uncaught raises e (f e')) :
    Uncaught raises e (MonadExcept.tryCatch p f) :=
  Uncaught.handle hp he fun r => match r with
    | .ok _ => trivial
    | .error e' => hf e'

theorem uncaught_ite {c : Prop} [Decidable c] {p q : Prog A R ε α} (hp : Uncaught raises e p)
    (hq : Uncaught raises e q) : Uncaught raises e (if c then p else q) := by
  by_cases hc : c
  · rw [if_pos hc]
    exact hp
  · rw [if_neg hc]
    exact hq

theorem Uncaught.reaches {p : Prog A R ε α} {a : A} {k : R a → Prog A R ε α} {response : R a}
    (hp : Uncaught raises e p) (h : Reaches sem s p events s' (.act a k))
    (hraises : raises a response) : k response = .done (.error e) := by
  generalize hq : Prog.act a k = q at h
  induction h with
  | refl =>
    subst hq
    exact (hp response).1 hraises
  | act _ _ ih => exact ih (hp _).2 hq

end Uncaught

end Prog
