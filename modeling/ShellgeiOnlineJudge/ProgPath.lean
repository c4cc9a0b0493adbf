/-
The past of a program (the concurrency library, part 3).

`Path p events q` says that the program `p` has become `q` when its actions
were answered as the events say, and `Ends p events r` that it has ended.  The
threads of a `recorded` system remember the call they run and the events behind
them, so that one can speak of what a method returned on the way.

* `Ends.of_bind`, `Ends.of_tryCatch`, `Ends.unique` — taking a past apart;
* `path_of_reachable` — what is behind a thread is a past of its program;
* `events_hold_of_reachable`, `later_events` — facts about the events of all
  threads, and of the threads that were started later;
* `Logic.recordedOutline` — programs that are safe give an outline of the
  system, with a postcondition for each call.
-/
import ShellgeiOnlineJudge.Prog

namespace ThreadSystem

variable {σ σ' Λ Λ' : Type*}

/-- A fact about the shared state and one thread that every step keeps. -/
theorem Reachable.forall_threads {T : ThreadSystem σ Λ} {P : σ → Λ → Prop} {x : State σ Λ}
    (hx : T.Reachable x) (hinit : ∀ s threads, T.init s threads → ∀ l ∈ threads, P s l)
    (hstart : ∀ s threads l, T.start s threads l → P s l)
    (hstep : ∀ s l s' l', T.step s l s' l' → P s l → P s' l')
    (hother : ∀ s l s' l' m, T.step s l s' l' → P s m → P s' m)
    (henv : ∀ s s' m, T.env s s' → P s m → P s' m) : ∀ l ∈ x.threads, P x.shared l := by
  obtain ⟨s, threads, hs, hrun⟩ := hx
  induction hrun with
  | refl => exact hinit s threads hs
  | tail _ h ih =>
    intro m hm
    cases h with
    | @thread s s' l l' before after h =>
      rcases List.mem_append.1 hm with hm | hm
      · exact hother s l s' l' m h (ih m (List.mem_append_left _ hm))
      · rcases List.mem_cons.1 hm with rfl | hm
        · exact hstep s l s' m h (ih l (by simp))
        · exact hother s l s' l' m h (ih m (by simp [hm]))
    | env threads h => exact henv _ _ m h (ih m hm)
    | start h =>
      rcases List.mem_append.1 hm with hm | hm
      · exact ih m hm
      · obtain rfl := List.mem_singleton.1 hm
        exact hstart _ _ _ h

theorem Reachable.trans {T : ThreadSystem σ Λ} {x y : State σ Λ} (hx : T.Reachable x)
    (hrun : Relation.ReflTransGen T.Step x y) : T.Reachable y := by
  obtain ⟨s, threads, hs, hsx⟩ := hx
  exact ⟨s, threads, hs, hsx.trans hrun⟩

/-- A system seen through maps of its states and threads. -/
theorem Reachable.map {T : ThreadSystem σ Λ} {T' : ThreadSystem σ' Λ'} (f : σ → σ') (g : Λ → Λ')
    (hinit : ∀ s threads, T.init s threads → T'.init (f s) (threads.map g))
    (hstep : ∀ s l s' l', T.step s l s' l' → T'.step (f s) (g l) (f s') (g l'))
    (henv : ∀ s s', T.env s s' → T'.env (f s) (f s'))
    (hstart : ∀ s threads l, T.start s threads l → T'.start (f s) (threads.map g) (g l))
    {x : State σ Λ} (hx : T.Reachable x) : T'.Reachable ⟨f x.shared, x.threads.map g⟩ := by
  obtain ⟨s, threads, hs, hrun⟩ := hx
  induction hrun with
  | refl => exact .init (hinit s threads hs)
  | tail _ h ih =>
    refine ih.tail ?_
    cases h with
    | thread before after h =>
      simp only [List.map_append, List.map_cons]
      exact .thread _ _ (hstep _ _ _ _ h)
    | env threads h => exact .env _ (henv _ _ h)
    | start h =>
      simp only [List.map_append, List.map_cons, List.map_nil]
      exact .start (hstart _ _ _ h)

/-- Steps that reachable states do not make can be left out of a system. -/
theorem Reachable.restrict {T : ThreadSystem σ Λ} {step : σ → Λ → σ → Λ → Prop}
    (h : ∀ s before l after s' l', T.Reachable ⟨s, before ++ l :: after⟩ → T.step s l s' l' →
      step s l s' l')
    {x : State σ Λ} (hx : T.Reachable x) :
    ThreadSystem.Reachable { T with step := step } x := by
  obtain ⟨s, threads, hs, hrun⟩ := hx
  have hinit : ThreadSystem.Reachable { T with step := step } ⟨s, threads⟩ := .init hs
  have hboth : T.Reachable x ∧ ThreadSystem.Reachable { T with step := step } x := by
    induction hrun with
    | refl => exact ⟨.init hs, hinit⟩
    | tail _ hstep ih =>
      refine ⟨ih.1.tail hstep, ih.2.tail ?_⟩
      cases hstep with
      | thread before after hthread =>
        exact .thread before after (h _ before _ after _ _ ih.1 hthread)
      | env threads henv => exact .env threads henv
      | start hstart => exact .start hstart
  exact hboth.2

end ThreadSystem

namespace Prog

variable {A : Type} {R : A → Type} {ε α β σ τ C : Type}

/-! ### Paths -/

/-- An action with the response to it. -/
abbrev Event (A : Type) (R : A → Type) := Σ a, R a

/-- The program has become another one by these events. -/
inductive Path : Prog A R ε α → List (Event A R) → Prog A R ε α → Prop
  | nil (p : Prog A R ε α) : Path p [] p
  | cons {a : A} {k : R a → Prog A R ε α} {r : R a} {events : List (Event A R)}
      {q : Prog A R ε α} (h : Path (k r) events q) : Path (.act a k) (⟨a, r⟩ :: events) q

/-- The program has ended by these events. -/
def Ends (p : Prog A R ε α) (events : List (Event A R)) (r : Except ε α) : Prop :=
  Path p events (.done r)

variable {events front front' back back' : List (Event A R)}

theorem Path.snoc {p : Prog A R ε α} {a : A} {k : R a → Prog A R ε α}
    (h : Path p events (.act a k)) (r : R a) : Path p (events ++ [⟨a, r⟩]) (k r) := by
  generalize hq : Prog.act a k = q at h
  induction h with
  | nil p =>
    subst hq
    exact .cons (.nil _)
  | cons _ ih => exact .cons (ih hq)

theorem ends_done {o r : Except ε α} : Ends (.done o : Prog A R ε α) events r ↔
    events = [] ∧ r = o := by
  constructor
  · intro h
    cases h
    exact ⟨rfl, rfl⟩
  · rintro ⟨rfl, rfl⟩
    exact .nil _

theorem ends_act {a : A} {k : R a → Prog A R ε α} {r : Except ε α} :
    Ends (.act a k) events r ↔ ∃ x rest, events = ⟨a, x⟩ :: rest ∧ Ends (k x) rest r := by
  constructor
  · intro h
    cases h with
    | cons h => exact ⟨_, _, rfl, h⟩
  · rintro ⟨x, rest, rfl, h⟩
    exact .cons h

/-- The past of a program that goes on after another one. -/
theorem ends_handle {ε' : Type} {p : Prog A R ε α} {h : Except ε α → Prog A R ε' β}
    {r : Except ε' β} : Ends (p.handle h) events r ↔
      ∃ front back o, events = front ++ back ∧ Ends p front o ∧ Ends (h o) back r := by
  induction p generalizing events with
  | done o =>
    constructor
    · intro hr
      exact ⟨[], events, o, rfl, .nil _, hr⟩
    · rintro ⟨front, back, o', rfl, ho, hr⟩
      obtain ⟨rfl, rfl⟩ := ends_done.1 ho
      exact hr
  | act a k ih =>
    constructor
    · intro hr
      obtain ⟨x, rest, rfl, hrest⟩ := ends_act.1 hr
      obtain ⟨front, back, o, rfl, hfront, hback⟩ := (ih x).1 hrest
      exact ⟨⟨a, x⟩ :: front, back, o, rfl, .cons hfront, hback⟩
    · rintro ⟨front, back, o, rfl, hfront, hback⟩
      obtain ⟨x, rest, rfl, hrest⟩ := ends_act.1 hfront
      exact .cons ((ih x).2 ⟨rest, back, o, rfl, hrest, hback⟩)

theorem Ends.of_bind {p : Prog A R ε α} {f : α → Prog A R ε β} {r : Except ε β}
    (h : Ends (p >>= f) events r) :
    (∃ front back a, events = front ++ back ∧ Ends p front (.ok a) ∧ Ends (f a) back r) ∨
      ∃ e, Ends p events (.error e) ∧ r = .error e := by
  obtain ⟨front, back, o, rfl, hfront, hback⟩ := ends_handle.1 h
  cases o with
  | ok a => exact .inl ⟨front, back, a, rfl, hfront, hback⟩
  | error e =>
    obtain ⟨rfl, rfl⟩ := ends_done.1 hback
    rw [List.append_nil]
    exact .inr ⟨e, hfront, rfl⟩

/-- The past of a sequence that has returned. -/
theorem Ends.of_bind_ok {p : Prog A R ε α} {f : α → Prog A R ε β} {b : β}
    (h : Ends (p >>= f) events (.ok b)) :
    ∃ front back a, events = front ++ back ∧ Ends p front (.ok a) ∧ Ends (f a) back (.ok b) := by
  rcases h.of_bind with h | ⟨e, -, he⟩
  · exact h
  · cases he

theorem Ends.of_perform_bind {a : A} {f : R a → Prog A R ε β} {r : Except ε β}
    (h : Ends (perform a >>= f) events r) :
    ∃ x rest, events = ⟨a, x⟩ :: rest ∧ Ends (f x) rest r := ends_act.1 h

theorem Ends.of_tryCatch {p : Prog A R ε α} {f : ε → Prog A R ε α} {r : Except ε α}
    (h : Ends (MonadExcept.tryCatch p f) events r) :
    (∃ a, Ends p events (.ok a) ∧ r = .ok a) ∨
      ∃ front back e, events = front ++ back ∧ Ends p front (.error e) ∧ Ends (f e) back r := by
  obtain ⟨front, back, o, rfl, hfront, hback⟩ := ends_handle.1 h
  cases o with
  | ok a =>
    obtain ⟨rfl, rfl⟩ := ends_done.1 hback
    rw [List.append_nil]
    exact .inl ⟨a, hfront, rfl⟩
  | error e => exact .inr ⟨front, back, e, rfl, hfront, hback⟩

/-- The responses determine where a program ends, and how. -/
theorem Ends.unique {p : Prog A R ε α} {r r' : Except ε α} (h : Ends p front r)
    (h' : Ends p front' r') (heq : front ++ back = front' ++ back') :
    front = front' ∧ back = back' ∧ r = r' := by
  induction p generalizing front front' with
  | done o =>
    obtain ⟨rfl, rfl⟩ := ends_done.1 h
    obtain ⟨rfl, rfl⟩ := ends_done.1 h'
    exact ⟨rfl, heq, rfl⟩
  | act a k ih =>
    obtain ⟨x, rest, rfl, hrest⟩ := ends_act.1 h
    obtain ⟨x', rest', rfl, hrest'⟩ := ends_act.1 h'
    rw [List.cons_append, List.cons_append, List.cons.injEq, Sigma.mk.injEq] at heq
    obtain ⟨⟨-, hx⟩, heq⟩ := heq
    obtain rfl := eq_of_heq hx
    obtain ⟨rfl, rfl, rfl⟩ := ih x hrest hrest' heq
    exact ⟨rfl, rfl, rfl⟩

/-! ### Recorded systems -/

/-- A thread with the call it runs, the events behind it and the rest of its
program. -/
structure Thread (C A : Type) (R : A → Type) (ε α : Type) where
  call : C
  past : List (Event A R)
  rest : Prog A R ε α

/-- The next action of a thread is answered. -/
inductive RecordedStep (sem : (a : A) → σ → R a → Option σ) :
    σ → Thread C A R ε α → σ → Thread C A R ε α → Prop
  | act {s s' : σ} {call : C} {past : List (Event A R)} {a : A} {k : R a → Prog A R ε α}
      {r : R a} (h : sem a s r = some s') :
      RecordedStep sem s ⟨call, past, .act a k⟩ s' ⟨call, past ++ [⟨a, r⟩], k r⟩

/-- Any calls at any time, and what each of them has seen so far. -/
def recorded (sem : (a : A) → σ → R a → Option σ) (program : C → Prog A R ε α)
    (init : σ → Prop) (env : σ → σ → Prop) : ThreadSystem σ (Thread C A R ε α) where
  init s threads := init s ∧ threads = []
  step := RecordedStep sem
  env := env
  start _ _ t := ∃ call, t = ⟨call, [], program call⟩

section Recorded

open ThreadSystem

variable {sem : (a : A) → σ → R a → Option σ} {program : C → Prog A R ε α} {init : σ → Prop}
  {env : σ → σ → Prop} {x y : State σ (Thread C A R ε α)}

theorem path_of_reachable (hx : (recorded sem program init env).Reachable x) :
    ∀ t ∈ x.threads, Path (program t.call) t.past t.rest := by
  refine hx.forall_threads (P := fun _ t => Path (program t.call) t.past t.rest) ?_ ?_ ?_ ?_ ?_
  · rintro s threads ⟨-, rfl⟩ t ht
    cases ht
  · rintro s threads t ⟨call, rfl⟩
    exact .nil _
  · rintro s t s' t' ⟨-⟩ h
    exact h.snoc _
  · exact fun _ _ _ _ _ _ h => h
  · exact fun _ _ _ _ h => h

/-- A thread that has ended has a past that ends its program. -/
theorem ends_of_reachable (hx : (recorded sem program init env).Reachable x)
    {t : Thread C A R ε α} (ht : t ∈ x.threads) {r : Except ε α} (hr : t.rest = .done r) :
    Ends (program t.call) t.past r := by
  have := path_of_reachable hx t ht
  rwa [hr] at this

/-- Run a thread for a number of steps, with the answers that `answer` gives. -/
def runThread (sem : (a : A) → σ → R a → Option σ) (answer : (a : A) → σ → R a) :
    ℕ → σ × Thread C A R ε α → σ × Thread C A R ε α
  | 0, x => x
  | _ + 1, (s, ⟨call, past, .done r⟩) => (s, ⟨call, past, .done r⟩)
  | n + 1, (s, ⟨call, past, .act a k⟩) => match sem a s (answer a s) with
    | some s' => runThread sem answer n (s', ⟨call, past ++ [⟨a, answer a s⟩], k (answer a s)⟩)
    | none => (s, ⟨call, past, .act a k⟩)

theorem steps_runThread {T : ThreadSystem σ (Thread C A R ε α)}
    (hT : ∀ {s t s' t'}, RecordedStep sem s t s' t' → T.step s t s' t')
    (answer : (a : A) → σ → R a) (before after : List (Thread C A R ε α)) (n : ℕ)
    (z : σ × Thread C A R ε α) :
    Relation.ReflTransGen T.Step ⟨z.1, before ++ z.2 :: after⟩
      ⟨(runThread sem answer n z).1, before ++ (runThread sem answer n z).2 :: after⟩ := by
  induction n generalizing z with
  | zero => exact .refl
  | succ n ih =>
    obtain ⟨s, call, past, p⟩ := z
    cases p with
    | done r => exact .refl
    | act a k =>
      simp only [runThread]
      split
      · next s' hs =>
        exact .head (.thread before after (hT (.act hs))) (ih (s', ⟨call, _, k (answer a s)⟩))
      · exact .refl

/-- What an event makes true of the state, when it happens in a reachable state,
and every step keeps, is true after the event; the threads begin without a past. -/
theorem events_hold_of_reachable {T : ThreadSystem σ (Thread C A R ε α)}
    {P : Event A R → σ → Prop} (hx : T.Reachable x)
    (hinit : ∀ s threads, T.init s threads → ∀ t ∈ threads, t.past = [])
    (hstart : ∀ s threads t, T.start s threads t → t.past = [])
    (hT : ∀ s t s' t', T.step s t s' t' → RecordedStep sem s t s' t')
    (hevent : ∀ y, T.Reachable y → ∀ t ∈ y.threads, ∀ a, t.rest.head = some a →
      ∀ r s', sem a y.shared r = some s' → P ⟨a, r⟩ s')
    (hstep : ∀ e a s r s', sem a s r = some s' → P e s → P e s')
    (henv : ∀ e s s', T.env s s' → P e s → P e s') :
    ∀ t ∈ x.threads, ∀ e ∈ t.past, P e x.shared := by
  -- what a step says about its event is put into the step
  have hx := @Reachable.restrict _ _ T
    (fun s t s' t' => RecordedStep sem s t s' t' ∧
      ∀ a, t.rest.head = some a → ∀ r s', sem a s r = some s' → P ⟨a, r⟩ s')
    (fun s before t after s' t' hy h =>
      ⟨hT s t s' t' h, hevent ⟨s, before ++ t :: after⟩ hy t (by simp)⟩) x hx
  refine hx.forall_threads (P := fun s t => ∀ e ∈ t.past, P e s) ?_ ?_ ?_ ?_ ?_
  · intro s threads hs t ht e he
    rw [hinit s threads hs t ht] at he
    cases he
  · intro s threads t ht e he
    rw [hstart s threads t ht] at he
    cases he
  · rintro s t s' t' ⟨⟨hsem⟩, hnew⟩ h e he
    rcases List.mem_append.1 he with he | he
    · exact hstep e _ _ _ _ hsem (h e he)
    · obtain rfl := List.mem_singleton.1 he
      exact hnew _ rfl _ _ hsem
  · rintro s t s' t' m ⟨⟨hsem⟩, -⟩ h e he
    exact hstep e _ _ _ _ hsem (h e he)
  · exact fun s s' m hs h e he => henv e s s' hs (h e he)

/-- What an event makes true of the state, and every step keeps, is true after
the event. -/
theorem events_hold {P : Event A R → σ → Prop}
    (hx : (recorded sem program init env).Reachable x)
    (hevent : ∀ a s r s', sem a s r = some s' → P ⟨a, r⟩ s')
    (hstep : ∀ e a s r s', sem a s r = some s' → P e s → P e s')
    (henv : ∀ e s s', env s s' → P e s → P e s') :
    ∀ t ∈ x.threads, ∀ e ∈ t.past, P e x.shared := by
  refine events_hold_of_reachable hx ?_ ?_ (fun _ _ _ _ h => h) ?_ hstep henv
  · rintro s threads ⟨-, rfl⟩ t ht
    cases ht
  · rintro s threads t ⟨call, rfl⟩
    rfl
  · intro y _ t _ a _ r s' h
    exact hevent a y.shared r s' h

theorem step_invariant {Q : σ → Prop}
    (hstep : ∀ a s r s', sem a s r = some s' → Q s → Q s') (henv : ∀ s s', env s s' → Q s → Q s')
    (hrun : Relation.ReflTransGen (ThreadSystem.Step (recorded sem program init env)) x y)
    (hx : Q x.shared) :
    Q y.shared := by
  induction hrun with
  | refl => exact hx
  | tail _ h ih =>
    cases h with
    | thread before after h =>
      cases h with
      | act hsem => exact hstep _ _ _ _ hsem ih
    | env threads h => exact henv _ _ h ih
    | start h => exact ih

/-- The events of the threads that were started after a state, when a fact about
that state limits how the actions are answered from there on. -/
theorem later_events {P : Event A R → Prop} {Q : σ → Prop}
    (hevent : ∀ a s r s', Q s → sem a s r = some s' → P ⟨a, r⟩)
    (hstep : ∀ a s r s', sem a s r = some s' → Q s → Q s') (henv : ∀ s s', env s s' → Q s → Q s')
    (hrun : Relation.ReflTransGen (ThreadSystem.Step (recorded sem program init env)) x y)
    (hx : Q x.shared)
    {i : ℕ} {t : Thread C A R ε α} (hi : x.threads.length ≤ i) (ht : y.threads[i]? = some t) :
    ∀ e ∈ t.past, P e := by
  induction hrun generalizing t with
  | refl =>
    rw [List.getElem?_eq_none hi] at ht
    cases ht
  | @tail z z' hprefix h ih =>
    have hz := step_invariant hstep henv hprefix hx
    cases h with
    | @thread s s' l l' before after h =>
      have hset : before ++ l' :: after = (before ++ l :: after).set before.length l' := by
        rw [List.set_append_right _ _ (Nat.le_refl _), Nat.sub_self, List.set_cons_zero]
      have ht : (before ++ l' :: after)[i]? = some t := ht
      rw [hset, List.getElem?_set] at ht
      split at ht
      next hlen =>
        split at ht
        next =>
          obtain rfl := Option.some.inj ht
          cases h with
          | @act _ call past a k r hsem =>
            have hold : (before ++ ⟨call, past, .act a k⟩ :: after)[i]? =
                some (⟨call, past, .act a k⟩ : Thread C A R ε α) := by
              rw [← hlen, List.getElem?_append_right (Nat.le_refl _), Nat.sub_self]
              rfl
            intro e he
            rcases List.mem_append.1 he with he | he
            · exact ih hold e he
            · obtain rfl := List.mem_singleton.1 he
              exact hevent _ _ _ _ hz hsem
        next => cases ht
      next => exact ih ht
    | env threads h => exact ih ht
    | @start s threads l h =>
      have ht : (threads ++ [l])[i]? = some t := ht
      rw [List.getElem?_append] at ht
      split at ht
      next => exact ih ht
      next =>
        -- the thread that was started has no events behind it
        obtain ⟨call, rfl⟩ := h
        have hmem := List.mem_of_getElem? ht
        obtain rfl := List.mem_singleton.1 hmem
        intro e he
        cases he

/-- Programs that are safe keep the invariant along every run, and each call
ends with its own postcondition. -/
def Logic.recordedOutline (L : Logic A R σ τ) (post : C → Except ε α → Multiset τ → Prop)
    (program : C → Prog A R ε α) {init : σ → Prop} {env : σ → σ → Prop}
    (hinit : ∀ {s}, init s → L.inv s 0) (henv : ∀ {s s' m}, env s s' → L.inv s m → L.inv s' m)
    (hstart : ∀ {s m} call, L.inv s m →
      ∃ m', Safe L (post call) (program call) m' ∧ L.inv s (m' + m)) :
    (recorded L.sem program init env).Outline τ where
  inv := L.inv
  owns t := Safe L (post t.call) t.rest
  init := by
    rintro s threads ⟨hs, rfl⟩
    refine ⟨[], rfl, ?_, hinit hs⟩
    intro a ha
    cases ha
  step := by
    rintro s s' l l' m frame ⟨hsem⟩ hsafe hinv
    obtain ⟨m', hm', hpost⟩ := hsafe.2 _ frame _ _ hinv hsem
    exact ⟨m', hpost, hm'⟩
  env := henv
  start := by
    rintro s l ann ⟨call, rfl⟩ - hinv
    exact hstart call hinv

end Recorded

end Prog
