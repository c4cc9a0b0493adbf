/-
Two runs of programs (the concurrency library, part 4).

A `View` says what can be told of an action and of the response to it, and which
actions are allowed.  Two programs are twins when their actions look alike, and
are allowed, for as long as the responses to them look alike.

* `Twin.handle`, `Twin.bind`, `Twin.tryCatch`, `Twin.perform_bind` — the rules
  for the program constructs;
* `Twin.ends` — two complete runs of twins look alike when their responses do;
* `agree_trace` — they do when they only depend on what can be told of an action.
-/
import ShellgeiOnlineJudge.ProgPath

namespace Prog

variable {A : Type} {R : A → Type} {K S ε ε' α α' β β' : Type}

/-- What can be seen of an action and of its answer. -/
structure View (A : Type) (R : A → Type) (K S : Type) where
  kind : A → K
  seen : (a : A) → R a → S
  allowed : A → Prop

/-- Two programs do actions that look the same as long as the answers look the same. -/
inductive Twin (V : View A R K S) (post : Except ε α → Except ε' α' → Prop) :
    Prog A R ε α → Prog A R ε' α' → Prop
  | done {r : Except ε α} {s : Except ε' α'} (h : post r s) : Twin V post (.done r) (.done s)
  | act {a b : A} {k : R a → Prog A R ε α} {k' : R b → Prog A R ε' α'}
      (hkind : V.kind a = V.kind b) (hallowed : V.allowed a)
      (h : ∀ r s, V.seen a r = V.seen b s → Twin V post (k r) (k' s)) :
      Twin V post (.act a k) (.act b k')

/-- Two outcomes that are both values or both exceptions, and related. -/
def Paired (error : ε → ε' → Prop) (value : α → α' → Prop) :
    Except ε α → Except ε' α' → Prop
  | .ok a, .ok b => value a b
  | .error e, .error e' => error e e'
  | _, _ => False

theorem paired_cases {error : ε → ε' → Prop} {value : α → α' → Prop} {r : Except ε α}
    {s : Except ε' α'} (h : Paired error value r s) :
    (∃ a b, r = .ok a ∧ s = .ok b ∧ value a b) ∨
      ∃ e e', r = .error e ∧ s = .error e' ∧ error e e' := by
  cases r with
  | ok a =>
    cases s with
    | ok b => exact .inl ⟨a, b, rfl, rfl, h⟩
    | error e' => exact h.elim
  | error e =>
    cases s with
    | ok b => exact h.elim
    | error e' => exact .inr ⟨e, e', rfl, rfl, h⟩

section Rules

variable {V : View A R K S} {error : ε → ε' → Prop} {value : α → α' → Prop}
  {value' : β → β' → Prop}

theorem Twin.handle {δ δ' : Type} {post : Except ε α → Except ε' α' → Prop}
    {post' : Except δ β → Except δ' β' → Prop} {p : Prog A R ε α} {q : Prog A R ε' α'}
    {f : Except ε α → Prog A R δ β} {g : Except ε' α' → Prog A R δ' β'} (h : Twin V post p q)
    (hfg : ∀ r s, post r s → Twin V post' (f r) (g s)) :
    Twin V post' (p.handle f) (q.handle g) := by
  induction h with
  | done h => exact hfg _ _ h
  | act hkind hallowed _ ih => exact .act hkind hallowed fun r s hrs => ih r s hrs

theorem Twin.mono {post post' : Except ε α → Except ε' α' → Prop} {p : Prog A R ε α}
    {q : Prog A R ε' α'} (h : Twin V post p q) (himp : ∀ r s, post r s → post' r s) :
    Twin V post' p q := by
  induction h with
  | done h => exact .done (himp _ _ h)
  | act hkind hallowed _ ih => exact .act hkind hallowed fun r s hrs => ih r s hrs

theorem Twin.pure {a : α} {b : α'} (h : value a b) :
    Twin V (Paired error value) (Pure.pure a) (Pure.pure b) := .done h

theorem Twin.throw {e : ε} {e' : ε'} (h : error e e') :
    Twin V (Paired error value) (MonadExcept.throw e) (MonadExcept.throw e') := .done h

theorem Twin.bind {p : Prog A R ε α} {q : Prog A R ε' α'} {f : α → Prog A R ε β}
    {g : α' → Prog A R ε' β'} (h : Twin V (Paired error value) p q)
    (hfg : ∀ a b, value a b → Twin V (Paired error value') (f a) (g b)) :
    Twin V (Paired error value') (p >>= f) (q >>= g) := by
  refine h.handle fun r s hrs => ?_
  rcases paired_cases hrs with ⟨a, b, rfl, rfl, hab⟩ | ⟨e, e', rfl, rfl, he⟩
  · exact hfg a b hab
  · exact .done he

theorem Twin.tryCatch {p : Prog A R ε α} {q : Prog A R ε' α'} {f : ε → Prog A R ε α}
    {g : ε' → Prog A R ε' α'} {value' : α → α' → Prop} (h : Twin V (Paired error value) p q)
    (hvalue : ∀ a b, value a b → value' a b)
    (hfg : ∀ e e', error e e' → Twin V (Paired error value') (f e) (g e')) :
    Twin V (Paired error value') (MonadExcept.tryCatch p f) (MonadExcept.tryCatch q g) := by
  refine h.handle fun r s hrs => ?_
  rcases paired_cases hrs with ⟨a, b, rfl, rfl, hab⟩ | ⟨e, e', rfl, rfl, he⟩
  · exact .done (hvalue a b hab)
  · exact hfg e e' he

theorem Twin.perform_bind {a b : A} {post : Except ε β → Except ε' β' → Prop}
    {f : R a → Prog A R ε β} {g : R b → Prog A R ε' β'} (hkind : V.kind a = V.kind b)
    (hallowed : V.allowed a) (hfg : ∀ r s, V.seen a r = V.seen b s → Twin V post (f r) (g s)) :
    Twin V post (perform a >>= f) (perform b >>= g) :=
  .act hkind hallowed hfg

theorem Twin.finally' {p : Prog A R ε α} {q : Prog A R ε' α'} {last : Prog A R ε Unit}
    {last' : Prog A R ε' Unit} (h : Twin V (Paired error value) p q)
    (hlast : Twin V (Paired error fun _ _ => True) last last') :
    Twin V (Paired error value) (p.finally' last) (q.finally' last') := by
  refine h.handle fun r s hrs => hlast.handle fun x y hxy => ?_
  rcases paired_cases hxy with ⟨_, _, rfl, rfl, -⟩ | ⟨e, e', rfl, rfl, he⟩
  · exact .done hrs
  · exact .done he

end Rules

/-- What can be told of the responses of two runs is the same wherever their
actions look alike. -/
def Agree (V : View A R K S) (events events' : List (Event A R)) : Prop :=
  ∀ x ∈ events.zip events', V.kind x.1.1 = V.kind x.2.1 → V.seen x.1.1 x.1.2 = V.seen x.2.1 x.2.2

theorem agree_refl (V : View A R K S) (events : List (Event A R)) : Agree V events events := by
  induction events with
  | nil =>
    intro x hx
    cases hx
  | cons e events ih =>
    intro x hx hkind
    rcases List.mem_cons.1 hx with rfl | hx
    · rfl
    · exact ih x hx hkind

/-- Events of two runs that cannot be told apart, of an action that is allowed. -/
structure LooksAlike (V : View A R K S) (e e' : Event A R) : Prop where
  kind : V.kind e.1 = V.kind e'.1
  seen : V.seen e.1 e.2 = V.seen e'.1 e'.2
  allowed : V.allowed e.1

theorem Twin.ends {V : View A R K S} {post : Except ε α → Except ε' α' → Prop}
    {p : Prog A R ε α} {q : Prog A R ε' α'} {events events' : List (Event A R)} {r : Except ε α}
    {s : Except ε' α'} (h : Twin V post p q) (hp : Ends p events r) (hq : Ends q events' s)
    (hagree : Agree V events events') :
    List.Forall₂ (LooksAlike V) events events' ∧ post r s := by
  induction h generalizing events events' with
  | done h =>
    obtain ⟨rfl, rfl⟩ := ends_done.1 hp
    obtain ⟨rfl, rfl⟩ := ends_done.1 hq
    exact ⟨.nil, h⟩
  | @act a b k k' hkind hallowed _ ih =>
    obtain ⟨x, rest, rfl, hrest⟩ := ends_act.1 hp
    obtain ⟨y, rest', rfl, hrest'⟩ := ends_act.1 hq
    have hseen : V.seen a x = V.seen b y := hagree (⟨a, x⟩, ⟨b, y⟩) List.mem_cons_self hkind
    obtain ⟨hall, hpost⟩ := ih x y hseen hrest hrest'
      fun z hz => hagree z (List.mem_cons_of_mem _ hz)
    exact ⟨.cons ⟨hkind, hseen, hallowed⟩ hall, hpost⟩

/-! ### Answers that only depend on what can be told of an action -/

/-- The events of the run in which every action is answered by `answer`. -/
def trace (answer : (a : A) → R a) : Prog A R ε α → List (Event A R)
  | .done _ => []
  | .act a k => ⟨a, answer a⟩ :: trace answer (k (answer a))

theorem ends_trace (answer : (a : A) → R a) (p : Prog A R ε α) :
    ∃ r, Ends p (trace answer p) r := by
  induction p with
  | done r => exact ⟨r, .nil _⟩
  | act a k ih =>
    obtain ⟨r, h⟩ := ih (answer a)
    exact ⟨r, .cons h⟩

theorem answer_of_mem_trace {answer : (a : A) → R a} {p : Prog A R ε α} {e : Event A R}
    (h : e ∈ trace answer p) : e.2 = answer e.1 := by
  induction p with
  | done r => cases h
  | act a k ih =>
    rcases List.mem_cons.1 h with rfl | h
    · rfl
    · exact ih _ h

/-- Runs agree when the same is seen of the answers to all actions of one kind. -/
theorem agree_trace {V : View A R K S} {answer answer' : (a : A) → R a} {shown : K → S}
    (h : ∀ a, V.seen a (answer a) = shown (V.kind a))
    (h' : ∀ a, V.seen a (answer' a) = shown (V.kind a)) (p : Prog A R ε α)
    (q : Prog A R ε' α') : Agree V (trace answer p) (trace answer' q) := by
  intro x hx hkind
  have hmem := List.of_mem_zip (show (x.1, x.2) ∈ _ from hx)
  rw [answer_of_mem_trace hmem.1, answer_of_mem_trace hmem.2, h, h', hkind]

end Prog
