/-
Transactions of statements that may fail, and chains of migrations (a library).

A `Transaction` changes a state by statements, each of which may fail for
reasons of its own, and may raise; `commit` keeps what it has done only when it
ends well.

* `Holds` — what a transaction that ends well makes true, with a rule for each
  construct;
* `commit_error`, `commit_ok` — a transaction that raises changes nothing;
* `Does` — what a transaction comes to unless a statement fails;
* `holds_climb`, `holds_descend` — loops over a chain of migrations.
-/
import Mathlib.Data.Nat.Notation
import Mathlib.Tactic.Basic

/-- A computation that knows which of its statements will fail, counts the
statements, and changes a state. -/
def Transaction (σ ε α : Type) : Type := (ℕ → Bool) → ℕ → σ → Except ε (α × ℕ × σ)

namespace Transaction

variable {σ ε α β : Type}

instance : Monad (Transaction σ ε) where
  pure a := fun _ n s => .ok (a, n, s)
  bind p f := fun faults n s => match p faults n s with
    | .ok (a, n', s') => f a faults n' s'
    | .error e => .error e

/-- Raise, and leave the transaction. -/
def throw (e : ε) : Transaction σ ε α := fun _ _ _ => .error e

/-- One statement: it fails when it is not possible, and may fail in any case. -/
def statement (e : ε) (f : σ → Option (α × σ)) : Transaction σ ε α := fun faults n s =>
  if faults n then .error e
  else match f s with
    | some (a, s') => .ok (a, n + 1, s')
    | none => .error e

/-- A statement that reads. -/
def query (e : ε) (f : σ → Option α) : Transaction σ ε α :=
  statement e fun s => (f s).map fun a => (a, s)

/-- A statement that writes. -/
def execute (e : ε) (f : σ → Option σ) : Transaction σ ε Unit :=
  statement e fun s => (f s).map fun s' => ((), s')

/-- `for x in xs: f(x)` -/
def forEach (f : α → Transaction σ ε Unit) : List α → Transaction σ ε Unit
  | [] => pure ()
  | x :: xs => do
    f x
    forEach f xs

/-- The outcome and the state that is left: what a transaction has done is kept
when it ends well and its commit does not fail. -/
def commit (e : ε) (p : Transaction σ ε α) (faults : ℕ → Bool) (s : σ) : Except ε α × σ :=
  match p faults 0 s with
  | .ok (a, n, s') => if faults n then (.error e, s) else (.ok a, s')
  | .error e => (.error e, s)

theorem commit_error {e e' : ε} {p : Transaction σ ε α} {faults : ℕ → Bool} {s : σ}
    (h : (commit e p faults s).1 = .error e') : (commit e p faults s).2 = s := by
  rw [commit] at h ⊢
  split at h
  · split at h
    · next hfault => rw [if_pos hfault]
    · cases h
  · rfl

/-! ### What a transaction makes true -/

/-- From a state with `P` the transaction ends, if it ends well, in a state with
`Q`. -/
def Holds (P : σ → Prop) (p : Transaction σ ε α) (Q : α → σ → Prop) : Prop :=
  ∀ faults n s a n' s', P s → p faults n s = .ok (a, n', s') → Q a s'

variable {P : σ → Prop} {Q : α → σ → Prop}

theorem holds_pure {a : α} (h : ∀ s, P s → Q a s) :
    Holds P (pure a : Transaction σ ε α) Q := by
  intro faults n s a' n' s' hs heq
  cases heq
  exact h s hs

theorem holds_throw {e : ε} : Holds P (throw e : Transaction σ ε α) Q := by
  intro faults n s a n' s' _ heq
  cases heq

theorem Holds.bind {p : Transaction σ ε α} {f : α → Transaction σ ε β} {R : β → σ → Prop}
    (hp : Holds P p Q) (hf : ∀ a, Holds (Q a) (f a) R) : Holds P (p >>= f) R := by
  intro faults n s b n' s' hs heq
  have heq : (match p faults n s with
    | .ok (a, n', s') => f a faults n' s'
    | .error e => .error e) = .ok (b, n', s') := heq
  cases hrun : p faults n s with
  | error e =>
    rw [hrun] at heq
    cases heq
  | ok out =>
    obtain ⟨a, m, t⟩ := out
    rw [hrun] at heq
    exact hf a faults m t b n' s' (hp faults n s a m t hs hrun) heq

theorem Holds.weaken {p : Transaction σ ε α} {P' : σ → Prop} {Q' : α → σ → Prop}
    (h : Holds P p Q) (hP : ∀ s, P' s → P s) (hQ : ∀ a s, Q a s → Q' a s) : Holds P' p Q' :=
  fun faults n s a n' s' hs heq => hQ a s' (h faults n s a n' s' (hP s hs) heq)

theorem holds_exists {ι : Sort*} {P : ι → σ → Prop} {p : Transaction σ ε α}
    (h : ∀ i, Holds (P i) p Q) : Holds (fun s => ∃ i, P i s) p Q := by
  intro faults n s a n' s' hs heq
  obtain ⟨i, hi⟩ := hs
  exact h i faults n s a n' s' hi heq

theorem holds_and {c : Prop} {p : Transaction σ ε α} (h : c → Holds P p Q) :
    Holds (fun s => c ∧ P s) p Q :=
  fun faults n s a n' s' hs heq => h hs.1 faults n s a n' s' hs.2 heq

theorem holds_ite {c : Prop} [Decidable c] {p q : Transaction σ ε α}
    (hp : c → Holds P p Q) (hq : ¬ c → Holds P q Q) : Holds P (if c then p else q) Q := by
  by_cases hc : c
  · rw [if_pos hc]
    exact hp hc
  · rw [if_neg hc]
    exact hq hc

theorem holds_statement {e : ε} {f : σ → Option (α × σ)}
    (h : ∀ s a s', P s → f s = some (a, s') → Q a s') : Holds P (statement e f) Q := by
  intro faults n s a n' s' hs heq
  rw [statement] at heq
  split at heq
  · cases heq
  · split at heq
    · next a' t hf =>
      cases heq
      exact h s a s' hs hf
    · cases heq

theorem holds_query {e : ε} {f : σ → Option α} (h : ∀ s a, P s → f s = some a → Q a s) :
    Holds P (query e f) Q := by
  refine holds_statement fun s a s' hs hf => ?_
  obtain ⟨b, hb, heq⟩ := Option.map_eq_some_iff.1 hf
  obtain ⟨rfl, rfl⟩ := Prod.mk.inj heq
  exact h s b hs hb

theorem holds_execute {e : ε} {f : σ → Option σ} {Q : Unit → σ → Prop}
    (h : ∀ s s', P s → f s = some s' → Q () s') : Holds P (execute e f) Q := by
  refine holds_statement fun s a s' hs hf => ?_
  obtain ⟨t, ht, heq⟩ := Option.map_eq_some_iff.1 hf
  obtain ⟨-, rfl⟩ := Prod.mk.inj heq
  exact h s t hs ht

/-- What every step of a loop keeps, the loop keeps. -/
theorem holds_forEach {I : σ → Prop} {f : α → Transaction σ ε Unit} {xs : List α}
    (h : ∀ x ∈ xs, Holds I (f x) fun _ => I) : Holds I (forEach f xs) fun _ => I := by
  induction xs with
  | nil => exact holds_pure fun _ hs => hs
  | cons x xs ih =>
    refine (h x List.mem_cons_self).bind fun _ => ?_
    exact ih fun y hy => h y (List.mem_cons_of_mem x hy)

theorem commit_ok {e : ε} {p : Transaction σ ε α} {faults : ℕ → Bool} {s : σ} {a : α}
    (hp : Holds P p Q) (hs : P s) (h : (commit e p faults s).1 = .ok a) :
    Q a (commit e p faults s).2 := by
  rw [commit] at h ⊢
  split at h
  · next b n t hrun =>
    split at h
    · cases h
    · next hfault =>
      cases h
      rw [if_neg hfault]
      exact hp faults 0 s a n t hs hrun
  · cases h

/-! ### What a transaction comes to -/

/-- From `s` the transaction ends with `a` in `s'`, unless a statement fails. -/
def Does (p : Transaction σ ε α) (s : σ) (a : α) (s' : σ) : Prop :=
  ∀ faults n, match p faults n s with
    | .ok (b, _, t) => b = a ∧ t = s'
    | .error _ => ∃ m, faults m = true

theorem does_pure {a : α} {s : σ} : Does (pure a : Transaction σ ε α) s a s :=
  fun _ _ => ⟨rfl, rfl⟩

theorem Does.bind {p : Transaction σ ε α} {f : α → Transaction σ ε β} {s t u : σ} {a : α} {b : β}
    (hp : Does p s a t) (hf : Does (f a) t b u) : Does (p >>= f) s b u := by
  intro faults n
  have hrun := hp faults n
  show match (match p faults n s with
    | .ok (a, n', s') => f a faults n' s'
    | .error e => .error e) with
    | .ok (b', _, t) => b' = b ∧ t = u
    | .error _ => ∃ m, faults m = true
  cases h : p faults n s with
  | error e =>
    rw [h] at hrun
    exact hrun
  | ok out =>
    obtain ⟨a', m, t'⟩ := out
    rw [h] at hrun
    obtain ⟨rfl, rfl⟩ := hrun
    exact hf faults m

theorem does_statement {e : ε} {f : σ → Option (α × σ)} {s s' : σ} {a : α}
    (h : f s = some (a, s')) : Does (statement e f) s a s' := by
  intro faults n
  rw [statement, h]
  by_cases hfault : faults n = true
  · rw [if_pos hfault]
    exact ⟨n, hfault⟩
  · rw [if_neg hfault]
    exact ⟨rfl, rfl⟩

theorem does_query {e : ε} {f : σ → Option α} {s : σ} {a : α} (h : f s = some a) :
    Does (query e f) s a s :=
  does_statement (by rw [h, Option.map_some])

theorem does_execute {e : ε} {f : σ → Option σ} {s s' : σ} (h : f s = some s') :
    Does (execute e f) s () s' :=
  does_statement (by rw [h, Option.map_some])

/-- A loop of statements that write, each possible where the ones before it lead. -/
theorem does_forEach {e : ε} {f : α → σ → Option σ} {xs : List α} {s s' : σ}
    (h : xs.foldlM (fun s x => f x s) s = some s') :
    Does (forEach (fun x => execute e (f x)) xs) s () s' := by
  induction xs generalizing s with
  | nil =>
    obtain rfl := Option.some.inj h
    exact does_pure
  | cons x xs ih =>
    rw [List.foldlM_cons] at h
    obtain ⟨t, ht, hrest⟩ := Option.bind_eq_some_iff.1 h
    exact (does_execute ht).bind (ih hrest)

theorem commit_does {e : ε} {p : Transaction σ ε α} {faults : ℕ → Bool} {s s' : σ} {a : α}
    (h : Does p s a s') : commit e p faults s = (.ok a, s') ∨
      ((∃ m, faults m = true) ∧ ∃ e', commit e p faults s = (.error e', s)) := by
  have hrun := h faults 0
  rw [commit]
  cases hp : p faults 0 s with
  | error e' =>
    rw [hp] at hrun
    exact .inr ⟨hrun, e', rfl⟩
  | ok out =>
    obtain ⟨b, n, t⟩ := out
    rw [hp] at hrun
    obtain ⟨rfl, rfl⟩ := hrun
    by_cases hfault : faults n = true
    · exact .inr ⟨⟨n, hfault⟩, e, if_pos hfault⟩
    · exact .inl (if_neg hfault)

/-! ### Chains of migrations -/

variable {S : ℕ → σ → Prop} {migrations : List α} {k d : ℕ}

/-- Going up a chain: the step at place `i` leads from level `i` to the next. -/
theorem holds_climb {up : α → Transaction σ ε Unit}
    (h : ∀ i (hi : i < migrations.length), Holds (S i) (up migrations[i]) fun _ => S (i + 1))
    (hkd : k ≤ d) (hd : d ≤ migrations.length) :
    Holds (S k) (forEach up ((migrations.take d).drop k)) fun _ => S d := by
  induction hn : d - k generalizing k with
  | zero =>
    obtain rfl : k = d := by omega
    rw [List.drop_eq_nil_of_le (by rw [List.length_take]; omega)]
    exact holds_pure fun _ hs => hs
  | succ n ih =>
    have hk : k < (migrations.take d).length := by
      rw [List.length_take]
      omega
    rw [List.drop_eq_getElem_cons hk, List.getElem_take]
    exact (h k (by omega)).bind fun _ => ih (by omega) (by omega)

/-- Going down a chain: the step at place `i` leads back to level `i`. -/
theorem holds_descend {down : α → Transaction σ ε Unit}
    (h : ∀ i (hi : i < migrations.length), d ≤ i →
      Holds (S (i + 1)) (down migrations[i]) fun _ => S i)
    (hdk : d ≤ k) (hk : k ≤ migrations.length) :
    Holds (S k) (forEach down ((migrations.take k).drop d).reverse) fun _ => S d := by
  induction k with
  | zero =>
    obtain rfl : d = 0 := by omega
    exact holds_pure fun _ hs => hs
  | succ k ih =>
    rcases Nat.eq_or_lt_of_le hdk with rfl | hlt
    · rw [List.drop_eq_nil_of_le (by rw [List.length_take]; omega)]
      exact holds_pure fun _ hs => hs
    · have hlength : d ≤ (migrations.take k).length := by
        rw [List.length_take]
        omega
      have hget : migrations[k]? = some migrations[k] := List.getElem?_eq_getElem (by omega)
      rw [List.take_add_one, hget, Option.toList_some, List.drop_append_of_le_length hlength,
        List.reverse_append]
      exact (h k (by omega) (by omega)).bind fun _ => ih (by omega) (by omega)

end Transaction
