/-
The values that `json.loads` makes, as Python compares and reads them (a library).

A number is an `int` or a `float`, and a dict is the list of its members, of which the
first one of a key counts.

* `Value.eq` — `==`: numbers by their value, dicts without an order;
* `Value.getItem`, `Value.get`, `Value.iterate`, … — what may raise, raises;
* `eq_refl`, `eq_str` — a value is equal to itself, and to a text only if it is this text.
-/
import Mathlib.Data.Rat.Defs
import ShellgeiOnlineJudge.Utf8

namespace Python

open Utf8

/-- A float.  Both zeros are 0. -/
inductive Double
  | finite (value : ℚ)
  | infinity (negative : Bool)
  | nan
  deriving DecidableEq

/-- What `json.loads` returns, and `None` for a missing key. -/
inductive Value
  | none
  | bool (b : Bool)
  | int (n : ℤ)
  | float (x : Double)
  | str (text : Text)
  | list (items : List Value)
  | dict (members : List (Text × Value))

/-- The exceptions of the operations on such values. -/
inductive Exc
  | typeError
  | keyError
  | attributeError
  | valueError (message : Text)
  | runtimeError (message : Text)
  /-- any other `Exception` -/
  | other
  deriving DecidableEq

/-- The value of a key. -/
def lookup (members : List (Text × Value)) (key : Text) : Option Value :=
  (members.find? fun member => member.1 = key).map Prod.snd

/-! ### Equality -/

/-- The value of a number. -/
def Value.number? : Value → Option Double
  | .bool b => some (.finite (if b then 1 else 0))
  | .int n => some (.finite n)
  | .float x => some x
  | _ => Option.none

mutual

/-- `v == w`.  There is one NaN that `json.loads` makes, and containers that hold the same
object are equal there. -/
def Value.eq : Value → Value → Bool
  | .none, w => match w with
    | .none => true
    | _ => false
  | .bool b, w => w.number? = some (.finite (if b then 1 else 0))
  | .int n, w => w.number? = some (.finite n)
  | .float x, w => w.number? = some x
  | .str s, w => match w with
    | .str t => s = t
    | _ => false
  | .list xs, w => match w with
    | .list ys => eqItems xs ys
    | _ => false
  | .dict a, w => match w with
    | .dict b => eqMembers [] a b && (b.map Prod.fst).all (a.map Prod.fst).contains
    | _ => false
termination_by structural v => v

/-- Equality of lists, item by item. -/
def eqItems : List Value → List Value → Bool
  | [], ys => ys.isEmpty
  | x :: xs, ys => match ys with
    | [] => false
    | y :: ys => x.eq y && eqItems xs ys
termination_by structural xs => xs

/-- The members are those of `b`; the keys of `seen` came before. -/
def eqMembers (seen : List Text) : List (Text × Value) → List (Text × Value) → Bool
  | [], _ => true
  | m :: a, b => (seen.contains m.1 || eqMember m b) && eqMembers (m.1 :: seen) a b
termination_by structural a => a

/-- The other dictionary has an equal value under the key. -/
def eqMember : Text × Value → List (Text × Value) → Bool
  | (key, v), b => match lookup b key with
    | some w => v.eq w
    | Option.none => false
termination_by structural m => m

end

/-! ### Reading -/

/-- The member of a dict. -/
def Value.field (v : Value) (key : Text) : Option Value :=
  match v with
  | .dict members => lookup members key
  | _ => Option.none

/-- `v[key]` -/
def Value.getItem (v : Value) (key : Text) : Except Exc Value :=
  match v with
  | .dict members =>
    match lookup members key with
    | some w => .ok w
    | Option.none => .error .keyError
  | _ => .error .typeError

/-- `v.get(key, default)` -/
def Value.get (v : Value) (key : Text) (default : Value) : Except Exc Value :=
  match v with
  | .dict members => .ok ((lookup members key).getD default)
  | _ => .error .attributeError

/-- `v.items()` -/
def Value.items : Value → Except Exc (List (Text × Value))
  | .dict members => .ok members
  | _ => .error .attributeError

/-- `for x in v` -/
def Value.iterate : Value → Except Exc (List Value)
  | .str text => .ok (text.map fun c => .str [c])
  | .list items => .ok items
  | .dict members => .ok (members.map fun member => .str member.1)
  | _ => .error .typeError

/-- `len(v)` -/
def Value.len : Value → Except Exc ℕ
  | .str text => .ok text.length
  | .list items => .ok items.length
  | .dict members => .ok members.length
  | _ => .error .typeError

/-- `bool(v)` -/
def Value.truthy : Value → Bool
  | .none => false
  | .bool b => b
  | .int n => n ≠ 0
  | .float x => x ≠ .finite 0
  | .str text => !text.isEmpty
  | .list items => !items.isEmpty
  | .dict members => !members.isEmpty

/-- `isinstance(v, str) and v` -/
def Value.isNonemptyStr : Value → Bool
  | .str text => !text.isEmpty
  | _ => false

/-- `isinstance(value, list)` -/
def Value.isList : Value → Bool
  | .list _ => true
  | _ => false

/-- `isinstance(value, dict)` -/
def Value.isDict : Value → Bool
  | .dict _ => true
  | _ => false

/-- `v`, as an element of a set -/
def Value.hashed : Value → Except Exc Value
  | .list _ => .error .typeError
  | .dict _ => .error .typeError
  | v => .ok v

/-- `v in s`, for a set -/
def Value.inSet (v : Value) (s : List Value) : Except Exc Bool := do
  let v ← v.hashed
  pure (s.any fun w => v.eq w)

/-- `s == t`, for sets -/
def eqSet (s t : List Value) : Bool :=
  (s.all fun v => t.any fun w => v.eq w) && t.all fun w => s.any fun v => v.eq w

/-- The elements of a set, each of them once -/
def distinct : List Value → List Value
  | [] => []
  | v :: s => if s.any fun w => v.eq w then distinct s else v :: distinct s

/-- A list of strings. -/
def texts (s : List Text) : List Value := s.map .str

/-- `all(f(x) for x in xs)` -/
def forAll {α : Type} (f : α → Except Exc Bool) : List α → Except Exc Bool
  | [] => .ok true
  | x :: xs => do
    if ← f x then forAll f xs else pure false

/-- `[x for x in xs if f(x)]` -/
def select {α : Type} (f : α → Except Exc Bool) : List α → Except Exc (List α)
  | [] => .ok []
  | x :: xs => do
    let taken ← f x
    let rest ← select f xs
    pure (if taken then x :: rest else rest)

/-! ### Laws -/

/-- A computation that is bound has its value when both parts have theirs. -/
theorem bind_eq_ok {ε α β : Type} {x : Except ε α} {f : α → Except ε β} {b : β} :
    x >>= f = .ok b ↔ ∃ a, x = .ok a ∧ f a = .ok b := by
  cases x with
  | error e => exact iff_of_false (fun h => nomatch h) (fun ⟨_, h, _⟩ => nomatch h)
  | ok a =>
    constructor
    · intro h
      exact ⟨a, rfl, h⟩
    · rintro ⟨a', h, hf⟩
      obtain rfl := Except.ok.inj h
      exact hf

theorem forAll_ok {α : Type} {f : α → Except Exc Bool} {xs : List α} (h : forAll f xs = .ok true) :
    ∀ x ∈ xs, f x = .ok true := by
  induction xs with
  | nil => simp
  | cons x xs ih =>
    obtain ⟨b, hx, hrest⟩ := bind_eq_ok.1 h
    cases b with
    | false => cases hrest
    | true => exact List.forall_mem_cons.2 ⟨hx, ih hrest⟩

theorem mapM_ok {α β : Type} {f : α → Except Exc β} {xs : List α} {ys : List β}
    (h : xs.mapM f = .ok ys) :
    (∀ x ∈ xs, ∃ y ∈ ys, f x = .ok y) ∧ ∀ y ∈ ys, ∃ x ∈ xs, f x = .ok y := by
  induction xs generalizing ys with
  | nil =>
    obtain rfl := Except.ok.inj h
    simp
  | cons x xs ih =>
    rw [List.mapM_cons] at h
    obtain ⟨y, hy, h⟩ := bind_eq_ok.1 h
    obtain ⟨rest, hrest, h⟩ := bind_eq_ok.1 h
    obtain rfl := Except.ok.inj h
    obtain ⟨hforth, hback⟩ := ih hrest
    constructor
    · refine List.forall_mem_cons.2 ⟨⟨y, List.mem_cons_self, hy⟩, fun x' hx' => ?_⟩
      obtain ⟨y', hy', h⟩ := hforth x' hx'
      exact ⟨y', List.mem_cons_of_mem y hy', h⟩
    · refine List.forall_mem_cons.2 ⟨⟨x, List.mem_cons_self, hy⟩, fun y' hy' => ?_⟩
      obtain ⟨x', hx', h⟩ := hback y' hy'
      exact ⟨x', List.mem_cons_of_mem x hx', h⟩

theorem forM_ok {α : Type} {f : α → Except Exc Unit} {xs : List α} {u : Unit}
    (h : xs.forM f = .ok u) : ∀ x ∈ xs, f x = .ok () := by
  induction xs with
  | nil => simp
  | cons x xs ih =>
    obtain ⟨_, hx, h⟩ := bind_eq_ok.1 h
    exact List.forall_mem_cons.2 ⟨hx, ih h⟩

theorem select_ok {α : Type} {f : α → Except Exc Bool} {xs ys : List α}
    (h : select f xs = .ok ys) :
    (∀ x ∈ xs, ∃ b, f x = .ok b) ∧ ys = xs.filter fun x => (f x).toOption.getD false := by
  induction xs generalizing ys with
  | nil =>
    obtain rfl := Except.ok.inj h
    simp
  | cons x xs ih =>
    obtain ⟨b, hx, h⟩ := bind_eq_ok.1 h
    obtain ⟨rest, hrest, h⟩ := bind_eq_ok.1 h
    obtain ⟨hall, rfl⟩ := ih hrest
    obtain rfl := Except.ok.inj h
    refine ⟨List.forall_mem_cons.2 ⟨⟨b, hx⟩, hall⟩, ?_⟩
    cases b with
    | false => rw [List.filter_cons_of_neg (by simp [hx, Except.toOption])]; rfl
    | true => rw [List.filter_cons_of_pos (by simp [hx, Except.toOption])]; rfl

theorem eq_str {v : Value} {text : Text} : v.eq (.str text) = true ↔ v = .str text := by
  cases v <;> simp [Value.eq, Value.number?]

theorem eqMembers_suffix {front back : List (Text × Value)} {seen : List Text}
    (hseen : ∀ key, key ∈ seen ↔ key ∈ front.map Prod.fst)
    (hback : ∀ m ∈ back, m.2.eq m.2 = true) : eqMembers seen back (front ++ back) = true := by
  induction back generalizing front seen with
  | nil => rfl
  | cons m back ih =>
    obtain ⟨hm, hback⟩ := List.forall_mem_cons.1 hback
    have hrest : eqMembers (m.1 :: seen) back (front ++ m :: back) = true := by
      rw [List.append_cons]
      refine ih (fun key => ?_) hback
      simp [hseen key, or_comm]
    have hmember : m.1 ∉ seen → eqMember m (front ++ m :: back) = true := by
      intro hnot
      obtain ⟨key, v⟩ := m
      have hfront : front.find? (fun member => member.1 = key) = Option.none := by
        refine List.find?_eq_none.2 fun member hmember hkey => ?_
        have hkey : member.1 = key := of_decide_eq_true hkey
        exact hnot ((hseen key).2 (hkey ▸ List.mem_map_of_mem hmember))
      have hlookup : lookup (front ++ (key, v) :: back) key = some v := by
        simp [lookup, List.find?_append, hfront]
      rw [eqMember, hlookup]
      exact hm
    rw [eqMembers, hrest, Bool.and_true, Bool.or_eq_true]
    by_cases hseen' : m.1 ∈ seen
    · exact .inl (List.contains_iff_mem.2 hseen')
    · exact .inr (hmember hseen')

theorem eqItems_refl {xs : List Value} (h : ∀ x ∈ xs, x.eq x = true) : eqItems xs xs = true := by
  induction xs with
  | nil => rfl
  | cons x xs ih =>
    obtain ⟨hx, hxs⟩ := List.forall_mem_cons.1 h
    simp [eqItems, hx, ih hxs]

theorem eq_refl (v : Value) : v.eq v = true := by
  match v with
  | .none => rfl
  | .bool b => simp [Value.eq, Value.number?]
  | .int n => simp [Value.eq, Value.number?]
  | .float x => simp [Value.eq, Value.number?]
  | .str text => simp [Value.eq]
  | .list xs => exact eqItems_refl fun x hx => eq_refl x
  | .dict a =>
    have hmembers : eqMembers [] ([] ++ a) ([] ++ a) = true :=
      eqMembers_suffix (by simp) fun m (hm : m ∈ a) => eq_refl m.2
    simp only [Value.eq, Bool.and_eq_true, List.all_eq_true]
    exact ⟨hmembers, fun key hkey => List.contains_iff_mem.2 hkey⟩
termination_by sizeOf v
decreasing_by
  · have := List.sizeOf_lt_of_mem hx
    simp only [Value.list.sizeOf_spec]
    omega
  · have := List.sizeOf_lt_of_mem hm
    obtain ⟨key, w⟩ := m
    simp only [Value.dict.sizeOf_spec, Prod.mk.sizeOf_spec] at this ⊢
    omega

theorem getItem_ok {v w : Value} {key : Text} : v.getItem key = .ok w ↔ v.field key = some w := by
  cases v with
  | dict members =>
    simp only [Value.getItem, Value.field]
    cases lookup members key with
    | none => simp
    | some w' => simp
  | _ => simp [Value.getItem, Value.field]

theorem get_ok {v w default : Value} {key : Text} (h : v.get key default = .ok w) :
    (v.field key).getD default = w := by
  cases v with
  | dict members => exact Except.ok.inj h
  | _ => cases h

theorem field_of_get {v w default : Value} {key : Text} (h : v.get key default = .ok w)
    (hw : w ≠ default) : v.field key = some w := by
  have hget := get_ok h
  cases hfield : v.field key with
  | none =>
    rw [hfield] at hget
    exact absurd hget.symm hw
  | some w' =>
    rw [hfield] at hget
    exact congrArg some hget

theorem isList_iff {v : Value} : v.isList = true ↔ ∃ items, v = .list items := by
  cases v <;> simp [Value.isList]

theorem isDict_iff {v : Value} : v.isDict = true ↔ ∃ members, v = .dict members := by
  cases v <;> simp [Value.isDict]

theorem isNonemptyStr_ok {v : Value} (h : v.isNonemptyStr = true) : ∃ text, v = .str text := by
  cases v with
  | str text => exact ⟨text, rfl⟩
  | _ => cases h

theorem hashed_ok {v w : Value} (h : v.hashed = .ok w) : w = v := by
  cases v <;> cases h <;> rfl

theorem inSet_ok {v : Value} {s : List Value} (h : v.inSet s = .ok true) :
    ∃ w ∈ s, v.eq w = true := by
  unfold Value.inSet at h
  cases hv : v.hashed with
  | error e =>
    rw [hv] at h
    cases h
  | ok v' =>
    obtain rfl := hashed_ok hv
    rw [hv] at h
    exact List.any_eq_true.1 (Except.ok.inj h)

theorem eqSet_texts {s : List Value} {t : List Text} : eqSet s (texts t) = true ↔
    (∀ v ∈ s, ∃ text ∈ t, v = .str text) ∧ ∀ text ∈ t, Value.str text ∈ s := by
  simp [eqSet, texts, eq_str]

end Python
