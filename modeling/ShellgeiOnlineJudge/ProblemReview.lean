/-
The problems whose screens are reviewed (soj_tools/problem_review.py).

A list of changed paths makes a selection: the changed problems, or all of them.
The browser opens what a shard of the selection says, in one of two routes.
Numerals are read and written at any length.

* `shards_partition` — the shards of a list are a partition of it;
* `review_law_iff` — for which paths no changed problem is left out.
-/
import Mathlib.Data.List.Perm.Basic
import ShellgeiOnlineJudge.ProblemData

namespace ProblemReview

open Utf8 Json Problem

/-! ### Strided slices -/

section Slices

variable {α : Type}

/-- `xs[k::n]` -/
def everyNth (n : ℕ) : ℕ → List α → List α
  | _, [] => []
  | 0, x :: rest => x :: everyNth n (n - 1) rest
  | k + 1, _ :: rest => everyNth n k rest

theorem mem_of_mem_everyNth {n k : ℕ} {xs : List α} {x : α} (h : x ∈ everyNth n k xs) :
    x ∈ xs := by
  induction xs generalizing k with
  | nil => cases h
  | cons y xs ih =>
    cases k with
    | zero =>
      rcases List.mem_cons.1 h with rfl | h
      · exact List.mem_cons_self
      · exact List.mem_cons_of_mem y (ih h)
    | succ k => exact List.mem_cons_of_mem y (ih h)

/-- The slices with the starts below the step are the list. -/
theorem flatMap_everyNth_perm {n : ℕ} (hn : 0 < n) (xs : List α) :
    ((List.range n).flatMap fun k => everyNth n k xs).Perm xs := by
  obtain ⟨m, rfl⟩ := Nat.exists_eq_add_one.2 hn
  induction xs with
  | nil =>
    have hnil : ∀ k, everyNth (m + 1) k ([] : List α) = [] := fun k => by cases k <;> rfl
    simp [hnil]
  | cons x xs ih =>
    -- the first slice takes the element, and the others move on by one
    have hsplit : ((List.range (m + 1)).flatMap fun k => everyNth (m + 1) k (x :: xs)) =
        x :: (everyNth (m + 1) m xs ++ (List.range m).flatMap fun k => everyNth (m + 1) k xs) := by
      rw [List.range_succ_eq_map, List.flatMap_cons, List.flatMap_map]
      rfl
    have hlast : ((List.range (m + 1)).flatMap fun k => everyNth (m + 1) k xs) =
        ((List.range m).flatMap fun k => everyNth (m + 1) k xs) ++ everyNth (m + 1) m xs := by
      rw [List.range_succ, List.flatMap_append, List.flatMap_singleton]
    rw [hsplit]
    rw [hlast] at ih
    exact (List.perm_append_comm.trans ih).cons x

/-- The slices of a list without duplicates are disjoint. -/
theorem everyNth_disjoint {n k j : ℕ} {xs : List α} {x : α} (hxs : xs.Nodup) (hk : k < n)
    (hj : j < n) (hxk : x ∈ everyNth n k xs) (hxj : x ∈ everyNth n j xs) : k = j := by
  induction xs generalizing k j with
  | nil => cases hxk
  | cons y xs ih =>
    obtain ⟨hy, hxs⟩ := List.nodup_cons.1 hxs
    -- the start of a slice, one element further
    have hrest : ∀ {i : ℕ}, i < n → x ∈ everyNth n i (y :: xs) →
        x = y ∧ i = 0 ∨ x ∈ everyNth n (if i = 0 then n - 1 else i - 1) xs := by
      intro i hi hmem
      cases i with
      | zero =>
        rcases List.mem_cons.1 hmem with rfl | hmem
        · exact .inl ⟨rfl, rfl⟩
        · exact .inr hmem
      | succ i => exact .inr hmem
    rcases hrest hk hxk with ⟨rfl, rfl⟩ | hxk'
    · rcases hrest hj hxj with ⟨-, rfl⟩ | hxj'
      · rfl
      · exact absurd (mem_of_mem_everyNth hxj') hy
    · rcases hrest hj hxj with ⟨rfl, -⟩ | hxj'
      · exact absurd (mem_of_mem_everyNth hxk') hy
      · have hsame := ih hxs (by split <;> omega) (by split <;> omega) hxk' hxj'
        split at hsame
        · split at hsame
          · omega
          · omega
        · split at hsame
          · omega
          · omega

end Slices

/-! ### Selections -/

/-- `REPRESENTATIVES` -/
def representatives : List Text :=
  ["PRACTICE-base64-01".toList, "STANDARD-00000068".toList]

/-- `FULL_REVIEW_SHARDS` -/
def fullReviewShards : ℕ := 3

/-- A `ValueError`: of `json.loads`, or with a message. -/
inductive ReviewError
  | jsonDecode
  | message (text : String)
  deriving DecidableEq

/-- `sorted(ids)` -/
def sorted (ids : List Text) : List Text := ids.mergeSort fun a b => decide (a ≤ b)

/-- The selection of every problem. -/
def all : Text := "all".toList

/-- The items of an array of strings. -/
def stringItems : Value → Option (List Text)
  | .array items => items.mapM fun
    | .string text => some text
    | _ => none
  | _ => none

/-- `select_problem_ids` -/
def selectProblemIds (available : List Text) (selection : Text) :
    Except ReviewError (List Text) :=
  if selection = all then .ok (sorted available)
  else match parse selection with
    | none => .error .jsonDecode
    | some value => match stringItems value with
      | none => .error (.message "problem selection must be an array of IDs")
      | some requested =>
        if ¬ requested.Nodup ∨ ¬ requested ⊆ available then
          .error (.message "unknown or duplicate problem ID")
        else if ¬ representatives ⊆ available then
          .error (.message "representative problems are missing")
        else .ok (sorted (requested ++ representatives).dedup)

/-! ### Shards -/

/-- `f"{k}/{n}"` -/
def shardText (k n : ℕ) : Text := Nat.toDigits 10 k ++ '/' :: Nat.toDigits 10 n

/-- `SHARD.fullmatch`, with the numbers of the groups -/
def matchShard (shard : Text) : Option (ℕ × ℕ) :=
  match shard.splitOn '/' with
  | [k, n] =>
    if (k ≠ [] ∧ k.all Char.isDigit = true) ∧ n.head?.any (· ≠ '0') = true ∧
        n.all Char.isDigit = true then
      some (Nat.ofDigitChars 10 k 0, Nat.ofDigitChars 10 n 0)
    else none
  | _ => none

/-- `shard_ids` -/
def shardIds (ids : List Text) (shard : Text) : Except ReviewError (List Text) :=
  match matchShard shard with
  | none => .error (.message "browser shard must be k/n with 0 <= k < n")
  | some (k, n) =>
    if n ≤ k then .error (.message "browser shard must be k/n with 0 <= k < n")
    else .ok (everyNth n k (sorted ids))

/-- `pid.startswith("REGEX-")` -/
def isRegex (pid : Text) : Bool := "REGEX-".toList.isPrefixOf pid

/-- The problems of the regular expressions, and those that are checked in detail. -/
def browserPlan (available : List Text) (selection shard : Text) :
    Except ReviewError (List Text × List Text) := do
  let selected ← selectProblemIds available selection
  if selection = all then
    let regex ← shardIds (sorted (available.filter isRegex)) shard
    let detail ← shardIds (selected.filter fun pid => ! isRegex pid) shard
    return (regex, detail)
  else if shard ≠ shardText 0 1 then
    .error (.message "only the full review is split into shards")
  else return ((sorted (available.filter isRegex)).take 1, selected)

/-- `shards_for` -/
def shardsFor (selection : Text) : List Text :=
  let count := if selection = all then fullReviewShards else 1
  (List.range count).map fun index => shardText index count

/-! ### Paths -/

/-- `[A-Z]` -/
def isUpper (c : Char) : Bool := 'A' ≤ c && c ≤ 'Z'

/-- `[A-Z]+-[A-Za-z0-9-]+` -/
def matchesProblemName (name : Text) : Bool :=
  name.takeWhile isUpper ≠ [] && match name.dropWhile isUpper with
    | '-' :: rest => rest ≠ [] && rest.all fun c => isAlphanumeric c || c = '-'
    | _ => false

/-- What stands between two texts. -/
def between (front back path : Text) : Option Text := do
  let rest ← path.dropPrefix? front
  rest.dropSuffix? back

/-- The directories and the endings of `PROBLEM_FILE`. -/
def problemFrames : List (Text × Text) :=
  [("problems/v3/".toList, ".yaml".toList), ("problems/v3/".toList, ".jpg".toList),
    ("problems/image/".toList, ".yaml".toList), ("problems/image/".toList, ".jpg".toList)]

/-- `PROBLEM_FILE.fullmatch`, with its group -/
def problemFile (path : Text) : Option Text :=
  (problemFrames.findSome? fun frame => between frame.1 frame.2 path).filter
    matchesProblemName

/-- `FRONTEND_ASSET_DIRS` -/
def frontendAssetDirs : List Text := ["frontend/src/".toList, "frontend/public/".toList]

/-- `[a-z0-9_]+` -/
def matchesTestName (name : Text) : Bool :=
  name ≠ [] && name.all fun c => ('a' ≤ c && c ≤ 'z') || ('0' ≤ c && c ≤ '9') || c = '_'

/-- The branches of the loop that go on with the next path. -/
def ignorable (path : Text) : Bool :=
  path ∈ ["problems/v3/manifest.json".toList, "problems/README.md".toList,
    "UPDATE_HISTORY.md".toList] ||
  ".md".toList.isSuffixOf path && (frontendAssetDirs.all fun dir => ! dir.isPrefixOf path) ||
  (between "backend/tests/test_".toList "_problem.py".toList path).any matchesTestName ||
  (between "backend/tests/integration/test_".toList "_solutions.py".toList path).any
    matchesTestName

/-- The loop over the paths: the changed problems, unless it returns `"all"`. -/
def changedIds (available : List Text) : List Text → Option (List Text)
  | [] => some []
  | path :: rest =>
    match problemFile path with
    | some pid =>
      if pid ∉ available then none else (changedIds available rest).map (pid :: ·)
    | none => if ignorable path then changedIds available rest else none

/-- `selection_for_paths` -/
def selectionForPaths (paths available : List Text) : Text :=
  match changedIds available paths with
  | none => all
  | some changed => if paths ≠ [] then dumps (sorted changed.dedup) else all

/-! ### Sorted lists -/

theorem mem_sorted {ids : List Text} {pid : Text} : pid ∈ sorted ids ↔ pid ∈ ids :=
  List.mem_mergeSort

theorem sorted_perm (ids : List Text) : (sorted ids).Perm ids := List.mergeSort_perm _ _

theorem nodup_sorted {ids : List Text} (h : ids.Nodup) : (sorted ids).Nodup :=
  (sorted_perm ids).nodup_iff.2 h

/-! ### Shards of a list -/

theorem isDigit_of_mem_toDigits {n : ℕ} {c : Char} (h : c ∈ Nat.toDigits 10 n) :
    c.isDigit = true :=
  Nat.isDigit_of_mem_toDigits (by decide) (by decide) h

theorem matchShard_shardText {k n : ℕ} (hn : 0 < n) : matchShard (shardText k n) = some (k, n) := by
  have hslash : ∀ m : ℕ, '/' ∉ Nat.toDigits 10 m := by
    intro m hmem
    exact absurd (isDigit_of_mem_toDigits hmem) (by decide)
  -- the digits have no slash, so the text splits into the two numbers
  have hsplit : (shardText k n).splitOn '/' = [Nat.toDigits 10 k, Nat.toDigits 10 n] := by
    have hjoin : shardText k n =
        ['/'].intercalate [Nat.toDigits 10 k, Nat.toDigits 10 n] := by
      rw [List.intercalate_cons_cons, List.intercalate_singleton, List.append_assoc]
      rfl
    rw [hjoin]
    refine List.splitOn_intercalate _ ?_ (by simp)
    intro digits hdigits
    rcases List.mem_cons.1 hdigits with rfl | hdigits
    · exact hslash k
    · rw [List.mem_singleton.1 hdigits]
      exact hslash n
  -- a positive number does not begin with a zero
  have hhead : (Nat.toDigits 10 n).head?.any (· ≠ '0') = true := by
    cases hdigits : Nat.toDigits 10 n with
    | nil => exact absurd hdigits Nat.toDigits_ne_nil
    | cons c rest =>
      show decide (c ≠ '0') = true
      rw [decide_eq_true_iff]
      rintro rfl
      have hzero := toDigits_head n (by rw [hdigits]; rfl)
      omega
  rw [matchShard, hsplit]
  show (if _ then _ else _) = _
  have hdigits : ∀ m : ℕ, (Nat.toDigits 10 m).all Char.isDigit = true := fun m =>
    List.all_eq_true.2 fun c hc => isDigit_of_mem_toDigits hc
  rw [if_pos ⟨⟨Nat.toDigits_ne_nil, hdigits k⟩, hhead, hdigits n⟩]
  rw [Nat.ofDigitChars_toDigits (by decide) (by decide),
    Nat.ofDigitChars_toDigits (by decide) (by decide)]

theorem shardIds_shardText {ids : List Text} {k n : ℕ} (hk : k < n) :
    shardIds ids (shardText k n) = .ok (everyNth n k (sorted ids)) := by
  rw [shardIds, matchShard_shardText (by omega)]
  exact if_neg (by omega)

/-- The shards of a list are a partition of it: together they are the sorted list, and
an ID of a list without duplicates is in one shard. -/
theorem shards_partition {n : ℕ} (hn : 0 < n) (ids : List Text) :
    (∃ shards, (List.range n).mapM (fun k => shardIds ids (shardText k n)) = .ok shards ∧
      shards.flatten.Perm (sorted ids)) ∧
    (ids.Nodup → ∀ pid ∈ ids, ∃! k, k < n ∧
      ∃ shard, shardIds ids (shardText k n) = .ok shard ∧ pid ∈ shard) := by
  have hperm := flatMap_everyNth_perm hn (sorted ids)
  constructor
  · refine ⟨(List.range n).map fun k => everyNth n k (sorted ids), ?_, ?_⟩
    · have hmap : ∀ ks : List ℕ, (∀ k ∈ ks, k < n) →
          ks.mapM (fun k => shardIds ids (shardText k n)) =
            .ok (ks.map fun k => everyNth n k (sorted ids)) := by
        intro ks hks
        induction ks with
        | nil => rfl
        | cons k ks ih =>
          rw [List.mapM_cons, shardIds_shardText (hks k List.mem_cons_self),
            ih fun j hj => hks j (List.mem_cons_of_mem k hj)]
          rfl
      exact hmap _ fun k hk => List.mem_range.1 hk
    · rw [← List.flatMap_def]
      exact hperm
  -- two shards of a list without duplicates are disjoint
  · intro hnodup pid hpid
    have hmem := hperm.symm.subset (mem_sorted.2 hpid)
    obtain ⟨k, hk, hshard⟩ := List.mem_flatMap.1 hmem
    have hk := List.mem_range.1 hk
    refine ⟨k, ⟨hk, _, shardIds_shardText hk, hshard⟩, ?_⟩
    rintro j ⟨hj, shard, hrun, hother⟩
    rw [shardIds_shardText hj] at hrun
    obtain rfl := Except.ok.inj hrun
    exact everyNth_disjoint (nodup_sorted hnodup) hj hk hother hshard

/-! ### What is opened -/

section Opened

variable {available paths : List Text} {selection path pid : Text}

/-- Some shard of the selection opens the problem. -/
def Reviewed (available : List Text) (selection pid : Text) : Prop :=
  ∃ shard ∈ shardsFor selection, ∃ plan, browserPlan available selection shard = .ok plan ∧
    (pid ∈ plan.1 ∨ pid ∈ plan.2)

/-- The shard opens the problem in the route: the first for the regular expressions,
and the second for the details. -/
def OpenedBy (available : List Text) (pid : Text) (shard : ℕ × Bool) : Prop :=
  ∃ plan, browserPlan available all (shardText shard.1 fullReviewShards) = .ok plan ∧
    pid ∈ if shard.2 then plan.1 else plan.2

theorem browserPlan_all {k : ℕ} (hk : k < fullReviewShards) :
    browserPlan available all (shardText k fullReviewShards) =
      .ok (everyNth fullReviewShards k (sorted (sorted (available.filter isRegex))),
        everyNth fullReviewShards k
          (sorted ((sorted available).filter fun pid => ! isRegex pid))) := by
  have hselect : selectProblemIds available all = .ok (sorted available) := if_pos rfl
  rw [browserPlan, hselect]
  simp only [Except.bind, bind, if_true, shardIds_shardText hk]
  rfl

/-- The full review opens each problem once. -/
theorem full_review (havailable : available.Nodup) (hpid : pid ∈ available) :
    ∃! shard, shard.1 < fullReviewShards ∧ OpenedBy available pid shard := by
  have hcount : 0 < fullReviewShards := by decide
  -- the route of the problem, and the list of all problems of the route
  have hroute : ∀ {ids : List Text}, ids.Nodup → pid ∈ ids → ∃ k, k < fullReviewShards ∧
      pid ∈ everyNth fullReviewShards k (sorted ids) ∧
      ∀ j, j < fullReviewShards → pid ∈ everyNth fullReviewShards j (sorted ids) → j = k := by
    intro ids hids hmem
    obtain ⟨k, hk, hshard⟩ := List.mem_flatMap.1
      ((flatMap_everyNth_perm hcount (sorted ids)).symm.subset (mem_sorted.2 hmem))
    exact ⟨k, List.mem_range.1 hk, hshard, fun j hj hother =>
      everyNth_disjoint (nodup_sorted hids) hj (List.mem_range.1 hk) hother hshard⟩
  have hregex : ∀ {k : ℕ},
      pid ∈ everyNth fullReviewShards k (sorted (sorted (available.filter isRegex))) →
      isRegex pid = true := by
    intro k hmem
    have hmem := mem_sorted.1 (mem_sorted.1 (mem_of_mem_everyNth hmem))
    exact (List.mem_filter.1 hmem).2
  have hdetail : ∀ {k : ℕ}, pid ∈ everyNth fullReviewShards k
      (sorted ((sorted available).filter fun pid => ! isRegex pid)) → isRegex pid = false := by
    intro k hmem
    have hmem := mem_sorted.1 (mem_of_mem_everyNth hmem)
    simpa using (List.mem_filter.1 hmem).2
  cases hkind : isRegex pid with
  | true =>
    obtain ⟨k, hk, hmem, hunique⟩ := hroute
      (nodup_sorted (havailable.filter isRegex))
      (mem_sorted.2 (List.mem_filter.2 ⟨hpid, hkind⟩))
    refine ⟨(k, true), ⟨hk, _, browserPlan_all hk, hmem⟩, ?_⟩
    rintro ⟨j, route⟩ ⟨hj, plan, hplan, hother⟩
    rw [browserPlan_all hj] at hplan
    obtain rfl := Except.ok.inj hplan
    cases route with
    | true => rw [hunique j hj hother]
    | false =>
      rw [hdetail hother] at hkind
      cases hkind
  | false =>
    obtain ⟨k, hk, hmem, hunique⟩ := hroute
      ((nodup_sorted havailable).filter fun pid => ! isRegex pid)
      (List.mem_filter.2 ⟨mem_sorted.2 hpid, by rw [hkind]; rfl⟩)
    refine ⟨(k, false), ⟨hk, _, browserPlan_all hk, hmem⟩, ?_⟩
    rintro ⟨j, route⟩ ⟨hj, plan, hplan, hother⟩
    rw [browserPlan_all hj] at hplan
    obtain rfl := Except.ok.inj hplan
    cases route with
    | true =>
      rw [hregex hother] at hkind
      cases hkind
    | false => rw [hunique j hj hother]

theorem reviewed_all (havailable : available.Nodup) (hpid : pid ∈ available) :
    Reviewed available all pid := by
  obtain ⟨⟨k, route⟩, ⟨hk, plan, hplan, hmem⟩, -⟩ := full_review havailable hpid
  refine ⟨shardText k fullReviewShards, List.mem_map.2 ⟨k, List.mem_range.2 hk, rfl⟩, plan,
    hplan, ?_⟩
  cases route with
  | true => exact .inl hmem
  | false => exact .inr hmem

theorem dumps_ne_all (items : List Text) : dumps items ≠ all := by
  intro heq
  exact absurd (List.cons.inj heq).1 (by decide)

theorem stringItems_map (items : List Text) :
    stringItems (.array (items.map Value.string)) = some items := by
  rw [stringItems]
  induction items with
  | nil => rfl
  | cons item items ih =>
    rw [List.map_cons, List.mapM_cons, ih]
    rfl

/-- A selection of available problems. -/
theorem selectProblemIds_dumps {ids : List Text} (hids : ids.Nodup) (hsub : ids ⊆ available)
    (hrep : representatives ⊆ available) :
    selectProblemIds available (dumps ids) = .ok (sorted (ids ++ representatives).dedup) := by
  rw [selectProblemIds, if_neg (dumps_ne_all ids), parse_dumps]
  show (match stringItems (.array (ids.map Value.string)) with
    | none => _
    | some requested => _) = _
  rw [stringItems_map]
  show (if _ then _ else if _ then _ else _) = _
  rw [if_neg (by simp [hids, hsub]), if_neg (not_not.2 hrep)]

theorem reviewed_dumps_iff {ids : List Text} (hids : ids.Nodup) (hsub : ids ⊆ available)
    (hrep : representatives ⊆ available) :
    Reviewed available (dumps ids) pid ↔
      (sorted (available.filter isRegex)).head? = some pid ∨ pid ∈ ids ∨ pid ∈ representatives := by
  -- a list of IDs is reviewed in one shard
  have hshards : shardsFor (dumps ids) = [shardText 0 1] := by
    rw [shardsFor, if_neg (dumps_ne_all ids)]
    rfl
  have hplan : browserPlan available (dumps ids) (shardText 0 1) =
      .ok ((sorted (available.filter isRegex)).take 1, sorted (ids ++ representatives).dedup) := by
    rw [browserPlan, selectProblemIds_dumps hids hsub hrep]
    simp only [Except.bind, bind]
    rw [if_neg (dumps_ne_all ids), if_neg (not_not.2 rfl)]
    rfl
  -- the first regex problem stands for all of them
  have hfirst : ∀ regex : List Text, pid ∈ regex.take 1 ↔ regex.head? = some pid := by
    intro regex
    cases regex with
    | nil => simp
    | cons first rest => simp [eq_comm]
  have hopened : Reviewed available (dumps ids) pid ↔
      pid ∈ (sorted (available.filter isRegex)).take 1 ∨
        pid ∈ sorted (ids ++ representatives).dedup := by
    constructor
    · rintro ⟨shard, hshard, plan, hrun, hmem⟩
      rw [hshards] at hshard
      rw [List.mem_singleton.1 hshard, hplan] at hrun
      rw [← Except.ok.inj hrun] at hmem
      exact hmem
    · intro hmem
      exact ⟨shardText 0 1, by rw [hshards]; exact List.mem_singleton_self _, _, hplan, hmem⟩
  rw [hopened, hfirst, mem_sorted, List.mem_dedup, List.mem_append]

end Opened

/-! ### What a path says -/

section Paths

variable {available paths : List Text} {path pid : Text}

theorem between_eq_some_iff {front back name : Text} :
    between front back path = some name ↔ path = front ++ name ++ back := by
  rw [between, Option.bind_eq_bind, Option.bind_eq_some_iff]
  constructor
  · rintro ⟨rest, hrest, hname⟩
    obtain ⟨front', rfl, hfront⟩ := List.dropPrefix?_eq_some_iff.1 hrest
    obtain ⟨back', rfl, hback⟩ := List.dropSuffix?_eq_some_iff.1 hname
    rw [eq_of_beq hfront, eq_of_beq hback, List.append_assoc]
  · rintro rfl
    refine ⟨name ++ back, ?_, ?_⟩
    · rw [List.append_assoc]
      exact List.dropPrefix?_append_of_beq _ (beq_self_eq_true front)
    · exact List.dropSuffix?_eq_some_iff.2 ⟨back, rfl, beq_self_eq_true back⟩

/-- A path has one directory and one ending: they differ in the tenth character and
in the last one. -/
theorem frame_unique {frame frame' : Text × Text} (hframe : frame ∈ problemFrames)
    (hframe' : frame' ∈ problemFrames) {name name' : Text}
    (heq : frame.1 ++ name ++ frame.2 = frame'.1 ++ name' ++ frame'.2) :
    frame = frame' ∧ name = name' := by
  have hlong : ∀ frame ∈ problemFrames, 9 < frame.1.length ∧ frame.2 ≠ [] := by decide
  have htell : ∀ frame ∈ problemFrames, ∀ frame' ∈ problemFrames,
      frame.1[9]? = frame'.1[9]? → frame.2.getLast? = frame'.2.getLast? → frame = frame' := by
    decide
  have htenth := congrArg (fun text : Text => text[9]?) heq
  have hlast := congrArg List.getLast? heq
  simp only [List.append_assoc, List.getElem?_append_left (hlong frame hframe).1,
    List.getElem?_append_left (hlong frame' hframe').1] at htenth
  rw [List.getLast?_append_of_ne_nil _ (hlong frame hframe).2,
    List.getLast?_append_of_ne_nil _ (hlong frame' hframe').2] at hlast
  obtain rfl := htell frame hframe frame' hframe' htenth hlast
  exact ⟨rfl, List.append_cancel_left (List.append_cancel_right heq)⟩

theorem problemFile_eq_some_iff : problemFile path = some pid ↔
    matchesProblemName pid = true ∧ ∃ frame ∈ problemFrames, path = frame.1 ++ pid ++ frame.2 := by
  rw [problemFile, Option.filter_eq_some_iff]
  constructor
  · rintro ⟨hfound, hname⟩
    obtain ⟨frame, hframe, hbetween⟩ := List.exists_of_findSome?_eq_some hfound
    exact ⟨hname, frame, hframe, between_eq_some_iff.1 hbetween⟩
  · rintro ⟨hname, frame, hframe, hpath⟩
    refine ⟨?_, hname⟩
    cases hfound : problemFrames.findSome? fun frame => between frame.1 frame.2 path with
    | none =>
      have hnone := List.findSome?_eq_none_iff.1 hfound frame hframe
      rw [between_eq_some_iff.2 hpath] at hnone
      cases hnone
    | some name =>
      obtain ⟨frame', hframe', hbetween⟩ := List.exists_of_findSome?_eq_some hfound
      have hsame := hpath.symm.trans (between_eq_some_iff.1 hbetween)
      rw [(frame_unique hframe hframe' hsame).2]

/-- The YAML file of a problem, or the JPEG of its image. -/
def IsProblemFile (path pid : Text) : Prop :=
  path = "problems/v3/".toList ++ pid ++ ".yaml".toList ∨
    path = "problems/image/".toList ++ pid ++ ".jpg".toList

instance (path pid : Text) : Decidable (IsProblemFile path pid) :=
  inferInstanceAs (Decidable (_ ∨ _))

theorem IsProblemFile.frame (h : IsProblemFile path pid) :
    ∃ frame ∈ problemFrames, path = frame.1 ++ pid ++ frame.2 := by
  rcases h with h | h
  · exact ⟨("problems/v3/".toList, ".yaml".toList), by decide, h⟩
  · exact ⟨("problems/image/".toList, ".jpg".toList), by decide, h⟩

/-- The last character of a path that the loop passes over. -/
theorem getLast?_of_ignorable (h : ignorable path = true) :
    path.getLast? = some 'n' ∨ path.getLast? = some 'd' ∨ path.getLast? = some 'y' := by
  have hback : ∀ {front back name : Text}, back ≠ [] → between front back path = some name →
      path.getLast? = back.getLast? := by
    intro front back name hne hbetween
    rw [between_eq_some_iff.1 hbetween, List.getLast?_append_of_ne_nil _ hne]
  rw [ignorable] at h
  simp only [Bool.or_eq_true, Bool.and_eq_true, decide_eq_true_eq] at h
  rcases h with ((h | ⟨h, -⟩) | h) | h
  · simp only [List.mem_cons, List.not_mem_nil, or_false] at h
    rcases h with rfl | rfl | rfl
    · exact .inl (by decide)
    · exact .inr (.inl (by decide))
    · exact .inr (.inl (by decide))
  · obtain ⟨front, rfl⟩ := List.isSuffixOf_iff_suffix.1 h
    rw [List.getLast?_append_of_ne_nil _ (by decide)]
    exact .inr (.inl (by decide))
  · obtain ⟨name, hbetween, -⟩ := (Option.any_eq_true _ _).1 h
    rw [hback (by decide) hbetween]
    exact .inr (.inr (by decide))
  · obtain ⟨name, hbetween, -⟩ := (Option.any_eq_true _ _).1 h
    rw [hback (by decide) hbetween]
    exact .inr (.inr (by decide))

/-- The loop does not pass over the file of a problem. -/
theorem IsProblemFile.not_ignorable (h : IsProblemFile path pid) : ignorable path = false := by
  cases hignorable : ignorable path with
  | false => rfl
  | true =>
    have hlast := getLast?_of_ignorable hignorable
    rcases h with rfl | rfl
    · rw [List.getLast?_append_of_ne_nil _ (by decide)] at hlast
      exact absurd hlast (by decide)
    · rw [List.getLast?_append_of_ne_nil _ (by decide)] at hlast
      exact absurd hlast (by decide)

/-- The loop returns `"all"` at the path. -/
def Broad (available : List Text) (path : Text) : Prop :=
  match problemFile path with
  | some pid => pid ∉ available
  | none => ignorable path = false

/-- The path is taken for a file of an available problem, and is neither its YAML file
nor its image. -/
def Misplaced (available : List Text) (path : Text) : Prop :=
  ∃ pid ∈ available, problemFile path = some pid ∧ ¬ IsProblemFile path pid

theorem IsProblemFile.problemFile_of_not_broad (h : IsProblemFile path pid)
    (hbroad : ¬ Broad available path) : problemFile path = some pid := by
  rw [Broad] at hbroad
  cases hfile : problemFile path with
  | none =>
    rw [hfile] at hbroad
    exact absurd h.not_ignorable hbroad
  | some name =>
    obtain ⟨-, frame, hframe, hpath⟩ := problemFile_eq_some_iff.1 hfile
    obtain ⟨frame', hframe', hpath'⟩ := h.frame
    rw [(frame_unique hframe hframe' (hpath.symm.trans hpath')).2]

/-- The loop at a path. -/
theorem changedIds_cons : (Broad available path ∧ changedIds available (path :: paths) = none) ∨
    ¬ Broad available path ∧ changedIds available (path :: paths) =
      (changedIds available paths).map ((problemFile path).toList ++ ·) := by
  rw [changedIds, Broad]
  cases hfile : problemFile path with
  | some pid =>
    by_cases hpid : pid ∈ available
    · refine .inr ⟨not_not.2 hpid, ?_⟩
      exact if_neg (not_not.2 hpid)
    · exact .inl ⟨hpid, if_pos hpid⟩
  | none =>
    cases hignorable : ignorable path with
    | true =>
      refine .inr ⟨by simp, ?_⟩
      show changedIds available paths = (changedIds available paths).map ([] ++ ·)
      simp
    | false => exact .inl ⟨rfl, rfl⟩

theorem broad_of_changedIds (h : changedIds available paths = none) :
    ∃ path ∈ paths, Broad available path := by
  induction paths with
  | nil => cases h
  | cons path paths ih =>
    rcases @changedIds_cons available paths path with
      ⟨hbroad, -⟩ | ⟨-, hrest⟩
    · exact ⟨path, List.mem_cons_self, hbroad⟩
    · rw [hrest, Option.map_eq_none_iff] at h
      obtain ⟨other, hother, hbroad⟩ := ih h
      exact ⟨other, List.mem_cons_of_mem path hother, hbroad⟩

/-- The loop to its end. -/
theorem changedIds_eq_some {changed : List Text} (h : changedIds available paths = some changed) :
    (∀ path ∈ paths, ¬ Broad available path) ∧
      ∀ pid, pid ∈ changed ↔ ∃ path ∈ paths, problemFile path = some pid := by
  induction paths generalizing changed with
  | nil =>
    obtain rfl := Option.some.inj h
    simp
  | cons path paths ih =>
    rcases @changedIds_cons available paths path with
      ⟨-, hnone⟩ | ⟨hbroad, hrest⟩
    · rw [hnone] at h
      cases h
    · rw [hrest] at h
      obtain ⟨before, hbefore, rfl⟩ := Option.map_eq_some_iff.1 h
      obtain ⟨hnone, hchanged⟩ := ih hbefore
      refine ⟨List.forall_mem_cons.2 ⟨hbroad, hnone⟩, fun pid => ?_⟩
      rw [List.mem_append, Option.mem_toList, hchanged, List.exists_mem_cons_iff]

/-- What is changed is available. -/
theorem changedIds_subset {changed : List Text} (h : changedIds available paths = some changed) :
    changed ⊆ available := by
  intro pid hpid
  obtain ⟨hbroad, hchanged⟩ := changedIds_eq_some h
  obtain ⟨path, hpath, hfile⟩ := (hchanged pid).1 hpid
  have hnot := hbroad path hpath
  rw [Broad, hfile] at hnot
  exact not_not.1 hnot

/-- The selection of the paths: all problems, or the changed ones. -/
theorem selectionForPaths_cases (available paths : List Text) :
    (selectionForPaths paths available = all ∧
      (paths = [] ∨ ∃ path ∈ paths, Broad available path)) ∨
    ∃ ids, selectionForPaths paths available = dumps ids ∧ ids.Nodup ∧ ids ⊆ available ∧
      (∀ path ∈ paths, ¬ Broad available path) ∧
      ∀ pid, pid ∈ ids ↔ ∃ path ∈ paths, problemFile path = some pid := by
  rw [selectionForPaths]
  cases hchanged : changedIds available paths with
  | none => exact .inl ⟨rfl, .inr (broad_of_changedIds hchanged)⟩
  | some changed =>
    by_cases hempty : paths = []
    · exact .inl ⟨if_neg (not_not.2 hempty), .inl hempty⟩
    · obtain ⟨hbroad, hmem⟩ := changedIds_eq_some hchanged
      refine .inr ⟨sorted changed.dedup, if_pos hempty, nodup_sorted (List.nodup_dedup _), ?_,
        hbroad, fun pid => ?_⟩
      · intro pid hpid
        exact changedIds_subset hchanged (List.mem_dedup.1 (mem_sorted.1 hpid))
      · rw [mem_sorted, List.mem_dedup, hmem]

end Paths

/-! ### The law of the review -/

/-- No changed problem is left out of the review. -/
structure ReviewLaw (paths available : List Text) : Prop where
  accepted : ∃ ids, selectProblemIds available (selectionForPaths paths available) = .ok ids
  changed : ∀ pid ∈ available, (∃ path ∈ paths, IsProblemFile path pid) →
    Reviewed available (selectionForPaths paths available) pid
  unknown : (∃ path ∈ paths, (∀ pid ∈ available, ¬ IsProblemFile path pid) ∧
      ignorable path = false) →
    ∀ pid ∈ available, Reviewed available (selectionForPaths paths available) pid
  representative : ∀ pid ∈ representatives,
    Reviewed available (selectionForPaths paths available) pid
  full : ∀ pid ∈ available,
    ∃! shard, shard.1 < fullReviewShards ∧ OpenedBy available pid shard
  partition : ∀ n, 0 < n → ∀ ids : List Text,
    (∃ shards, (List.range n).mapM (fun k => shardIds ids (shardText k n)) = .ok shards ∧
      shards.flatten.Perm (sorted ids)) ∧
    (ids.Nodup → ∀ pid ∈ ids, ∃! k, k < n ∧
      ∃ shard, shardIds ids (shardText k n) = .ok shard ∧ pid ∈ shard)

/-- A problem that is opened without being changed by a path: a representative, or the
first of the regular expressions. -/
def Always (available : List Text) (pid : Text) : Prop :=
  pid ∈ representatives ∨ (sorted (available.filter isRegex)).head? = some pid

/-- The paths for which the law holds. -/
def Covered (paths available : List Text) : Prop :=
  (∀ path ∈ paths, ¬ Misplaced available path) ∨ (∃ path ∈ paths, Broad available path) ∨
    ∀ pid ∈ available, Always available pid ∨ ∃ path ∈ paths, problemFile path = some pid

section Law

variable {paths available : List Text}

/-- What a selection of some problems opens. -/
theorem reviewed_selection_iff {ids : List Text} {pid : Text}
    (hselection : selectionForPaths paths available = dumps ids) (hnodup : ids.Nodup)
    (hsub : ids ⊆ available) (hrep : representatives ⊆ available)
    (hids : ∀ pid, pid ∈ ids ↔ ∃ path ∈ paths, problemFile path = some pid) :
    Reviewed available (selectionForPaths paths available) pid ↔
      Always available pid ∨ ∃ path ∈ paths, problemFile path = some pid := by
  rw [hselection, reviewed_dumps_iff hnodup hsub hrep, hids, Always]
  constructor
  · rintro (hfirst | hchanged | hrepresentative)
    · exact .inl (.inr hfirst)
    · exact .inr hchanged
    · exact .inl (.inl hrepresentative)
  · rintro ((hrepresentative | hfirst) | hchanged)
    · exact .inr (.inr hrepresentative)
    · exact .inl hfirst
    · exact .inr (.inl hchanged)

/-- The loop does not pass over what `PROBLEM_FILE` matches. -/
theorem not_ignorable_of_problemFile {path pid : Text} (h : problemFile path = some pid) :
    ignorable path = false := by
  cases hignorable : ignorable path with
  | false => rfl
  | true =>
    obtain ⟨-, frame, hframe, rfl⟩ := problemFile_eq_some_iff.1 h
    have hend : ∀ frame ∈ problemFrames, frame.2 ≠ [] ∧ ¬ (frame.2.getLast? = some 'n' ∨
        frame.2.getLast? = some 'd' ∨ frame.2.getLast? = some 'y') := by decide
    have hlast := getLast?_of_ignorable hignorable
    rw [List.getLast?_append_of_ne_nil _ (hend frame hframe).1] at hlast
    exact absurd hlast (hend frame hframe).2

theorem ReviewLaw.covered (hrep : representatives ⊆ available) (hlaw : ReviewLaw paths available) :
    Covered paths available := by
  rcases selectionForPaths_cases available paths with
    ⟨-, rfl | hall⟩ | ⟨ids, hselection, hnodup, hsub, hbroad, hids⟩
  · exact .inl fun path hpath => absurd hpath (by simp)
  · exact .inr (.inl hall)
  · by_cases hmisplaced : ∀ path ∈ paths, ¬ Misplaced available path
    · exact .inl hmisplaced
    · -- a misplaced file is unknown, and the law asks for all problems
      refine .inr (.inr fun pid hpid => ?_)
      simp only [not_forall, not_not] at hmisplaced
      obtain ⟨path, hpath, name, -, hfile, hnot⟩ := hmisplaced
      have hunknown : ∀ other ∈ available, ¬ IsProblemFile path other := by
        intro other _ hother
        have hsame := hother.problemFile_of_not_broad (hbroad path hpath)
        rw [hfile] at hsame
        obtain rfl := Option.some.inj hsame
        exact hnot hother
      exact (reviewed_selection_iff hselection hnodup hsub hrep hids).1
        (hlaw.unknown ⟨path, hpath, hunknown, not_ignorable_of_problemFile hfile⟩ pid hpid)

theorem ReviewLaw.of_covered (havailable : available.Nodup) (hrep : representatives ⊆ available)
    (hcovered : Covered paths available) : ReviewLaw paths available := by
  have hfull : ∀ pid ∈ available,
      ∃! shard, shard.1 < fullReviewShards ∧ OpenedBy available pid shard :=
    fun pid hpid => full_review havailable hpid
  rcases selectionForPaths_cases available paths with
    ⟨hselection, -⟩ | ⟨ids, hselection, hnodup, hsub, hbroad, hids⟩
  · -- all problems are opened
    have hreviewed : ∀ pid ∈ available,
        Reviewed available (selectionForPaths paths available) pid := by
      intro pid hpid
      rw [hselection]
      exact reviewed_all havailable hpid
    refine ⟨?_, fun pid hpid _ => hreviewed pid hpid, fun _ => hreviewed,
      fun pid hpid => hreviewed pid (hrep hpid), hfull, fun n hn ids => shards_partition hn ids⟩
    rw [hselection]
    exact ⟨_, if_pos rfl⟩
  · have hreviewed := fun pid =>
      @reviewed_selection_iff _ _ _ pid hselection hnodup hsub hrep hids
    refine ⟨?_, ?_, ?_, fun pid hpid => (hreviewed pid).2 (.inl (.inl hpid)), hfull,
      fun n hn ids => shards_partition hn ids⟩
    · rw [hselection]
      exact ⟨_, selectProblemIds_dumps hnodup hsub hrep⟩
    · rintro pid - ⟨path, hpath, hfile⟩
      exact (hreviewed pid).2 (.inr ⟨path, hpath,
        hfile.problemFile_of_not_broad (hbroad path hpath)⟩)
    · rintro ⟨path, hpath, hunknown, hignorable⟩ pid hpid
      rcases hcovered with hmisplaced | ⟨other, hother, hall⟩ | hcovered
      · -- a path that is no file of a problem and not ignorable is misplaced or broad
        have hnot := hbroad path hpath
        cases hfile : problemFile path with
        | none =>
          rw [Broad, hfile] at hnot
          exact absurd hignorable hnot
        | some name =>
          rw [Broad, hfile] at hnot
          have hname := not_not.1 hnot
          exact absurd ⟨name, hname, hfile, hunknown name hname⟩ (hmisplaced path hpath)
      · exact absurd hall (hbroad other hother)
      · exact (hreviewed pid).2 (hcovered pid hpid)

/-- No changed problem is left out exactly for these paths. -/
theorem review_law_iff (havailable : available.Nodup) (hrep : representatives ⊆ available) :
    ReviewLaw paths available ↔ Covered paths available :=
  ⟨fun hlaw => hlaw.covered hrep, ReviewLaw.of_covered havailable hrep⟩

end Law

/-- The representatives, and two other problems. -/
def fourProblems : List Text :=
  representatives ++ ["STANDARD-00000065".toList, "IMAGE-00000001".toList]

theorem review_law_iff_yaml :
    ReviewLaw ["problems/v3/STANDARD-00000065.yaml".toList] fourProblems := by
  refine (review_law_iff (by decide) (List.subset_append_left _ _)).2 (.inl fun path hpath => ?_)
  rw [List.mem_singleton.1 hpath]
  rintro ⟨pid, -, hfile, hnot⟩
  obtain ⟨-, frame, hframe, heq⟩ := problemFile_eq_some_iff.1 hfile
  have hyaml : ("problems/v3/".toList, ".yaml".toList) ∈ problemFrames := by decide
  have hsame := @frame_unique _ frame hyaml hframe "STANDARD-00000065".toList pid heq
  rw [← hsame.2] at hnot
  exact hnot (.inl rfl)

/-- An image in the directory of the YAML files selects the problem of its name only. -/
theorem misplaced_image_narrows : ¬ ∀ paths available : List Text, available.Nodup →
    representatives ⊆ available → ReviewLaw paths available := by
  intro hall
  have hlaw := hall ["problems/v3/STANDARD-00000065.jpg".toList] fourProblems (by decide)
    (List.subset_append_left _ _)
  have hfile : problemFile "problems/v3/STANDARD-00000065.jpg".toList =
      some "STANDARD-00000065".toList := by decide +kernel
  rcases hlaw.covered (List.subset_append_left _ _) with hmisplaced | ⟨path, hpath, hbroad⟩ | hcovered
  · exact hmisplaced _ List.mem_cons_self ⟨_, by decide, hfile, by decide⟩
  · rw [List.mem_singleton.1 hpath, Broad, hfile] at hbroad
    exact hbroad (by decide)
  · rcases hcovered "IMAGE-00000001".toList (by decide) with
      (hrepresentative | hfirst) | ⟨path, hpath, hother⟩
    · exact absurd hrepresentative (by decide)
    · have hnone : fourProblems.filter isRegex = [] := by decide
      have hfirst : (sorted (fourProblems.filter isRegex)).head? =
          some "IMAGE-00000001".toList := hfirst
      rw [hnone, sorted, List.mergeSort_nil] at hfirst
      cases hfirst
    · rw [List.mem_singleton.1 hpath, hfile] at hother
      exact absurd (Option.some.inj hother) (by decide)

end ProblemReview
