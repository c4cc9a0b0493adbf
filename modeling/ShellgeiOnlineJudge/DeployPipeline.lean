/-
The runs of the deployment, and what production runs meanwhile (.github/workflows/deploy.yaml,
ci/deploy.py, deploy/production.py).

One run is active at a time.  Around its attempt main gets commits, runs are asked to run
again or are cancelled while they wait, and updates that earlier attempts have launched take
effect or are given up on the host, also after their attempt has lost the connection.

* `skipped_when_unchanged` — where an attempt skips the deployment, the commit differs from
  the one in production by documentation at most, when the update to that one was recorded
  and its run was never asked to run again;
* `served_newest` — then no newer run than the one in production has a record either.
-/
import ShellgeiOnlineJudge.DeployGate

namespace DeployPipeline

open Utf8 (Text)
open DeployGate

/-- How far a run has come. -/
inductive Phase
  | queued
  | running
  | completed
  deriving DecidableEq

/-- A run of `deploy.yaml` -/
structure RunState where
  id : ℕ
  sha : Text
  /-- how often it was asked to run again -/
  again : ℕ
  phase : Phase
  /-- The step "Record completed production update" of an attempt has succeeded. -/
  recorded : Bool
  deriving DecidableEq

/-- GitHub and the production host. -/
structure World where
  /-- the newest one first -/
  runs : List RunState
  /-- the runs whose updates were launched, as long as the units have not ended -/
  outstanding : List ℕ
  /-- the run whose update has written `current.json` -/
  production : Option ℕ
  /-- what the last `cat` of `current.json` has read -/
  read : Option Text

namespace World

variable (w : World)

/-- Nothing was pushed. -/
def empty : World := ⟨[], [], none, none⟩

/-- Change the run of an ID. -/
def modify (id : ℕ) (f : RunState → RunState) : World :=
  { w with runs := w.runs.map fun r => if r.id = id then f r else r }

/-- The head of main -/
def head : Option Text := w.runs.head?.map (·.sha)

/-- The commit of a run. -/
def shaOf (id : ℕ) : Option Text := (w.runs.find? fun r => r.id = id).map (·.sha)

/-- Whether the record step of a run has succeeded. -/
def isRecorded (id : ℕ) : Bool := w.runs.any fun r => r.id = id && r.recorded

/-- It was never asked to run again. -/
def isFirst (id : ℕ) : Bool := w.runs.all fun r => r.id != id || r.again = 0

/-- The last 30 completed runs -/
def listed : List (ℕ × Text) :=
  ((w.runs.filter fun r => r.phase = .completed).take 30).map fun r => (r.id, r.sha)

/-- Production runs this commit, by the update of this run, which is recorded; the run was
never asked to run again. -/
def Served (id : ℕ) (sha : Text) : Prop :=
  w.production = some id ∧
    ∃ r ∈ w.runs, r.id = id ∧ r.sha = sha ∧ r.recorded = true ∧ r.again = 0

/-- The record step of the run has succeeded. -/
def Recorded (id : ℕ) : Prop := ∃ r ∈ w.runs, r.id = id ∧ r.recorded = true

end World

/-- A completed run waits again. -/
def RunState.ask (r : RunState) : RunState :=
  if r.phase = .completed then { r with again := r.again + 1, phase := .queued } else r

/-- A run that waits is cancelled: a newer one waits. -/
def RunState.cancel (r : RunState) : RunState :=
  if r.phase = .queued then { r with phase := .completed } else r

/-- The run begins an attempt. -/
def RunState.start (r : RunState) : RunState := { r with phase := .running }

/-- The attempt is over. -/
def RunState.complete (r : RunState) : RunState := { r with phase := .completed }

/-- The record step of the attempt has succeeded. -/
def RunState.record (r : RunState) : RunState := { r with recorded := true }

/-! ### The surroundings of an attempt -/

/-- What may happen beside the attempt that is made, before any of its steps. -/
inductive Surroundings (w : World) : World → Prop
  /-- main gets a new commit. -/
  | push {id : ℕ} {sha : Text} (hid : ∀ r ∈ w.runs, r.id < id) (hsha : ∀ r ∈ w.runs, r.sha ≠ sha) :
      Surroundings w { w with runs := ⟨id, sha, 0, .queued, false⟩ :: w.runs }
  | ask (id : ℕ) : Surroundings w (w.modify id RunState.ask)
  | cancel (id : ℕ) : Surroundings w (w.modify id RunState.cancel)
  /-- The unit of an update has written `current.json` and ends. -/
  | update {id : ℕ} (h : id ∈ w.outstanding) :
      Surroundings w { w with production := some id, outstanding := w.outstanding.erase id }
  /-- The unit of an update ends without it: superseded, or failed. -/
  | giveUp (id : ℕ) : Surroundings w { w with outstanding := w.outstanding.erase id }

/-! ### The actions of an attempt -/

section

variable (tree : Text → List (Text × Text))

/-- The paths at which the trees of two commits differ -/
def differing (base head : Text) : List Text :=
  ((tree base).map Prod.fst ++ (tree head).map Prod.fst).filter fun path =>
    (tree base).lookup path != (tree head).lookup path

/-- What an action of the attempt of the run `a` does, and which answers it may get.  The
answers about main, the runs of the deployment, the differences between commits and
production are true when they are given; any call may fail. -/
def sem (a : ℕ) (action : Action) (w : World) (reply : Reply action) : Option World :=
  match action, reply with
  | .mainHead _, .ok head => if w.head = some head then some w else none
  | .deployRuns repo, .ok runs =>
    if runs.all (isDeployRun repo) && (runs.map fun run => (run.id, run.headSha)).isPerm w.listed
    then some w else none
  | .jobs _ id true, .ok jobs => if confirms jobs = w.isRecorded id then some w else none
  | .gitDiff base head, .ok stdout =>
    if (differing tree base head).all (splitPaths stdout).contains &&
      (splitPaths stdout).all (differing tree base head).contains then some w else none
  -- also when the connection is lost
  | .run .update _, _ => some { w with outstanding := a :: w.outstanding }
  -- The units of several attempts of one run are not told apart.
  | .awaitUpdate, .ok _ => if w.outstanding.contains a && w.isFirst a then none else some w
  | .run .catCurrent _, .ok _ => some { w with read := w.production.bind w.shaOf }
  | .parseCurrent, .ok commit => if commit = w.read then some w else none
  | .record, .ok _ => some (w.modify a RunState.record)
  | _, _ => some w

end

/-! ### The system -/

/-- The world, and the program that the active attempt still has to run. -/
structure State where
  world : World
  /-- the attempt that is made: its run, and what is left of it -/
  attempt : Option (ℕ × M Unit)

/-- No run, no attempt. -/
def State.initial : State := ⟨.empty, none⟩

/-- The surroundings move, an attempt begins, does its next action, or is over; it may be killed
in each state. -/
inductive Step (tree : Text → List (Text × Text)) : State → State → Prop
  | surroundings {w w' : World} {attempt : Option (ℕ × M Unit)} (h : Surroundings w w') :
      Step tree ⟨w, attempt⟩ ⟨w', attempt⟩
  /-- A run begins when no other one is active. -/
  | begin {w : World} {r : RunState} {environ : Text → Option Text} (tables : CharTables)
      (fuel : ℕ) (reports : Text) (hr : r ∈ w.runs) (hqueued : r.phase = .queued)
      (hfree : ∀ other ∈ w.runs, other.phase ≠ .running)
      (hsha : environ "GITHUB_SHA".toList = some r.sha) :
      Step tree ⟨w, none⟩
        ⟨w.modify r.id RunState.start, some (r.id, attempt tables environ fuel reports)⟩
  /-- Only the job `deploy` runs again, with what the gate wrote in an earlier attempt. -/
  | beginDeploy {w : World} {r : RunState} {environ : Text → Option Text} (tables : CharTables)
      (reports : Text) (runId : ℕ) (hr : r ∈ w.runs) (hqueued : r.phase = .queued)
      (hagain : r.again ≠ 0) (hfree : ∀ other ∈ w.runs, other.phase ≠ .running)
      (hsha : environ "GITHUB_SHA".toList = some r.sha) :
      Step tree ⟨w, none⟩
        ⟨w.modify r.id RunState.start, some (r.id, deployJob tables environ reports runId)⟩
  | act {w w' : World} {a : ℕ} {action : Action} {k : Reply action → M Unit}
      {reply : Reply action} (h : sem tree a action w reply = some w') :
      Step tree ⟨w, some (a, .act action k)⟩ ⟨w', some (a, k reply)⟩
  /-- The attempt has ended, or is cancelled, or its runner is lost. -/
  | ends {w : World} {a : ℕ} {rest : M Unit} :
      Step tree ⟨w, some (a, rest)⟩ ⟨w.modify a RunState.complete, none⟩

/-- Some steps lead there from the beginning. -/
def Reachable (tree : Text → List (Text × Text)) (x : State) : Prop :=
  Relation.ReflTransGen (Step tree) .initial x

/-! ### What the runs keep -/

/-- What holds of the runs and their records in each reachable state. -/
structure Consistent (w : World) : Prop where
  ids : (w.runs.map (·.id)).Pairwise (· > ·)
  shas : (w.runs.map (·.sha)).Nodup
  single : ∀ r ∈ w.runs, ∀ r' ∈ w.runs, r.phase = .running → r'.phase = .running → r.id = r'.id
  /-- A run that waits for its first attempt has no record. -/
  waiting : ∀ r ∈ w.runs, r.phase = .queued → r.again = 0 → r.recorded = false
  /-- A run with one attempt has no record before its update is over. -/
  pending : ∀ r ∈ w.runs, r.id ∈ w.outstanding → r.again = 0 → r.recorded = false
  newest : ∀ id sha, w.Served id sha → ∀ other, w.Recorded other → other ≤ id

/-- The surroundings add no record, and bring no recorded update into production. -/
structure Shrinks (w w' : World) : Prop where
  served : ∀ id sha, w'.Served id sha → w.Served id sha
  recorded : ∀ id, w'.Recorded id → w.Recorded id

section

variable {w w' : World}

theorem mem_modify {id : ℕ} {f : RunState → RunState} {r : RunState}
    (h : r ∈ (w.modify id f).runs) :
    ∃ before ∈ w.runs, r = if before.id = id then f before else before := by
  obtain ⟨before, hmem, heq⟩ := List.mem_map.1 h
  exact ⟨before, hmem, heq.symm⟩

theorem mem_modify_of_mem {id : ℕ} {f : RunState → RunState} {r : RunState} (h : r ∈ w.runs) :
    (if r.id = id then f r else r) ∈ (w.modify id f).runs :=
  List.mem_map.2 ⟨r, h, rfl⟩

/-- What every step leaves of a run: its name, its commit and its record; it is not asked
less often, and does not wait for its first attempt again. -/
structure Follows (r r' : RunState) : Prop where
  id : r'.id = r.id
  sha : r'.sha = r.sha
  recorded : r'.recorded = r.recorded
  again : r'.again = 0 → r.again = 0
  waiting : r'.phase = .queued → r'.again = 0 → r.phase = .queued

theorem Follows.refl (r : RunState) : Follows r r :=
  ⟨rfl, rfl, rfl, fun h => h, fun h _ => h⟩

theorem follows_ask (r : RunState) : Follows r r.ask := by
  rw [RunState.ask]
  split
  · refine ⟨rfl, rfl, rfl, ?_, ?_⟩
    · intro h
      simp at h
    · intro _ h
      simp at h
  · exact .refl r

theorem follows_cancel (r : RunState) : Follows r r.cancel := by
  rw [RunState.cancel]
  split
  · exact ⟨rfl, rfl, rfl, fun h => h, fun h => nomatch h⟩
  · exact .refl r

theorem follows_start (r : RunState) : Follows r r.start :=
  ⟨rfl, rfl, rfl, fun h => h, fun h => nomatch h⟩

theorem follows_complete (r : RunState) : Follows r r.complete :=
  ⟨rfl, rfl, rfl, fun h => h, fun h => nomatch h⟩

theorem map_modify {α : Type} (g : RunState → α) {id : ℕ} {f : RunState → RunState}
    (h : ∀ r, g (f r) = g r) : (w.modify id f).runs.map g = w.runs.map g := by
  rw [World.modify, List.map_map]
  apply List.map_congr_left
  intro r _
  rw [Function.comp_apply]
  split
  · exact h r
  · rfl

/-- Every run of `w'` follows one of `w`. -/
theorem exists_follows {id : ℕ} {f : RunState → RunState} (hf : ∀ r, Follows r (f r))
    {r : RunState} (h : r ∈ (w.modify id f).runs) : ∃ before ∈ w.runs, Follows before r := by
  obtain ⟨before, hmem, rfl⟩ := mem_modify h
  refine ⟨before, hmem, ?_⟩
  split
  · exact hf before
  · exact .refl before

theorem shrinks_of_follows (hproduction : w'.production = w.production)
    (h : ∀ r ∈ w'.runs, r.recorded = true → ∃ before ∈ w.runs, Follows before r) :
    Shrinks w w' := by
  constructor
  · rintro id sha ⟨hid, r, hr, rfl, rfl, hrecorded, hagain⟩
    obtain ⟨before, hmem, hfollows⟩ := h r hr hrecorded
    refine ⟨by rw [← hproduction, hid], before, hmem, hfollows.id.symm, hfollows.sha.symm, ?_,
      hfollows.again hagain⟩
    rw [← hfollows.recorded, hrecorded]
  · rintro id ⟨r, hr, rfl, hrecorded⟩
    obtain ⟨before, hmem, hfollows⟩ := h r hr hrecorded
    refine ⟨before, hmem, hfollows.id.symm, ?_⟩
    rw [← hfollows.recorded, hrecorded]

theorem shrinks_modify {id : ℕ} {f : RunState → RunState} (hf : ∀ r, Follows r (f r)) :
    Shrinks w (w.modify id f) :=
  shrinks_of_follows rfl fun _ hr _ => exists_follows hf hr

/-- The surroundings record nothing. -/
theorem Surroundings.exists_follows (h : Surroundings w w') {r : RunState} (hr : r ∈ w'.runs)
    (hrecorded : r.recorded = true) : ∃ before ∈ w.runs, Follows before r := by
  cases h with
  | push hid hsha =>
    rcases List.mem_cons.1 hr with rfl | hr
    · cases hrecorded
    · exact ⟨r, hr, .refl r⟩
  | ask id => exact DeployPipeline.exists_follows follows_ask hr
  | cancel id => exact DeployPipeline.exists_follows follows_cancel hr
  | update h => exact ⟨r, hr, .refl r⟩
  | giveUp id => exact ⟨r, hr, .refl r⟩

theorem Surroundings.shrinks (hw : Consistent w) (h : Surroundings w w') : Shrinks w w' := by
  have hfollows : ∀ r ∈ w'.runs, r.recorded = true → ∃ before ∈ w.runs, Follows before r :=
    fun r hr hrecorded => h.exists_follows hr hrecorded
  cases h with
  | @update id h =>
    refine ⟨?_, fun _ hrecorded => hrecorded⟩
    -- a run whose update is outstanding has no record
    rintro id' sha ⟨hid, r, hr, rfl, -, hrecorded, hagain⟩
    have heq : id = r.id := Option.some.inj hid
    have hnot := hw.pending r hr (heq ▸ h) hagain
    rw [hrecorded] at hnot
    cases hnot
  | _ => exact shrinks_of_follows rfl hfollows

theorem Consistent.modify {id : ℕ} {f : RunState → RunState} (hw : Consistent w)
    (hf : ∀ r, Follows r (f r))
    (hsingle : ∀ r ∈ (w.modify id f).runs, ∀ r' ∈ (w.modify id f).runs, r.phase = .running →
      r'.phase = .running → r.id = r'.id) : Consistent (w.modify id f) := by
  have hshrinks : Shrinks w (w.modify id f) := shrinks_modify hf
  refine ⟨?_, ?_, hsingle, ?_, ?_, ?_⟩
  · rw [map_modify _ fun r => (hf r).id]
    exact hw.ids
  · rw [map_modify _ fun r => (hf r).sha]
    exact hw.shas
  · intro r hr hqueued hagain
    obtain ⟨before, hmem, hfollows⟩ := exists_follows hf hr
    rw [hfollows.recorded]
    exact hw.waiting before hmem (hfollows.waiting hqueued hagain) (hfollows.again hagain)
  · intro r hr hpending hagain
    obtain ⟨before, hmem, hfollows⟩ := exists_follows hf hr
    rw [hfollows.recorded]
    exact hw.pending before hmem (hfollows.id ▸ hpending) (hfollows.again hagain)
  · intro id sha hserved other hother
    exact hw.newest id sha (hshrinks.served id sha hserved) other (hshrinks.recorded other hother)

/-- No step of the surroundings starts a run. -/
theorem running_ask {r : RunState} (h : r.ask.phase = .running) : r.phase = .running := by
  rw [RunState.ask] at h
  split at h
  · cases h
  · exact h

theorem running_cancel {r : RunState} (h : r.cancel.phase = .running) : r.phase = .running := by
  rw [RunState.cancel] at h
  split at h
  · cases h
  · exact h

theorem running_modify {id : ℕ} {f : RunState → RunState} (hf : ∀ r, Follows r (f r))
    (hrunning : ∀ r : RunState, (f r).phase = .running → r.phase = .running) {r : RunState}
    (hr : r ∈ (w.modify id f).runs) (hphase : r.phase = .running) :
    ∃ before ∈ w.runs, before.id = r.id ∧ before.phase = .running := by
  obtain ⟨before, hmem, rfl⟩ := mem_modify hr
  refine ⟨before, hmem, ?_⟩
  split at hphase
  · next hid =>
    rw [if_pos hid]
    exact ⟨(hf before).id.symm, hrunning before hphase⟩
  · next hid =>
    rw [if_neg hid]
    exact ⟨rfl, hphase⟩

theorem single_modify {id : ℕ} {f : RunState → RunState} (hw : Consistent w)
    (hf : ∀ r, Follows r (f r)) (hrunning : ∀ r : RunState, (f r).phase = .running →
      r.phase = .running) :
    ∀ r ∈ (w.modify id f).runs, ∀ r' ∈ (w.modify id f).runs, r.phase = .running →
      r'.phase = .running → r.id = r'.id := by
  intro r hr r' hr' hphase hphase'
  obtain ⟨before, hmem, hid, hbefore⟩ := running_modify hf hrunning hr hphase
  obtain ⟨before', hmem', hid', hbefore'⟩ := running_modify hf hrunning hr' hphase'
  rw [← hid, ← hid']
  exact hw.single before hmem before' hmem' hbefore hbefore'

theorem Surroundings.of_running (h : Surroundings w w') {r : RunState} (hr : r ∈ w'.runs)
    (hphase : r.phase = .running) : ∃ before ∈ w.runs, before.phase = .running := by
  cases h with
  | push hid hsha =>
    rcases List.mem_cons.1 hr with rfl | hr
    · cases hphase
    · exact ⟨r, hr, hphase⟩
  | ask id =>
    obtain ⟨before, hmem, -, hbefore⟩ := running_modify follows_ask (fun _ => running_ask) hr hphase
    exact ⟨before, hmem, hbefore⟩
  | cancel id =>
    obtain ⟨before, hmem, -, hbefore⟩ :=
      running_modify follows_cancel (fun _ => running_cancel) hr hphase
    exact ⟨before, hmem, hbefore⟩
  | update h => exact ⟨r, hr, hphase⟩
  | giveUp id => exact ⟨r, hr, hphase⟩

theorem Surroundings.consistent (hw : Consistent w) (h : Surroundings w w') : Consistent w' := by
  have hshrinks : Shrinks w w' := h.shrinks hw
  -- the records only shrink, so the newest one stays the newest
  have hnewest : ∀ id sha, w'.Served id sha → ∀ other, w'.Recorded other → other ≤ id := by
    intro id sha hserved other hother
    exact hw.newest id sha (hshrinks.served id sha hserved) other (hshrinks.recorded other hother)
  cases h with
  | @push id sha hid hsha =>
    -- the new run is queued and has no record
    refine ⟨?_, ?_, ?_, ?_, ?_, hnewest⟩
    · refine List.pairwise_cons.2 ⟨?_, hw.ids⟩
      intro other hother
      obtain ⟨r, hr, rfl⟩ := List.mem_map.1 hother
      exact hid r hr
    · refine List.nodup_cons.2 ⟨?_, hw.shas⟩
      intro hmem
      obtain ⟨r, hr, heq⟩ := List.mem_map.1 hmem
      exact hsha r hr heq
    · intro r hr r' hr' hphase hphase'
      rcases List.mem_cons.1 hr with rfl | hr
      · cases hphase
      · rcases List.mem_cons.1 hr' with rfl | hr'
        · cases hphase'
        · exact hw.single r hr r' hr' hphase hphase'
    · intro r hr hphase hagain
      rcases List.mem_cons.1 hr with rfl | hr
      · rfl
      · exact hw.waiting r hr hphase hagain
    · intro r hr hpending hagain
      rcases List.mem_cons.1 hr with rfl | hr
      · rfl
      · exact hw.pending r hr hpending hagain
  | ask id => exact hw.modify follows_ask (single_modify hw follows_ask fun _ => running_ask)
  | cancel id =>
    exact hw.modify follows_cancel (single_modify hw follows_cancel fun _ => running_cancel)
  | update h =>
    refine ⟨hw.ids, hw.shas, hw.single, hw.waiting, ?_, hnewest⟩
    exact fun r hr hpending => hw.pending r hr (List.mem_of_mem_erase hpending)
  | giveUp id =>
    refine ⟨hw.ids, hw.shas, hw.single, hw.waiting, ?_, hnewest⟩
    exact fun r hr hpending => hw.pending r hr (List.mem_of_mem_erase hpending)

end

/-! ### What an attempt knows -/

/-- The run `a` for the commit `s` is the active one. -/
structure Held (a : ℕ) (s : Text) (w : World) : Prop where
  consistent : Consistent w
  active : ∃ r ∈ w.runs, r.id = a ∧ r.sha = s ∧ r.phase = .running

/-- Its first attempt has not recorded an update yet. -/
def Fresh (a : ℕ) (w : World) : Prop :=
  ∀ r ∈ w.runs, r.id = a → r.again = 0 → r.recorded = false

/-- No newer run has a record. -/
def Newest (a : ℕ) (w : World) : Prop := ∀ id, w.Recorded id → id ≤ a

/-- The unit of the first attempt has ended. -/
def Ended (a : ℕ) (w : World) : Prop := a ∈ w.outstanding → w.isFirst a = false

/-- Production runs the update of `a`, or one that is not recorded. -/
def Confirmed (a : ℕ) (w : World) : Prop :=
  w.production = some a ∨ ∀ id sha, ¬ w.Served id sha

/-- The listed runs tell which update production runs. -/
def Tells (runs : List Run) (w : World) : Prop :=
  ∀ id sha, w.Served id sha → ∀ run ∈ runs, w.Recorded run.id →
    run.id ≤ id ∧ (∃ other ∈ runs, other.id = id) ∧
      ∀ other ∈ runs, other.id = id → other.headSha = sha

/-- Production runs this commit. -/
def IsBase (base : Text) (w : World) : Prop := ∀ id sha, w.Served id sha → base = sha

section

variable (tree : Text → List (Text × Text)) (s : Text)

/-- The paths are all those at which the commit differs from the one in production. -/
def IsDiff (paths : List Text) (w : World) : Prop :=
  ∀ id sha, w.Served id sha → ∀ path, (tree sha).lookup path ≠ (tree s).lookup path → path ∈ paths

/-- The commit differs from the one in production by documentation at most. -/
def Unchanged (w : World) : Prop :=
  ∀ id sha, w.Served id sha → ∀ path, (tree sha).lookup path ≠ (tree s).lookup path →
    isDocumentation path = true

end

section

variable {a : ℕ} {s : Text} {w w' : World}

theorem Surroundings.mem_of_running (h : Surroundings w w') {r : RunState} (hr : r ∈ w.runs)
    (hrunning : r.phase = .running) : r ∈ w'.runs := by
  cases h with
  | push hid hsha => exact List.mem_cons_of_mem _ hr
  | ask id =>
    have hask : r.ask = r := by
      rw [RunState.ask, hrunning]
      rfl
    have hmem : (if r.id = id then r.ask else r) ∈ (w.modify id RunState.ask).runs :=
      mem_modify_of_mem hr
    rwa [hask, ite_self] at hmem
  | cancel id =>
    have hcancel : r.cancel = r := by
      rw [RunState.cancel, hrunning]
      rfl
    have hmem : (if r.id = id then r.cancel else r) ∈ (w.modify id RunState.cancel).runs :=
      mem_modify_of_mem hr
    rwa [hcancel, ite_self] at hmem
  | update h => exact hr
  | giveUp id => exact hr

theorem Held.surroundings (hw : Held a s w) (h : Surroundings w w') : Held a s w' := by
  obtain ⟨r, hr, hid, hsha, hrunning⟩ := hw.active
  exact ⟨h.consistent hw.consistent, r, h.mem_of_running hr hrunning, hid, hsha, hrunning⟩

theorem Fresh.surroundings (hw : Fresh a w) (h : Surroundings w w') : Fresh a w' := by
  intro r hr hid hagain
  cases hrecorded : r.recorded with
  | false => rfl
  | true =>
    obtain ⟨before, hmem, hfollows⟩ := h.exists_follows hr hrecorded
    rw [← hrecorded, hfollows.recorded]
    exact hw before hmem (by rw [← hfollows.id, hid]) (hfollows.again hagain)

theorem Newest.shrinks (hw : Newest a w) (h : Shrinks w w') : Newest a w' :=
  fun id hid => hw id (h.recorded id hid)

theorem Tells.shrinks {runs : List Run} (hw : Tells runs w) (h : Shrinks w w') : Tells runs w' :=
  fun id sha hserved run hrun hrecorded =>
    hw id sha (h.served id sha hserved) run hrun (h.recorded _ hrecorded)

theorem IsBase.shrinks {base : Text} (hw : IsBase base w) (h : Shrinks w w') : IsBase base w' :=
  fun id sha hserved => hw id sha (h.served id sha hserved)

theorem IsDiff.shrinks {tree : Text → List (Text × Text)} {paths : List Text}
    (hw : IsDiff tree s paths w) (h : Shrinks w w') : IsDiff tree s paths w' :=
  fun id sha hserved => hw id sha (h.served id sha hserved)

theorem Unchanged.shrinks {tree : Text → List (Text × Text)} (hw : Unchanged tree s w)
    (h : Shrinks w w') : Unchanged tree s w' :=
  fun id sha hserved => hw id sha (h.served id sha hserved)

theorem Ended.surroundings (hw : Ended a w) (h : Surroundings w w') : Ended a w' := by
  -- a run that was made again stays so
  have hask : ∀ {f : RunState → RunState} {id : ℕ}, (∀ r, Follows r (f r)) →
      Ended a (w.modify id f) := by
    intro f id hf hmem
    obtain ⟨r, hr, hcond⟩ := List.all_eq_false.1 (hw hmem)
    have hbefore : r.id = a ∧ r.again ≠ 0 := by simpa using hcond
    have hfollows : Follows r (if r.id = id then f r else r) := by
      split
      · exact hf r
      · exact .refl r
    have hafter : (if r.id = id then f r else r).id = a ∧
        (if r.id = id then f r else r).again ≠ 0 :=
      ⟨hfollows.id.trans hbefore.1, fun h => hbefore.2 (hfollows.again h)⟩
    exact List.all_eq_false.2 ⟨_, mem_modify_of_mem hr, by simp only [hafter]; simp⟩
  cases h with
  | push hid hsha =>
    intro hmem
    obtain ⟨r, hr, hcond⟩ := List.all_eq_false.1 (hw hmem)
    exact List.all_eq_false.2 ⟨r, List.mem_cons_of_mem _ hr, hcond⟩
  | ask id => exact hask follows_ask
  | cancel id => exact hask follows_cancel
  | update h => exact fun hmem => hw (List.mem_of_mem_erase hmem)
  | giveUp id => exact fun hmem => hw (List.mem_of_mem_erase hmem)

theorem Confirmed.surroundings (hheld : Held a s w) (hw : Confirmed a w)
    (h : Surroundings w w') : Confirmed a w' := by
  have hshrinks := h.shrinks hheld.consistent
  have hnone : (∀ id sha, ¬ w.Served id sha) → Confirmed a w' :=
    fun hnot => .inr fun id sha hserved => hnot id sha (hshrinks.served id sha hserved)
  rcases hw with hproduction | hnot
  · cases h with
    | @update id h =>
      -- this update is not recorded
      by_cases hid : id = a
      · exact .inl (congrArg some hid)
      · refine .inr fun id' sha hserved => ?_
        have hid' : id' = a := by
          have hbefore := (hshrinks.served id' sha hserved).1
          rw [hproduction] at hbefore
          exact (Option.some.inj hbefore).symm
        exact hid ((Option.some.inj hserved.1).trans hid')
    | _ => exact .inl hproduction
  · exact hnone hnot

end

/-! ### The rules for the programs of an attempt -/

section

variable (tree : Text → List (Text × Text)) (a : ℕ) (s : Text)

/-- Wherever the attempt stands: that it skips the deployment is said only then. -/
def here (action : Action) (w : World) : Prop :=
  Held a s w ∧ (action = .print docsOnlyLine → Unchanged tree s w)

/-- A part of the attempt does its work whatever the surroundings do between its actions. -/
def Stands {α : Type} (post : Except Exc α → World → Prop) (p : M α) (w : World) : Prop :=
  Prog.Withstands (sem tree a) Surroundings (here tree a s) post p w

/-- A fact that the surroundings of the attempt keep -/
structure Fact (P : World → Prop) : Prop where
  held : ∀ w, P w → Held a s w
  stable : Prog.Stable Surroundings P

/-- The fact, and `X` of the value that is returned -/
def Returns {α : Type} (P : World → Prop) (X : α → World → Prop) (r : Except Exc α) (w : World) :
    Prop :=
  P w ∧ ∀ value, r = .ok value → X value w

/-- `X` of what was found, if anything -/
def Found {α : Type} (X : α → World → Prop) (value : Option α) (w : World) : Prop :=
  ∀ x, value = some x → X x w

/-- Actions that leave the world as it is, and do not say that the deployment is skipped. -/
def isQuiet : Action → Bool
  | .run .update _ | .run .catCurrent _ | .record => false
  | .print line => line != docsOnlyLine
  | _ => true

end

section

variable {tree : Text → List (Text × Text)} {a : ℕ} {s : Text} {w w' : World} {P : World → Prop}

theorem sem_of_isQuiet {action : Action} {reply : Reply action} (hquiet : isQuiet action = true)
    (h : sem tree a action w reply = some w') : w' = w := by
  have hsome : ∀ {c : Prop} [Decidable c], (if c then some w else none) = some w' → w' = w := by
    intro c _ h
    split at h
    · exact (Option.some.inj h).symm
    · cases h
  have hnone : ∀ {c : Prop} [Decidable c], (if c then none else some w) = some w' → w' = w := by
    intro c _ h
    split at h
    · cases h
    · exact (Option.some.inj h).symm
  have hsame : some w = some w' → w' = w := fun h => (Option.some.inj h).symm
  -- a quiet action observes the world, or is refused
  cases action with
  | run c argv =>
    cases c with
    | update | catCurrent => cases hquiet
    | _ => exact hsame h
  | record => cases hquiet
  | jobs repo id all =>
    cases all with
    | false => exact hsame h
    | true =>
      cases reply with
      | error e => exact hsame h
      | ok jobs => exact hsome h
  | mainHead repo | deployRuns repo | gitDiff base head | parseCurrent =>
    cases reply with
    | error e => exact hsame h
    | ok value => exact hsome h
  | awaitUpdate =>
    cases reply with
    | error e => exact hsame h
    | ok value => exact hnone h
  | _ => exact hsame h

theorem here_of_isQuiet {action : Action} (hquiet : isQuiet action = true) (hw : Held a s w) :
    here tree a s action w := by
  refine ⟨hw, ?_⟩
  rintro rfl
  simp [isQuiet] at hquiet

theorem Fact.and {X : World → Prop} (hP : Fact a s P)
    (hX : ∀ w w', P w → Surroundings w w' → X w → X w') : Fact a s fun w => P w ∧ X w :=
  ⟨fun w h => hP.held w h.1, fun w w' h hstep => ⟨hP.stable w w' h.1 hstep, hX w w' h.1 hstep h.2⟩⟩

/-- A fact that depends on the recorded updates alone -/
theorem Fact.and_shrinks {X : World → Prop} (hP : Fact a s P)
    (hX : ∀ w w', X w → Shrinks w w' → X w') : Fact a s fun w => P w ∧ X w :=
  hP.and fun w w' hw hstep hx => hX w w' hx (hstep.shrinks (hP.held w hw).consistent)

theorem Fact.returns {α : Type} {X : α → World → Prop} (hP : Fact a s P)
    (hX : ∀ value w w', P w → Surroundings w w' → X value w → X value w') (r : Except Exc α) :
    Fact a s (Returns P X r) :=
  hP.and fun w w' hw hstep hx value hr => hX value w w' hw hstep (hx value hr)

theorem stands_done {α : Type} {X : α → World → Prop} (hP : Fact a s P)
    (hX : ∀ value w w', P w → Surroundings w w' → X value w → X value w') {r : Except Exc α}
    (hw : P w) (hr : ∀ value, r = .ok value → X value w) :
    Stands tree a s (Returns P X) (.done r) w :=
  Prog.withstands_done (hP.returns hX r).stable ⟨hw, hr⟩

theorem stands_pure {α : Type} {X : α → World → Prop} (hP : Fact a s P)
    (hX : ∀ value w w', P w → Surroundings w w' → X value w → X value w') {value : α}
    (hw : P w) (hx : X value w) : Stands tree a s (Returns P X) (pure value) w := by
  refine stands_done hP hX hw fun value' hvalue => ?_
  obtain rfl := Except.ok.inj hvalue
  exact hx

theorem stands_error {α : Type} {X : α → World → Prop} (hP : Fact a s P)
    (hX : ∀ value w w', P w → Surroundings w w' → X value w → X value w') {e : Exc} (hw : P w) :
    Stands tree a s (Returns P X) (.done (.error e)) w :=
  stands_done hP hX hw fun _ h => nomatch h

theorem stands_only {α : Type} {p : M α} (hP : Fact a s P)
    (hp : Prog.Only (fun action => isQuiet action = true) p) (hw : P w) :
    Stands tree a s (fun _ => P) p w := by
  refine Prog.withstands_only hp hP.stable hw fun action w hquiet hw => ?_
  refine ⟨here_of_isQuiet hquiet (hP.held w hw), fun reply w' hsem => ?_⟩
  rw [sem_of_isQuiet hquiet hsem]
  exact hw

/-- A quiet action, and the rest of the program -/
theorem stands_call_bind {α : Type} {action : Action} {f : action.Result → M α}
    {post : Except Exc α → World → Prop} (hP : Fact a s P) (hquiet : isQuiet action = true)
    (hw : P w)
    (hok : ∀ value w, P w → sem tree a action w (.ok value) = some w →
      Stands tree a s post (f value) w)
    (herror : ∀ e w, P w → Stands tree a s post (.done (.error e)) w) :
    Stands tree a s post (call action >>= f) w := by
  refine Prog.withstands_perform_bind hP.stable hw
    (fun w hw => here_of_isQuiet hquiet (hP.held w hw)) fun w reply w' hw hsem => ?_
  obtain rfl := sem_of_isQuiet hquiet hsem
  cases reply with
  | ok value => exact hok value w' hw hsem
  | error e => exact herror e w' hw

theorem stands_unwrap_bind {α β : Type} {r : Except Exc α} {f : α → M β}
    {post : Except Exc β → World → Prop}
    (hok : ∀ value, r = .ok value → Stands tree a s post (f value) w)
    (herror : ∀ e, Stands tree a s post (.done (.error e)) w) :
    Stands tree a s post (Prog.unwrap r >>= f) w := by
  cases r with
  | ok value => exact hok value rfl
  | error e => exact herror e

end

/-! ### The gate -/

/-- What an attempt knows up to its record -/
def Gate (a : ℕ) (s : Text) (w : World) : Prop := Held a s w ∧ Fresh a w

theorem fact_gate {a : ℕ} {s : Text} : Fact a s (Gate a s) :=
  ⟨fun _ h => h.1, fun _ _ h hstep => ⟨h.1.surroundings hstep, h.2.surroundings hstep⟩⟩

theorem mem_take_of_le {l : List RunState} {n : ℕ} {d u : RunState}
    (h : (l.map (·.id)).Pairwise (· > ·)) (hd : d ∈ l.take n) (hu : u ∈ l) (hle : d.id ≤ u.id) :
    u ∈ l.take n := by
  induction l generalizing n with
  | nil => cases hu
  | cons r l ih =>
    rw [List.map_cons] at h
    obtain ⟨hnewer, hrest⟩ := List.pairwise_cons.1 h
    cases n with
    | zero => cases hd
    | succ n =>
      rw [List.take_succ_cons] at hd ⊢
      rcases List.mem_cons.1 hu with rfl | hu
      · exact List.mem_cons_self
      · have hr : r.id > u.id := hnewer u.id (List.mem_map_of_mem hu)
        rcases List.mem_cons.1 hd with rfl | hd
        · omega
        · exact List.mem_cons_of_mem _ (ih hrest hd hu)

theorem stable_found {α : Type} {X : α → World → Prop} {a : ℕ} {s : Text}
    (hX : ∀ x w w', X x w → Shrinks w w' → X x w') (value : Option α) (w w' : World)
    (hw : Gate a s w) (hstep : Surroundings w w') (h : Found X value w) : Found X value w' :=
  fun x hx => hX x w w' (h x hx) (hstep.shrinks hw.1.consistent)

section

variable {w : World}

theorem Consistent.eq_of_id (hw : Consistent w) {r r' : RunState} (hr : r ∈ w.runs)
    (hr' : r' ∈ w.runs) (h : r.id = r'.id) : r = r' :=
  List.inj_on_of_nodup_map (hw.ids.imp fun h => (Nat.ne_of_lt h).symm) hr hr' h

theorem Consistent.eq_of_sha (hw : Consistent w) {r r' : RunState} (hr : r ∈ w.runs)
    (hr' : r' ∈ w.runs) (h : r.sha = r'.sha) : r = r' :=
  List.inj_on_of_nodup_map hw.shas hr hr' h

theorem isRecorded_iff {id : ℕ} : w.isRecorded id = true ↔ w.Recorded id := by
  simp [World.isRecorded, World.Recorded]

theorem mem_listed {id : ℕ} {sha : Text} : (id, sha) ∈ w.listed ↔
    ∃ r ∈ (w.runs.filter fun r => r.phase = .completed).take 30, r.id = id ∧ r.sha = sha := by
  rw [World.listed, List.mem_map]
  simp only [Prod.mk.injEq]

/-- A run in production that is recorded is completed, so it is among the listed ones or
newer than all of them. -/
theorem tells_of_listed {a : ℕ} {s : Text} {runs : List Run} (hw : Gate a s w)
    (h : (runs.map fun run => (run.id, run.headSha)).Perm w.listed) : Tells runs w := by
  obtain ⟨⟨hconsistent, r, hr, hra, -, hrunning⟩, hfresh⟩ := hw
  have hlisted : ∀ run ∈ runs, ∃ d ∈ (w.runs.filter fun r => r.phase = .completed).take 30,
      d.id = run.id ∧ d.sha = run.headSha := by
    intro run hrun
    exact mem_listed.1 (h.subset (List.mem_map.2 ⟨run, hrun, rfl⟩))
  rintro id sha hserved run hrun hrecorded
  have hle : run.id ≤ id := hconsistent.newest id sha hserved run.id hrecorded
  obtain ⟨-, u, hu, rfl, rfl, hurecorded, huagain⟩ := hserved
  -- a run with one attempt that waits or runs has no record
  have hcompleted : u.phase = .completed := by
    cases hphase : u.phase with
    | completed => rfl
    | queued =>
      have hnot := hconsistent.waiting u hu hphase huagain
      rw [hurecorded] at hnot
      cases hnot
    | running =>
      have hnot := hfresh u hu ((hconsistent.single u hu r hr hphase hrunning).trans hra) huagain
      rw [hurecorded] at hnot
      cases hnot
  refine ⟨hle, ?_, ?_⟩
  -- the listed runs are the newest completed ones
  · obtain ⟨d, hd, hdid, -⟩ := hlisted run hrun
    have hpairwise : ((w.runs.filter fun r => r.phase = .completed).map (·.id)).Pairwise (· > ·) :=
      hconsistent.ids.sublist (List.filter_sublist.map _)
    have hmem : u ∈ w.runs.filter fun r => r.phase = .completed :=
      List.mem_filter.2 ⟨hu, by simpa using hcompleted⟩
    have htake := mem_take_of_le hpairwise hd hmem (by omega)
    obtain ⟨other, hother, heq⟩ := List.mem_map.1 (h.mem_iff.2 (mem_listed.2 ⟨u, htake, rfl, rfl⟩))
    exact ⟨other, hother, congrArg Prod.fst heq⟩
  · intro other hother hid
    obtain ⟨d, hd, hdid, hdsha⟩ := hlisted other hother
    have hmem : d ∈ w.runs := (List.mem_filter.1 (List.mem_of_mem_take hd)).1
    rw [← hdsha, hconsistent.eq_of_id hmem hu (hdid.trans hid)]

theorem Tells.perm {runs runs' : List Run} (hw : Tells runs w) (h : runs'.Perm runs) :
    Tells runs' w := by
  intro id sha hserved run hrun hrecorded
  obtain ⟨hle, ⟨other, hother, hid⟩, hall⟩ := hw id sha hserved run (h.subset hrun) hrecorded
  exact ⟨hle, ⟨other, h.mem_iff.2 hother, hid⟩, fun other hother => hall other (h.subset hother)⟩

/-- A run without a record tells nothing. -/
theorem Tells.tail {run : Run} {runs : List Run} (hw : Tells (run :: runs) w)
    (h : ¬ w.Recorded run.id) : Tells runs w := by
  intro id sha hserved other hother hrecorded
  obtain ⟨hle, ⟨u, hu, hid⟩, hall⟩ :=
    hw id sha hserved other (List.mem_cons_of_mem _ hother) hrecorded
  refine ⟨hle, ⟨u, ?_, hid⟩, fun other hother => hall other (List.mem_cons_of_mem _ hother)⟩
  rcases List.mem_cons.1 hu with rfl | hu
  · obtain ⟨-, r, hr, hrid, -, hrrecorded, -⟩ := hserved
    exact absurd ⟨r, hr, hrid.trans hid.symm, hrrecorded⟩ h
  · exact hu

/-- The newest run with a record is the one in production. -/
theorem Tells.isBase {run : Run} {runs : List Run} (hw : Tells (run :: runs) w)
    (hsorted : ∀ other ∈ runs, other.id ≤ run.id) (h : w.Recorded run.id) :
    IsBase run.headSha w := by
  intro id sha hserved
  obtain ⟨hle, ⟨u, hu, hid⟩, hall⟩ := hw id sha hserved run List.mem_cons_self h
  refine hall run List.mem_cons_self ?_
  rcases List.mem_cons.1 hu with rfl | hu
  · exact hid
  · have hnewest := hsorted u hu
    omega

end

section

variable {tree : Text → List (Text × Text)} {a : ℕ} {s : Text} {w : World}

theorem stands_findDeployed {repo : Text} {runs : List Run}
    (hruns : ∀ run ∈ runs, isDeployRun repo run = true)
    (hsorted : runs.Pairwise fun run other => other.id ≤ run.id) (hw : Gate a s w)
    (htells : Tells runs w) :
    Stands tree a s (Returns (Gate a s) (Found IsBase)) (findDeployed repo runs) w := by
  have hstable := stable_found (a := a) (s := s) fun base w w' (h : IsBase base w) => h.shrinks
  induction runs generalizing w with
  | nil =>
    exact stands_pure fact_gate hstable hw fun _ h => nomatch h
  | cons run runs ih =>
    obtain ⟨hnewest, hsorted⟩ := List.pairwise_cons.1 hsorted
    rw [findDeployed, if_pos (hruns run List.mem_cons_self)]
    refine stands_call_bind (fact_gate.and_shrinks fun _ _ h => h.shrinks) rfl ⟨hw, htells⟩ ?_ ?_
    · rintro jobs w ⟨hw, htells⟩ hsem
      have hjobs : confirms jobs = w.isRecorded run.id := by
        by_contra hne
        simp [sem, hne] at hsem
      split
      · next hconfirms =>
        refine stands_pure fact_gate hstable hw fun sha hsha => ?_
        obtain rfl := Option.some.inj hsha
        exact htells.isBase hnewest (isRecorded_iff.1 (hjobs ▸ hconfirms))
      · next hconfirms =>
        refine ih (fun run hrun => hruns run (List.mem_cons_of_mem _ hrun)) hsorted hw
          (htells.tail fun hrecorded => hconfirms ?_)
        rw [hjobs]
        exact isRecorded_iff.2 hrecorded
    · exact fun e w hw => stands_error fact_gate hstable hw.1

theorem stands_deployedCommit {repo : Text} (hw : Gate a s w) :
    Stands tree a s (Returns (Gate a s) (Found IsBase)) (deployedCommit repo) w := by
  refine stands_call_bind fact_gate rfl hw ?_ ?_
  · intro runs w hw hsem
    obtain ⟨hruns, hperm⟩ : (∀ run ∈ runs, isDeployRun repo run = true) ∧
        (runs.map fun run => (run.id, run.headSha)).isPerm w.listed = true := by
      simpa [sem] using hsem
    have hsort : (sortRuns runs).Perm runs := List.perm_insertionSort _ runs
    refine stands_findDeployed ?_ ?_ hw ?_
    · exact fun run hrun => hruns run (hsort.subset hrun)
    · have htotal : Std.Total fun run other : Run => other.id ≤ run.id :=
        ⟨fun run other => Nat.le_total other.id run.id⟩
      have htrans : IsTrans Run fun run other => other.id ≤ run.id :=
        ⟨fun _ _ _ h h' => Nat.le_trans h' h⟩
      exact List.pairwise_insertionSort _ runs
    · exact (tells_of_listed hw (List.isPerm_iff.1 hperm)).perm hsort
  · exact fun e w hw => stands_error fact_gate (stable_found fun _ _ _ h => h.shrinks) hw

theorem mem_differing {base head path : Text}
    (h : (tree base).lookup path ≠ (tree head).lookup path) : path ∈ differing tree base head := by
  have hmem : ∀ {commit : Text}, (tree commit).lookup path ≠ none →
      path ∈ (tree commit).map Prod.fst := by
    intro commit hne
    obtain ⟨content, hcontent⟩ := Option.ne_none_iff_exists'.1 hne
    obtain ⟨before, after, heq, -⟩ := List.lookup_eq_some_iff.1 hcontent
    rw [heq]
    simp
  refine List.mem_filter.2 ⟨List.mem_append.2 ?_, by simpa using h⟩
  by_cases hbase : (tree base).lookup path = none
  · refine .inr (hmem fun hhead => ?_)
    exact h (hbase.trans hhead.symm)
  · exact .inl (hmem hbase)

/-- The differing paths of the commit from its base; a failure is not an error here. -/
theorem stands_changedPaths {base : Text} (hw : Gate a s w) (hbase : IsBase base w) :
    Stands tree a s (Returns (Gate a s) (Found (IsDiff tree s))) (changedPaths base s) w := by
  have hstable := stable_found (a := a) (s := s) fun paths w w' (h : IsDiff tree s paths w) =>
    h.shrinks
  have hnone : ∀ {w : World}, Gate a s w →
      Stands tree a s (Returns (Gate a s) (Found (IsDiff tree s))) (pure none) w := by
    intro w hw
    exact stands_pure fact_gate hstable hw fun _ h => nomatch h
  rw [changedPaths]
  split
  · exact hnone hw
  · have hdiff : Stands tree a s (Returns (Gate a s) (Found (IsDiff tree s))) (do
        let stdout : Text ← call (.gitDiff base s)
        pure (some (splitPaths stdout))) w := by
      refine stands_call_bind (fact_gate.and_shrinks fun _ _ h => h.shrinks) rfl ⟨hw, hbase⟩ ?_ ?_
      · rintro stdout w ⟨hw, hbase⟩ hsem
        refine stands_pure fact_gate hstable hw fun found hfound => ?_
        obtain rfl := Option.some.inj hfound
        intro id sha hserved path hpath
        rw [← hbase id sha hserved] at hpath
        -- what is printed has every path that differs
        have hall : (differing tree base s).all (splitPaths stdout).contains = true := by
          by_contra hne
          simp [sem, hne] at hsem
        simpa using List.all_eq_true.1 hall path (mem_differing hpath)
      · exact fun e w hw => stands_error fact_gate hstable hw.1
    refine hdiff.tryCatch (fun paths w hw => stands_done fact_gate hstable hw.1 hw.2) ?_
    intro e w hw
    cases e with
    | osError | timeoutError _ | subprocessError => exact hnone hw.1
    | _ => exact stands_error fact_gate hstable hw.1

theorem stable_unchanged (unchanged : Bool) (w w' : World) (hw : Gate a s w)
    (hstep : Surroundings w w') (h : unchanged = true → Unchanged tree s w) :
    unchanged = true → Unchanged tree s w' :=
  fun htrue => (h htrue).shrinks (hstep.shrinks hw.1.consistent)

/-- A change that needs no deployment is one of documentation. -/
theorem stands_deploymentUnchanged {repo : Text} (hw : Gate a s w) :
    Stands tree a s (Returns (Gate a s) fun unchanged w => unchanged = true → Unchanged tree s w)
      (deploymentUnchanged repo s) w := by
  -- an answer of false promises nothing
  have hfalse : ∀ {w : World}, Gate a s w → Stands tree a s (Returns (Gate a s)
      fun unchanged w => unchanged = true → Unchanged tree s w) (pure false) w := by
    intro w hw
    exact stands_pure fact_gate stable_unchanged hw fun h => nomatch h
  -- whatever is printed before it, as long as it is not the line of documentation
  have hprint : ∀ {w : World} {line : Text}, line ≠ docsOnlyLine → Gate a s w →
      Stands tree a s (Returns (Gate a s) fun unchanged w => unchanged = true → Unchanged tree s w)
        (do
          call (.print line)
          pure false) w := by
    intro w line hline hw
    refine stands_call_bind fact_gate (bne_iff_ne.2 hline) hw (fun _ w hw _ => hfalse hw) ?_
    exact fun e w hw => stands_error fact_gate stable_unchanged hw
  have hstable := stable_found (a := a) (s := s) fun base w w'
    (h : Found IsBase base w) (hshrinks : Shrinks w w') sha hsha => (h sha hsha).shrinks hshrinks
  have hbase : Stands tree a s (Returns (Gate a s) (Found (Found IsBase))) (do
      let base ← deployedCommit repo
      pure (some base)) w := by
    refine Prog.Withstands.bind (stands_deployedCommit hw) ?_ ?_
    · intro base w hw
      refine stands_pure fact_gate hstable hw.1 fun found hfound => ?_
      obtain rfl := Option.some.inj hfound
      exact hw.2 base rfl
    · exact fun e w hw => stands_error fact_gate hstable hw.1
  refine Prog.Withstands.tryCatch_bind hbase ?_ ?_
  · rintro base w ⟨hw, hbase⟩
    cases base with
    | none => exact hfalse hw
    | some base =>
      cases base with
      | none => exact hprint (by decide) hw
      | some base =>
        refine Prog.Withstands.bind (stands_changedPaths hw (hbase _ rfl _ rfl _ rfl)) ?_ ?_
        · rintro paths w ⟨hw, hpaths⟩
          cases paths with
          | none => exact hprint (by decide) hw
          | some paths =>
            -- every changed path is documentation, so those since the served commit are
            refine stands_pure fact_gate stable_unchanged hw fun hdocs => ?_
            intro id sha hserved path hpath
            have hall := (Bool.and_eq_true_iff.1 hdocs).2
            exact List.all_eq_true.1 hall path (hpaths _ rfl paths rfl id sha hserved path hpath)
        · exact fun e w hw => stands_error fact_gate stable_unchanged hw.1
  · rintro e w ⟨hw, -⟩
    -- an exception of the lookup is printed, and then no commit is known
    have hunknown : Stands tree a s (Returns (Gate a s)
        fun (base : Option (Option Text)) _ => base = none) (do
          call (.print "Deployed commit unavailable; treating the change as deployable.".toList)
          pure none) w := by
      have hstable : ∀ (base : Option (Option Text)) (w w' : World), Gate a s w →
          Surroundings w w' → base = none → base = none := fun _ _ _ _ _ h => h
      refine stands_call_bind fact_gate (by decide) hw ?_ fun e w hw =>
        stands_error fact_gate hstable hw
      exact fun _ w hw _ => stands_pure fact_gate hstable hw rfl
    cases e with
    | keyError | typeError | valueError _ | osError | timeoutError _ | subprocessError =>
      refine Prog.Withstands.bind hunknown ?_ fun e w hw =>
        stands_error fact_gate stable_unchanged hw.1
      rintro base w ⟨hw, hbase⟩
      obtain rfl := hbase base rfl
      exact hfalse hw
    | _ => exact stands_error fact_gate stable_unchanged hw

/-- A program that ends with an error or a value, and keeps the gate's fact -/
theorem stands_gate_done {α : Type} {r : Except Exc α} (hw : Gate a s w) :
    Stands tree a s (fun _ => Gate a s) (.done r) w :=
  Prog.withstands_done fact_gate.stable hw

theorem stands_gate_call {α : Type} {action : Action} {f : action.Result → M α}
    (hquiet : isQuiet action = true) (hw : Gate a s w)
    (hf : ∀ value w, Gate a s w → Stands tree a s (fun _ => Gate a s) (f value) w) :
    Stands tree a s (fun _ => Gate a s) (call action >>= f) w :=
  stands_call_bind fact_gate hquiet hw (fun value w hw _ => hf value w hw)
    fun _ _ hw => stands_gate_done hw

theorem stands_gate_bind {α β : Type} {p : M α} {f : α → M β}
    (hp : Stands tree a s (fun _ => Gate a s) p w)
    (hf : ∀ value w, Gate a s w → Stands tree a s (fun _ => Gate a s) (f value) w) :
    Stands tree a s (fun _ => Gate a s) (p >>= f) w :=
  Prog.Withstands.bind hp (fun value w hw => hf value w hw) fun _ _ hw => stands_gate_done hw

theorem stands_conclude {environ : Text → Option Text} {repo : Text} {runId : ℕ}
    (hw : Gate a s w) :
    Stands tree a s (fun _ => Gate a s) (conclude environ repo s runId) w := by
  refine Prog.Withstands.bind (stands_deploymentUnchanged hw) ?_ ?_
  · rintro unchanged w ⟨hw, hunchanged⟩
    cases unchanged with
    | true =>
      -- the only place that says that the deployment is skipped
      refine Prog.withstands_perform_bind
        (fact_gate.and_shrinks fun _ _ h => Unchanged.shrinks h).stable
        ⟨hw, hunchanged true rfl rfl⟩ (fun w h => ⟨h.1.1, fun _ => h.2⟩) ?_
      intro w reply w' h hsem
      obtain rfl : w = w' := Option.some.inj hsem
      cases reply with
      | ok value => exact stands_gate_done h.1
      | error e => exact stands_gate_done h.1
    | false =>
      have hbuilt : Stands tree a s (fun _ => Gate a s) (runtimeJobSucceeded repo runId) w :=
        stands_gate_call rfl hw fun _ _ hw => stands_gate_done hw
      refine stands_gate_bind hbuilt fun built w hw => ?_
      have hraise : Stands tree a s (fun _ => Gate a s) (raiseIf (!built) (.runtimeError
          "deployment requires runtime images; re-run Supply Chain CI for this commit".toList))
          w :=
        stands_only fact_gate (only_raiseIf _ _) hw
      refine stands_gate_bind hraise fun _ w hw => ?_
      refine stands_unwrap_bind (fun _ _ => ?_) fun _ => stands_gate_done hw
      exact stands_gate_call rfl hw fun _ _ hw => stands_gate_done hw
  · exact fun e w hw => stands_gate_done hw.1

theorem stands_poll {environ : Text → Option Text} {repo : Text} (hw : Gate a s w) :
    Stands tree a s (fun _ => Gate a s) (poll environ repo s) w := by
  have hlatest : Stands tree a s (fun _ => Gate a s) (latestMain repo s) w :=
    stands_gate_call rfl hw fun _ _ hw => stands_gate_done hw
  refine stands_gate_bind hlatest fun latest w hw => ?_
  split
  · exact stands_gate_call (by decide) hw fun _ _ hw => stands_gate_done hw
  · have hresults : Stands tree a s (fun _ => Gate a s) (workflowResults repo s workflows) w :=
      stands_only fact_gate (only_workflowResults (fun _ _ _ => rfl) repo s _) hw
    refine stands_gate_bind hresults fun results w hw => ?_
    split
    · cases results.getLast?.join with
      | none => exact stands_gate_done hw
      | some runId =>
        exact stands_gate_bind (stands_conclude hw) fun _ _ hw => stands_gate_done hw
    · exact stands_gate_call rfl hw fun _ _ hw => stands_gate_done hw

theorem stands_waitLoop {environ : Text → Option Text} {repo : Text} {deadline : ℚ} {n : ℕ}
    (hw : Gate a s w) :
    Stands tree a s (fun _ => Gate a s) (waitLoop environ repo s deadline n) w := by
  induction n generalizing w with
  | zero => exact stands_gate_done hw
  | succ n ih =>
    refine stands_gate_call rfl hw fun now w hw => ?_
    split
    · refine stands_gate_bind (stands_poll hw) fun outcome w hw => ?_
      cases outcome with
      | none => exact ih hw
      | some result => exact stands_gate_done hw
    · exact stands_gate_done hw

theorem context_sha {tables : CharTables} {environ : Text → Option Text} {repo sha : Text}
    (h : context tables environ = .ok (repo, sha)) : environ "GITHUB_SHA".toList = some sha := by
  have hbind : ∀ {α β : Type} {r : Except Exc α} {f : α → Except Exc β} {value : β},
      (r >>= f) = .ok value → ∃ x, r = .ok x ∧ f x = .ok value := by
    intro α β r f value h
    cases r with
    | error e => cases h
    | ok x => exact ⟨x, rfl, h⟩
  -- a check that does not raise
  have hif : ∀ {c : Prop} [Decidable c] {e : Exc} {β : Type} {f : Unit → Except Exc β} {value : β},
      (if c then throw e >>= f else f ()) = .ok value → f () = .ok value := by
    intro c _ e β f value h
    split at h
    · cases h
    · exact h
  obtain ⟨repo', -, h⟩ := hbind h
  obtain ⟨sha', hsha, h⟩ := hbind h
  obtain ⟨event, -, h⟩ := hbind h
  obtain ⟨ref, -, h⟩ := hbind (hif h)
  obtain ⟨-, rfl⟩ := Prod.mk.inj (Except.ok.inj (hif h))
  rw [getenv] at hsha
  cases hvalue : environ "GITHUB_SHA".toList with
  | none =>
    rw [hvalue] at hsha
    cases hsha
  | some value =>
    rw [hvalue] at hsha
    rw [Except.ok.inj hsha]

theorem stands_waitForCi {tables : CharTables} {environ : Text → Option Text} {fuel : ℕ}
    (hsha : environ "GITHUB_SHA".toList = some s) (hw : Gate a s w) :
    Stands tree a s (fun _ => Gate a s) (waitForCi tables environ fuel) w := by
  refine stands_unwrap_bind ?_ fun _ => stands_gate_done hw
  rintro ⟨repo, sha⟩ hcontext
  obtain rfl : s = sha := Option.some.inj (hsha.symm.trans (context_sha hcontext))
  exact stands_gate_call rfl hw fun _ _ hw => stands_waitLoop hw

end

/-! ### The update -/

/-- What the job `deploy` knows when it writes `deployed=true` -/
structure Deployed (a : ℕ) (w : World) : Prop where
  newest : Newest a w
  ended : Ended a w
  confirmed : Confirmed a w

/-- What was read is the commit only if production runs it. -/
def HasRead (a : ℕ) (s : Text) (w : World) : Prop := w.read = some s → Confirmed a w

section

variable {tree : Text → List (Text × Text)} {a : ℕ} {s : Text} {w w' : World}

theorem Surroundings.read_eq (h : Surroundings w w') : w'.read = w.read := by
  cases h with
  | _ => rfl

theorem HasRead.surroundings (hheld : Held a s w) (hw : HasRead a s w) (h : Surroundings w w') :
    HasRead a s w' := by
  intro hread
  rw [h.read_eq] at hread
  exact (hw hread).surroundings hheld h

theorem Deployed.surroundings (hheld : Held a s w) (hw : Deployed a w) (h : Surroundings w w') :
    Deployed a w' :=
  ⟨hw.newest.shrinks (h.shrinks hheld.consistent), hw.ended.surroundings h,
    hw.confirmed.surroundings hheld h⟩

theorem stable_deployed (deployed : Bool) (w w' : World) (hw : Gate a s w)
    (hstep : Surroundings w w') (h : deployed = true → Deployed a w) :
    deployed = true → Deployed a w' :=
  fun htrue => (h htrue).surroundings hw.1 hstep

/-- The head of main is the newest run's commit. -/
theorem newest_of_head (hw : Held a s w) (h : w.head = some s) : Newest a w := by
  obtain ⟨hconsistent, r, hr, rfl, rfl, -⟩ := hw
  rintro id ⟨other, hother, rfl, -⟩
  have hids := hconsistent.ids
  cases hruns : w.runs with
  | nil =>
    rw [hruns] at hr
    cases hr
  | cons first rest =>
    have hfirst : first ∈ w.runs := by
      rw [hruns]
      exact List.mem_cons_self
    -- the commit belongs to one run only, so the first run is the active one
    have hsha : first.sha = r.sha := by
      rw [World.head, hruns] at h
      exact Option.some.inj h
    obtain rfl := hconsistent.eq_of_sha hfirst hr hsha
    rw [hruns, List.map_cons] at hids
    rw [hruns] at hother
    rcases List.mem_cons.1 hother with rfl | hother
    · exact Nat.le_refl _
    · have hlt : first.id > other.id :=
        (List.pairwise_cons.1 hids).1 other.id (List.mem_map_of_mem hother)
      omega

theorem Gate.launch (hw : Gate a s w) :
    Gate a s { w with outstanding := a :: w.outstanding } := by
  refine ⟨⟨⟨hw.1.consistent.ids, hw.1.consistent.shas, hw.1.consistent.single,
    hw.1.consistent.waiting, ?_, hw.1.consistent.newest⟩, hw.1.active⟩, hw.2⟩
  intro r hr hmem hagain
  rcases List.mem_cons.1 hmem with hid | hmem
  · exact hw.2 r hr hid hagain
  · exact hw.1.consistent.pending r hr hmem hagain

theorem Gate.read (hw : Gate a s w) (read : Option Text) : Gate a s { w with read := read } :=
  ⟨⟨⟨hw.1.consistent.ids, hw.1.consistent.shas, hw.1.consistent.single,
    hw.1.consistent.waiting, hw.1.consistent.pending, hw.1.consistent.newest⟩, hw.1.active⟩, hw.2⟩

/-- `current.json` names the commit of the run that has written it. -/
theorem hasRead_cat (hw : Held a s w) :
    HasRead a s { w with read := w.production.bind w.shaOf } := by
  intro hread
  obtain ⟨id, hproduction, hsha⟩ := Option.bind_eq_some_iff.1 hread
  obtain ⟨r', hfind, hsha⟩ := Option.map_eq_some_iff.1 hsha
  obtain ⟨r, hr, rfl, rfl, -⟩ := hw.active
  obtain rfl := hw.consistent.eq_of_sha (List.mem_of_find?_eq_some hfind) hr hsha
  have hid : r'.id = id := by simpa using List.find?_some hfind
  exact .inl (hid ▸ hproduction)

theorem stands_updateHost {environ : Text → Option Text} {t : Target} {temporary : Text}
    (hw : Gate a s w) (hnewest : Newest a w) :
    Stands tree a s (Returns (Gate a s) fun deployed w => deployed = true → Deployed a w)
      (updateHost environ t s temporary) w := by
  have herror : ∀ {e : Exc} {w : World}, Gate a s w → Stands tree a s (Returns (Gate a s)
      fun deployed w => deployed = true → Deployed a w) (.done (.error e)) w :=
    fun hw => stands_error fact_gate stable_deployed hw
  have hlook : Fact a s fun w => Gate a s w ∧ Newest a w :=
    fact_gate.and_shrinks fun _ _ h => h.shrinks
  have hended : Fact a s fun w => (Gate a s w ∧ Newest a w) ∧ Ended a w :=
    hlook.and fun _ _ _ hstep h => h.surroundings hstep
  have hread : Fact a s fun w => ((Gate a s w ∧ Newest a w) ∧ Ended a w) ∧ HasRead a s w :=
    hended.and fun _ _ hw hstep h => h.surroundings hw.1.1.1 hstep
  have hdeployed : Fact a s fun w => Gate a s w ∧ Deployed a w :=
    fact_gate.and fun _ _ hw hstep h => h.surroundings hw.1 hstep
  -- the update is launched, also when the answer is an error
  refine Prog.withstands_perform_bind hlook.stable ⟨hw, hnewest⟩
    (fun w hw => ⟨hw.1.1, fun h => nomatch h⟩) fun w reply w' hw hsem => ?_
  obtain rfl : { w with outstanding := a :: w.outstanding } = w' := Option.some.inj hsem
  cases reply with
  | error e => exact herror hw.1.launch
  | ok _ =>
  refine stands_call_bind hlook rfl ⟨hw.1.launch, hw.2⟩ ?_ fun e w hw => herror hw.1
  intro _ w hw hsem
  have hend : Ended a w := by
    intro hmem
    by_contra hfirst
    simp [sem, hmem, hfirst] at hsem
  refine stands_call_bind hended rfl ⟨hw, hend⟩ ?_ fun e w hw => herror hw.1.1
  intro _ w hw _
  refine Prog.withstands_perform_bind hended.stable hw
    (fun w hw => ⟨hw.1.1.1, fun h => nomatch h⟩) fun w reply w' hw hsem => ?_
  cases reply with
  | error e =>
    obtain rfl : w = w' := Option.some.inj hsem
    exact herror hw.1.1
  | ok _ =>
  obtain rfl : { w with read := w.production.bind w.shaOf } = w' := Option.some.inj hsem
  refine stands_call_bind hread rfl
    ⟨⟨⟨hw.1.1.read _, hw.1.2⟩, hw.2⟩, hasRead_cat hw.1.1.1⟩ ?_ fun e w hw => herror hw.1.1.1
  rintro commit w ⟨⟨⟨hw, hnewest⟩, hend⟩, hread⟩ hsem
  have hcommit : commit = w.read := by
    by_contra hne
    simp [sem, hne] at hsem
  split
  · next heq =>
    have hw' : Gate a s w ∧ Deployed a w := ⟨hw, hnewest, hend, hread (hcommit ▸ heq)⟩
    refine stands_unwrap_bind (fun _ _ => ?_) fun _ => herror hw
    refine stands_call_bind hdeployed rfl hw' ?_ fun e w hw => herror hw.1
    exact fun _ w hw _ => stands_pure fact_gate stable_deployed hw.1 fun _ => hw.2
  · refine stands_call_bind fact_gate (by decide) hw ?_ fun e w hw => herror hw
    intro _ w hw _
    exact stands_pure fact_gate stable_deployed hw fun h => nomatch h

theorem only_writeSecret (tables : CharTables) (environ : Text → Option Text)
    (temporary file : Text) (name : String) :
    Prog.Only (fun action => isQuiet action = true)
      (writeSecret tables environ temporary file name) :=
  .bind (Prog.only_unwrap _) fun _ => .bind (only_raiseIf _ _) fun _ => only_call rfl

theorem stands_transferFiles {tables : CharTables} {environ : Text → Option Text} {t : Target}
    {temporary reports : Text} (hw : Gate a s w) (hnewest : Newest a w) :
    Stands tree a s (Returns (Gate a s) fun deployed w => deployed = true → Deployed a w)
      (transferFiles tables environ t s temporary reports) w := by
  have hlook : Fact a s fun w => Gate a s w ∧ Newest a w :=
    fact_gate.and_shrinks fun _ _ h => h.shrinks
  have hbind : ∀ {α : Type} {p : M α} {f : α → M Bool} {w : World},
      Prog.Only (fun action => isQuiet action = true) p → Gate a s w ∧ Newest a w →
      (∀ value w, Gate a s w ∧ Newest a w → Stands tree a s (Returns (Gate a s)
        fun deployed w => deployed = true → Deployed a w) (f value) w) →
      Stands tree a s (Returns (Gate a s) fun deployed w => deployed = true → Deployed a w)
        (p >>= f) w :=
    fun hp hw hf => Prog.Withstands.bind (stands_only hlook hp hw) (fun value w hw => hf value w hw)
      fun _ _ hw => stands_error fact_gate stable_deployed hw.1
  refine hbind (only_writeSecret _ _ _ _ _) ⟨hw, hnewest⟩ fun _ w hw => ?_
  refine hbind (only_writeSecret _ _ _ _ _) hw fun _ w hw => ?_
  refine hbind (only_call rfl) hw fun _ w hw => ?_
  refine hbind (only_call rfl) hw fun _ w hw => ?_
  refine hbind (only_call rfl) hw fun _ w hw => ?_
  exact stands_updateHost hw.1 hw.2

theorem stands_latestMain {repo : Text} (hw : Gate a s w) :
    Stands tree a s (Returns (Gate a s) fun latest w => latest = true → Newest a w)
      (latestMain repo s) w := by
  have hstable : ∀ (latest : Bool) (w w' : World), Gate a s w → Surroundings w w' →
      (latest = true → Newest a w) → latest = true → Newest a w' :=
    fun latest w w' hw hstep h htrue => (h htrue).shrinks (hstep.shrinks hw.1.consistent)
  refine stands_call_bind fact_gate rfl hw ?_ fun e w hw =>
    stands_error fact_gate hstable hw
  intro head w hw hsem
  have hhead : w.head = some head := by
    by_contra hne
    simp [sem, hne] at hsem
  refine stands_pure fact_gate hstable hw fun hlatest => ?_
  have heq : head = s := of_decide_eq_true hlatest
  exact newest_of_head hw.1 (heq ▸ hhead)

theorem stands_transfer {tables : CharTables} {environ : Text → Option Text} {reports : Text}
    (hsha : environ "GITHUB_SHA".toList = some s) (hw : Gate a s w) :
    Stands tree a s (Returns (Gate a s) fun deployed w => deployed = true → Deployed a w)
      (transfer tables environ reports) w := by
  have herror : ∀ {e : Exc} {w : World}, Gate a s w → Stands tree a s (Returns (Gate a s)
      fun deployed w => deployed = true → Deployed a w) (.done (.error e)) w :=
    fun hw => stands_error fact_gate stable_deployed hw
  have hlook : Fact a s fun w => Gate a s w ∧ Newest a w :=
    fact_gate.and_shrinks fun _ _ h => h.shrinks
  refine stands_unwrap_bind ?_ fun _ => herror hw
  rintro ⟨repo, sha⟩ hcontext
  obtain rfl : s = sha := Option.some.inj (hsha.symm.trans (context_sha hcontext))
  refine Prog.Withstands.bind (stands_latestMain hw) ?_ fun e w hw => herror hw.1
  rintro latest w ⟨hw, hnewest⟩
  cases latest with
  | false =>
    refine stands_call_bind fact_gate (by decide) hw ?_ fun e w hw => herror hw
    intro _ w hw _
    exact stands_pure fact_gate stable_deployed hw fun h => nomatch h
  | true =>
    refine stands_unwrap_bind (fun t _ => ?_) fun _ => herror hw
    refine stands_call_bind hlook rfl ⟨hw, hnewest true rfl rfl⟩ ?_ fun e w hw => herror hw.1
    intro temporary w hw _
    refine (stands_transferFiles hw.1 hw.2).handle fun r w hr => ?_
    -- the cleanup keeps what is known of the result
    have hclean : Stands tree a s (fun _ => Returns (Gate a s)
        (fun deployed w => deployed = true → Deployed a w) r) (call (.cleanup temporary)) w :=
      stands_only (fact_gate.returns stable_deployed r) (only_call rfl) hr
    refine hclean.handle fun cleaned w hr => ?_
    cases cleaned with
    | error e => exact herror hr.1
    | ok _ => exact stands_done fact_gate stable_deployed hr.1 hr.2

/-- An update that was found in production is recorded. -/
theorem held_record (hw : Gate a s w) (hdeployed : Deployed a w) :
    Held a s (w.modify a RunState.record) := by
  obtain ⟨⟨hconsistent, r, hr, hid, hsha, hrunning⟩, -⟩ := hw
  have hback : ∀ r ∈ (w.modify a RunState.record).runs, ∃ before ∈ w.runs, r.id = before.id ∧
      r.sha = before.sha ∧ r.phase = before.phase ∧ r.again = before.again ∧
      (r.id ≠ a → r = before) := by
    intro r hr
    obtain ⟨before, hmem, rfl⟩ := mem_modify hr
    refine ⟨before, hmem, ?_⟩
    split
    · next hid => exact ⟨rfl, rfl, rfl, rfl, fun hne => absurd hid hne⟩
    · exact ⟨rfl, rfl, rfl, rfl, fun _ => rfl⟩
  have hrecorded : ∀ id, id ≠ a → (w.modify a RunState.record).Recorded id → w.Recorded id := by
    rintro id hne ⟨r, hr, rfl, hrec⟩
    obtain ⟨before, hmem, -, -, -, -, heq⟩ := hback r hr
    obtain rfl := heq hne
    exact ⟨r, hmem, rfl, hrec⟩
  have hle : ∀ id, (w.modify a RunState.record).Recorded id → id ≤ a := by
    intro id hid
    by_cases heq : id = a
    · omega
    · exact hdeployed.newest id (hrecorded id heq hid)
  have hids : (w.modify a RunState.record).runs.map (·.id) = w.runs.map (·.id) :=
    map_modify _ fun _ => rfl
  have hshas : (w.modify a RunState.record).runs.map (·.sha) = w.runs.map (·.sha) :=
    map_modify _ fun _ => rfl
  refine ⟨⟨hids ▸ hconsistent.ids, hshas ▸ hconsistent.shas, ?_, ?_, ?_, ?_⟩, ?_⟩
  · intro r hr r' hr' hphase hphase'
    obtain ⟨before, hmem, hbid, -, hbphase, -⟩ := hback r hr
    obtain ⟨before', hmem', hbid', -, hbphase', -⟩ := hback r' hr'
    rw [hbid, hbid']
    exact hconsistent.single before hmem before' hmem' (hbphase ▸ hphase) (hbphase' ▸ hphase')
  · intro r' hr' hphase hagain
    obtain ⟨before, hmem, hbid, -, hbphase, hbagain, heq⟩ := hback r' hr'
    by_cases hne : r'.id = a
    · -- the run is active
      obtain rfl := hconsistent.eq_of_id hmem hr (by rw [← hbid, hne, hid])
      rw [hbphase, hrunning] at hphase
      cases hphase
    · obtain rfl := heq hne
      exact hconsistent.waiting r' hmem hphase hagain
  · intro r' hr' hpending hagain
    obtain ⟨before, hmem, hbid, -, -, hbagain, heq⟩ := hback r' hr'
    by_cases hne : r'.id = a
    · -- the unit has ended
      obtain ⟨r'', hr'', hcond⟩ := List.all_eq_false.1 (hdeployed.ended (hne ▸ hpending))
      have hother : r''.id = a ∧ r''.again ≠ 0 := by simpa using hcond
      obtain rfl := hconsistent.eq_of_id hr'' hmem (by rw [hother.1, ← hbid, hne])
      rw [hbagain] at hagain
      exact absurd hagain hother.2
    · obtain rfl := heq hne
      exact hconsistent.pending r' hmem hpending hagain
  · rintro id sha ⟨hproduction, r', hr', rfl, rfl, hrec, hagain⟩ other hother
    rcases hdeployed.confirmed with hours | hnot
    · obtain rfl : r'.id = a := Option.some.inj (hproduction.symm.trans hours)
      exact hle other hother
    · by_cases hne : r'.id = a
      · rw [hne]
        exact hle other hother
      · obtain ⟨before, hmem, -, -, -, -, heq⟩ := hback r' hr'
        obtain rfl := heq hne
        exact absurd ⟨hproduction, r', hmem, rfl, rfl, hrec, hagain⟩ (hnot r'.id r'.sha)
  · exact ⟨_, mem_modify_of_mem hr, by rw [if_pos hid]; exact ⟨hid, hsha, hrunning⟩⟩

theorem fact_held : Fact a s (Held a s) :=
  ⟨fun _ h => h, fun _ _ h hstep => h.surroundings hstep⟩

theorem stands_held_done {α : Type} {r : Except Exc α} (hw : Held a s w) :
    Stands tree a s (fun _ => Held a s) (.done r) w :=
  Prog.withstands_done fact_held.stable hw

theorem stands_deployJob {tables : CharTables} {environ : Text → Option Text} {reports : Text}
    {runId : ℕ} (hsha : environ "GITHUB_SHA".toList = some s) (hw : Gate a s w) :
    Stands tree a s (fun _ => Held a s) (deployJob tables environ reports runId) w := by
  -- neither the download nor the attestation is about the world
  have hdownload : Stands tree a s (fun _ => Gate a s) (call (.download runId)) w :=
    stands_only fact_gate (only_call rfl) hw
  refine Prog.Withstands.bind hdownload (fun _ w hw => ?_) fun _ _ hw => stands_held_done hw.1
  have hverify : Stands tree a s (fun _ => Gate a s) (verify tables environ reports) w :=
    stands_only fact_gate (only_verify tables environ (fun _ _ => rfl) reports) hw
  refine Prog.Withstands.bind hverify (fun _ w hw => ?_) fun _ _ hw => stands_held_done hw.1
  refine Prog.Withstands.bind (stands_transfer hsha hw) ?_ fun _ _ hw => stands_held_done hw.1.1
  rintro deployed w ⟨hw, hdeployed⟩
  cases deployed with
  | false => exact stands_held_done hw.1
  | true =>
    -- once the update is in production, it stays recorded there
    have hfact : Fact a s fun w => Gate a s w ∧ Deployed a w :=
      fact_gate.and fun _ _ hw hstep h => h.surroundings hw.1 hstep
    refine Prog.withstands_perform_bind hfact.stable ⟨hw, hdeployed true rfl rfl⟩
      (fun w h => ⟨h.1.1, fun h => nomatch h⟩) fun w reply w' h hsem => ?_
    cases reply with
    | error e =>
      obtain rfl : w = w' := Option.some.inj hsem
      exact stands_held_done h.1.1
    | ok _ =>
      obtain rfl : w.modify a RunState.record = w' := Option.some.inj hsem
      exact stands_held_done (held_record h.1 h.2)

theorem stands_attempt {tables : CharTables} {environ : Text → Option Text} {fuel : ℕ}
    {reports : Text} (hsha : environ "GITHUB_SHA".toList = some s) (hw : Gate a s w) :
    Stands tree a s (fun _ => Held a s) (attempt tables environ fuel reports) w := by
  refine Prog.Withstands.bind (stands_waitForCi hsha hw) ?_ fun _ _ hw => stands_held_done hw.1
  intro runId w hw
  cases runId with
  | none => exact stands_held_done hw.1
  | some runId => exact stands_deployJob hsha hw

theorem Stands.held {rest : M Unit} (h : Stands tree a s (fun _ => Held a s) rest w) :
    Held a s w := by
  cases rest with
  | done r => exact Prog.Withstands.post_of_done h
  | act action k => exact (Prog.Withstands.here_of_act h).1

/-! ### All runs -/

/-- What every reachable state is like. -/
inductive Standing (tree : Text → List (Text × Text)) : State → Prop
  | free {w : World} (hw : Consistent w) (hfree : ∀ r ∈ w.runs, r.phase ≠ .running) :
      Standing tree ⟨w, none⟩
  | active {w : World} {a : ℕ} {s : Text} {rest : M Unit}
      (h : Stands tree a s (fun _ => Held a s) rest w) : Standing tree ⟨w, some (a, rest)⟩

/-- A run that waits may begin when no run is active. -/
theorem gate_start (hw : Consistent w) (hfree : ∀ r ∈ w.runs, r.phase ≠ .running) {r : RunState}
    (hr : r ∈ w.runs) (hqueued : r.phase = .queued) :
    Gate r.id r.sha (w.modify r.id RunState.start) := by
  have hid : ∀ r' ∈ (w.modify r.id RunState.start).runs, r'.phase = .running → r'.id = r.id := by
    intro r' hr' hphase
    obtain ⟨before, hmem, rfl⟩ := mem_modify hr'
    split at hphase
    · next hid =>
      rw [if_pos hid]
      exact hid
    · exact absurd hphase (hfree before hmem)
  refine ⟨⟨hw.modify follows_start ?_, ?_⟩, ?_⟩
  · intro r' hr' r'' hr'' hphase hphase'
    rw [hid r' hr' hphase, hid r'' hr'' hphase']
  · exact ⟨_, mem_modify_of_mem hr, by rw [if_pos rfl]; exact ⟨rfl, rfl, rfl⟩⟩
  · intro r' hr' hid' hagain
    obtain ⟨before, hmem, hfollows⟩ := exists_follows follows_start hr'
    obtain rfl := hw.eq_of_id hmem hr (by rw [← hfollows.id, hid'])
    rw [hfollows.recorded]
    exact hw.waiting before hmem hqueued (hfollows.again hagain)

theorem Standing.step {x y : State} (hx : Standing tree x) (h : Step tree x y) :
    Standing tree y := by
  cases h with
  | surroundings h =>
    cases hx with
    | free hw hfree =>
      refine .free (h.consistent hw) fun r hr hphase => ?_
      obtain ⟨before, hmem, hbefore⟩ := h.of_running hr hphase
      exact hfree before hmem hbefore
    | active hstands => exact .active (Prog.Withstands.env_star hstands (.single h))
  | begin tables fuel reports hr hqueued hfree hsha =>
    cases hx with
    | free hw _ => exact .active (stands_attempt hsha (gate_start hw hfree hr hqueued))
  | beginDeploy tables reports runId hr hqueued hagain hfree hsha =>
    cases hx with
    | free hw _ => exact .active (stands_deployJob hsha (gate_start hw hfree hr hqueued))
  | act hsem =>
    cases hx with
    | active hstands => exact .active (Prog.Withstands.turn hstands (.act hsem))
  -- the attempt is over: what stood of it is what holds without one
  | @ends w a rest =>
    cases hx with
    | active hstands =>
      obtain ⟨hw, active, hactive, hid, -, hrunning⟩ := hstands.held
      have hfree : ∀ r ∈ (w.modify a RunState.complete).runs, r.phase ≠ .running := by
        intro r hr hphase
        obtain ⟨before, hmem, rfl⟩ := mem_modify hr
        split at hphase
        · cases hphase
        · next hne => exact hne ((hw.single before hmem active hactive hphase hrunning).trans hid)
      refine .free (hw.modify follows_complete ?_) hfree
      exact fun r hr _ _ hphase => absurd hphase (hfree r hr)

theorem Reachable.standing {x : State} (h : Reachable tree x) : Standing tree x := by
  induction h with
  | refl =>
    refine .free ⟨.nil, .nil, ?_, ?_, ?_, ?_⟩ ?_
    · exact fun _ h => nomatch h
    · exact fun _ h => nomatch h
    · exact fun _ h => nomatch h
    · exact fun _ _ h => nomatch h.1
    · exact fun _ h => nomatch h
  | tail _ hstep ih => exact ih.step hstep

theorem Reachable.consistent {x : State} (h : Reachable tree x) : Consistent x.world := by
  cases h.standing with
  | free hw hfree => exact hw
  | active hstands => exact hstands.held.consistent

/-- **A skipped deployment leaves nothing but documentation behind.** -/
theorem skipped_when_unchanged {k : Reply (.print docsOnlyLine) → M Unit} {id : ℕ} {sha : Text}
    (h : Reachable tree ⟨w, some (a, .act (.print docsOnlyLine) k)⟩) (hserved : w.Served id sha) :
    ∃ r ∈ w.runs, r.id = a ∧ r.phase = .running ∧
      ∀ path, (tree sha).lookup path ≠ (tree r.sha).lookup path → isDocumentation path = true := by
  cases h.standing with
  | active hstands =>
    obtain ⟨hheld, hskips⟩ := Prog.Withstands.here_of_act hstands
    obtain ⟨r, hr, hid, rfl, hrunning⟩ := hheld.active
    exact ⟨r, hr, hid, hrunning, hskips rfl id sha hserved⟩

end

/-! ### A run that skips -/

section

/-- A second commit. -/
def otherSha : Text := List.replicate 40 'b'

/-- The second commit changes the documentation only. -/
def someTree (commit : Text) : List (Text × Text) :=
  [("README.md".toList, if commit = otherSha then ['2'] else ['1']), ("main.py".toList, ['1'])]

/-- The environment of its run. -/
def otherEnviron (name : Text) : Option Text :=
  if name = "GITHUB_SHA".toList then some otherSha else someEnviron name

/-- True answers; all workflows have succeeded. -/
def answer : (action : Action) → World → Reply action
  | .mainHead _, w => .ok (w.head.getD [])
  | .deployRuns repo, w => .ok (w.listed.map fun run => ⟨run.1, 1, run.2, mainText, pushText,
      workflowPath "deploy.yaml".toList, repo, completedText, some successText⟩)
  | .jobs _ id true, w => .ok (if w.isRecorded id then [⟨"deploy".toList, some successText,
      [⟨deployRecordStep, some successText⟩]⟩] else [])
  | .gitDiff base head, _ =>
    .ok ((differing someTree base head).eraseDups.flatMap fun path => path ++ [Char.ofNat 0])
  | .parseCurrent, w => .ok w.read
  | action, _ => someReply action

/-- An attempt goes on for a number of steps. -/
def go (n : ℕ) (a : ℕ) (x : World × M Unit) : World × M Unit :=
  Prog.run (sem someTree a) answer n x

/-- The first commit is pushed. -/
def firstPush : World := ⟨[⟨1, someSha, 0, .queued, false⟩], [], none, none⟩

/-- The first run has launched its update. -/
def firstLaunched : World × M Unit :=
  go 21 1 (firstPush.modify 1 .start, attempt asciiTables someEnviron 1 "reports".toList)

/-- Its update has written the record of the host. -/
def firstUpdated : World :=
  { firstLaunched.1 with production := some 1, outstanding := firstLaunched.1.outstanding.erase 1 }

/-- Its attempt is over. -/
def firstOver : World := (go 10 1 (firstUpdated, firstLaunched.2)).1.modify 1 .complete

/-- The second commit is pushed. -/
def secondPush : World :=
  { firstOver with runs := ⟨2, otherSha, 0, .queued, false⟩ :: firstOver.runs }

/-- The second run is about to skip the deployment. -/
def secondSkips : World × M Unit :=
  go 9 2 (secondPush.modify 2 .start, attempt asciiTables otherEnviron 1 "reports".toList)

theorem reachable_go {n a : ℕ} {x : World × M Unit}
    (h : Reachable someTree ⟨x.1, some (a, x.2)⟩) :
    Reachable someTree ⟨(go n a x).1, some (a, (go n a x).2)⟩ := by
  have hturns : Relation.ReflTransGen (Prog.Turn (sem someTree a) Surroundings) x (go n a x) :=
    Prog.turns_run Surroundings answer n x
  generalize go n a x = y at hturns ⊢
  induction hturns with
  | refl => exact h
  | tail _ hturn ih =>
    refine ih.tail ?_
    cases hturn with
    | env hstep => exact .surroundings hstep
    | act hsem => exact .act hsem

theorem reachable_secondSkips : Reachable someTree ⟨secondSkips.1, some (2, secondSkips.2)⟩ := by
  have hpush : Reachable someTree ⟨firstPush, none⟩ :=
    .single (.surroundings (.push (fun _ h => nomatch h) fun _ h => nomatch h))
  have hlaunched : Reachable someTree ⟨firstLaunched.1, some (1, firstLaunched.2)⟩ := by
    refine reachable_go (hpush.tail (.begin asciiTables 1 "reports".toList
      (r := ⟨1, someSha, 0, .queued, false⟩) List.mem_cons_self rfl ?_ (by decide)))
    decide
  have hupdated : Reachable someTree ⟨firstUpdated, some (1, firstLaunched.2)⟩ :=
    hlaunched.tail (.surroundings (.update (by decide +kernel)))
  have hover : Reachable someTree ⟨firstOver, none⟩ :=
    (reachable_go (n := 10) (x := (firstUpdated, firstLaunched.2)) hupdated).tail .ends
  have hruns : firstOver.runs = [⟨1, someSha, 0, .completed, true⟩] := by decide +kernel
  have hsecond : Reachable someTree ⟨secondPush, none⟩ := by
    refine hover.tail (.surroundings (.push ?_ ?_))
    · rw [hruns]
      decide
    · rw [hruns]
      decide
  refine reachable_go (hsecond.tail (.begin asciiTables 1 "reports".toList
    (r := ⟨2, otherSha, 0, .queued, false⟩) List.mem_cons_self rfl ?_ (by decide)))
  rw [secondPush, hruns]
  decide

theorem served_secondSkips : secondSkips.1.Served 1 someSha := by
  have hproduction : secondSkips.1.production = some 1 := by decide +kernel
  have hruns : secondSkips.1.runs =
      [⟨2, otherSha, 0, .running, false⟩, ⟨1, someSha, 0, .completed, true⟩] := by decide +kernel
  refine ⟨hproduction, ⟨1, someSha, 0, .completed, true⟩, ?_, rfl, rfl, rfl, rfl⟩
  rw [hruns]
  simp

end

theorem skipped_when_unchanged_some : ∃ r ∈ secondSkips.1.runs, r.id = 2 ∧ r.phase = .running ∧
    ∀ path, (someTree someSha).lookup path ≠ (someTree r.sha).lookup path →
      isDocumentation path = true := by
  have hhead : secondSkips.2.head = some (.print docsOnlyLine) := by decide +kernel
  obtain ⟨k, hk, -⟩ := Prog.eq_act_of_head hhead
  have hreach := reachable_secondSkips
  rw [hk] at hreach
  exact skipped_when_unchanged hreach served_secondSkips

/-- **No newer run than the one in production has a record**, when the update to that one was
recorded and its run was never asked to run again. -/
theorem served_newest {tree : Text → List (Text × Text)} {x : State} {id : ℕ} {sha : Text}
    (h : Reachable tree x) (hserved : x.world.Served id sha) :
    ∀ r ∈ x.world.runs, r.recorded = true → r.id ≤ id :=
  fun r hr hrecorded => h.consistent.newest id sha hserved r.id ⟨r, hr, rfl, hrecorded⟩

theorem served_newest_some :
    (secondSkips.1.runs.all fun r => !r.recorded || decide (r.id ≤ 1)) = true := by
  refine List.all_eq_true.2 fun r hr => ?_
  have hle := served_newest reachable_secondSkips served_secondSkips r hr
  cases hrecorded : r.recorded with
  | false => rfl
  | true => simpa [hrecorded] using hle hrecorded

end DeployPipeline
