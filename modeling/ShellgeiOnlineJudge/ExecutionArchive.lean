/-
The archive of an execution (soj_runner/execution_archive.py) and its
extraction into the work directory.

The schema checks each fixture path alone and that no two are equal.  It does
not see a path that runs through another one, or through the command file:

* `extraction_iff` — the archive is extracted with every file in place iff no
  fixture path runs through another or through `z.bash`.
-/
import ShellgeiOnlineJudge.FileTree
import ShellgeiOnlineJudge.Problem

namespace ExecutionArchive

open Utf8 Problem FileTree

/-- A member of a tar archive: its `TarInfo` and the bytes added for it. -/
structure Member where
  name : Text
  size : ℕ
  mode : ℕ
  mtime : ℕ
  payload : Bytes
  deriving DecidableEq

/-- `_add_text_file` -/
def addTextFile (archive : List Member) (name contents : Text) : List Member :=
  let payload := encode contents
  archive ++ [{ name, size := payload.length, mode := 0o600, mtime := 0, payload }]

/-- `build_execution_archive` -/
def buildExecutionArchive (shellgei : Text) (fixtures : List (Text × Text)) : List Member :=
  let archive := fixtures.foldl (fun archive f => addTextFile archive f.1 f.2) []
  addTextFile archive commandPath shellgei

/-! ### tar -/

/-- A tree of files whose names are parts of paths. -/
abbrev WorkTree := Entry Text Bytes

/-- Where tar puts a member: a name with `..` is refused, and empty parts and
`.` lead nowhere. -/
def memberPath (name : Text) : Option (List Text) :=
  if ['.', '.'] ∈ splitSlash name then none
  else some ((splitSlash name).filter fun part => part ≠ [] ∧ part ≠ ['.'])

/-- The archive program writes one member. -/
def extractMember (work : WorkTree) (member : Member) : Option WorkTree := do
  let path ← memberPath member.name
  extract (some work) path (member.payload.take member.size)

/-- `tar -x`, which stops being successful with the first member that fails. -/
def extractArchive (work : WorkTree) (archive : List Member) : Option WorkTree :=
  archive.foldlM extractMember work

/-- The content of the regular file at a path, if there is one. -/
def readFile (work : WorkTree) (path : Text) : Option Bytes :=
  match find (some work) (splitSlash path) with
  | some (.file content) => some content
  | _ => none

/-- Every fixture and the command stand in the work directory. -/
def Materialised (work : WorkTree) (shellgei : Text) (fixtures : List (Text × Text)) : Prop :=
  (∀ f ∈ fixtures, readFile work f.1 = some (encode f.2)) ∧
    readFile work commandPath = some (encode shellgei)

/-! ### The members of the archive -/

/-- The files of an execution as texts: the fixtures, then the command. -/
def textFiles (shellgei : Text) (fixtures : List (Text × Text)) : List (Text × Text) :=
  fixtures ++ [(commandPath, shellgei)]

/-- The member of a text file. -/
def textMember (file : Text × Text) : Member where
  name := file.1
  size := (encode file.2).length
  mode := 0o600
  mtime := 0
  payload := encode file.2

/-- What tar makes of a text file with a good path. -/
def treeFile (file : Text × Text) : List Text × Bytes := (splitSlash file.1, encode file.2)

theorem foldl_addTextFile (fixtures : List (Text × Text)) (archive : List Member) :
    fixtures.foldl (fun archive f => addTextFile archive f.1 f.2) archive =
      archive ++ fixtures.map textMember := by
  induction fixtures generalizing archive with
  | nil => simp
  | cons f rest ih =>
    rw [List.foldl_cons, ih, List.map_cons, addTextFile, List.append_assoc]
    rfl

theorem buildExecutionArchive_eq (shellgei : Text) (fixtures : List (Text × Text)) :
    buildExecutionArchive shellgei fixtures = (textFiles shellgei fixtures).map textMember := by
  rw [buildExecutionArchive, foldl_addTextFile, textFiles, List.map_append]
  rfl

/-- A path with good parts is put where it says. -/
theorem memberPath_of_parts {name : Text} (h : ∀ part ∈ splitSlash name, part ∉ badParts) :
    memberPath name = some (splitSlash name) := by
  have hdots : ['.', '.'] ∉ splitSlash name := by
    intro hmem
    exact h _ hmem (by simp [badParts])
  rw [memberPath, if_neg hdots, List.filter_eq_self.2]
  intro part hpart
  have hbad := h part hpart
  simp only [badParts, List.mem_cons, not_or] at hbad
  simp [hbad.1, hbad.2.1]

/-- The archive is extracted as the files it was built from. -/
theorem extractArchive_map {files : List (Text × Text)}
    (h : ∀ f ∈ files, ∀ part ∈ splitSlash f.1, part ∉ badParts) (work : WorkTree) :
    extractArchive work (files.map textMember) = extractAll work (files.map treeFile) := by
  induction files generalizing work with
  | nil => rfl
  | cons f rest ih =>
    have hmember : ∀ w : WorkTree, extractMember w (textMember f) =
        extract (some w) (treeFile f).1 (treeFile f).2 := by
      intro w
      rw [extractMember, textMember, memberPath_of_parts (h f List.mem_cons_self)]
      simp [treeFile]
    have hrest : ∀ g ∈ rest, ∀ part ∈ splitSlash g.1, part ∉ badParts :=
      fun g hg => h g (List.mem_cons_of_mem f hg)
    rw [extractArchive, extractAll, List.map_cons, List.map_cons, List.foldlM_cons,
      List.foldlM_cons, hmember]
    cases extract (some work) (treeFile f).1 (treeFile f).2 with
    | none => rfl
    | some next => exact ih hrest next

theorem readFile_eq_some {work : WorkTree} {path : Text} {content : Bytes} :
    readFile work path = some content ↔
      find (some work) (splitSlash path) = some (.file content) := by
  rw [readFile]
  split
  · rename_i c hfind
    rw [hfind]
    simp
  · rename_i hfind
    exact iff_of_false (by simp) (hfind content)

theorem materialised_iff {work : WorkTree} {shellgei : Text} {fixtures : List (Text × Text)} :
    Materialised work shellgei fixtures ↔
      ∀ f ∈ (textFiles shellgei fixtures).map treeFile,
        find (some work) f.1 = some (.file f.2) := by
  simp only [Materialised, textFiles, List.map_append, List.forall_mem_append, List.map_cons,
    List.map_nil, List.forall_mem_singleton, List.forall_mem_map, treeFile, readFile_eq_some]

/-! ### Paths that run through each other -/

theorem intercalate_append {a b : List Text} (ha : a ≠ []) (hb : b ≠ []) :
    ['/'].intercalate (a ++ b) = ['/'].intercalate a ++ '/' :: ['/'].intercalate b := by
  induction a with
  | nil => exact absurd rfl ha
  | cons x rest ih =>
    by_cases hrest : rest = []
    · subst hrest
      rw [List.singleton_append, List.intercalate_cons_of_ne_nil hb, List.intercalate_singleton]
      simp
    · have happend : rest ++ b ≠ [] := by simp [hrest]
      rw [List.cons_append, List.intercalate_cons_of_ne_nil happend, ih hrest,
        List.intercalate_cons_of_ne_nil hrest]
      simp

/-- A path runs through another one exactly when it is that path or stands
before one of its slashes. -/
theorem splitSlash_prefix_iff {p q : Text} :
    splitSlash p <+: splitSlash q ↔ p = q ∨ p ++ ['/'] <+: q := by
  constructor
  · rintro ⟨rest, hrest⟩
    by_cases hnil : rest = []
    · left
      rw [hnil, List.append_nil] at hrest
      exact splitSlash_injective hrest
    · right
      refine ⟨['/'].intercalate rest, ?_⟩
      rw [← intercalate_splitSlash q, ← hrest, intercalate_append (splitSlash_ne_nil p) hnil,
        intercalate_splitSlash, List.append_assoc]
      rfl
  · rintro (rfl | ⟨rest, rfl⟩)
    · exact List.prefix_refl _
    · rw [List.append_assoc, List.singleton_append, splitSlash_append]
      exact List.prefix_append _ _

/-- No path of a fixture runs through another one or through the command. -/
def PathsCompatible (paths : List Text) : Prop :=
  ∀ p ∈ commandPath :: paths, ∀ q ∈ paths, ¬ p ++ ['/'] <+: q

instance (paths : List Text) : Decidable (PathsCompatible paths) :=
  inferInstanceAs (Decidable (∀ p ∈ commandPath :: paths, ∀ q ∈ paths, ¬ p ++ ['/'] <+: q))

/-- Nothing runs into the command, whose path has no slash. -/
theorem not_prefix_commandPath (p : Text) : ¬ p ++ ['/'] <+: commandPath := by
  rintro ⟨rest, hrest⟩
  have hmem : '/' ∈ commandPath := by rw [← hrest]; simp
  exact absurd hmem (by decide)

section Specification

variable (spec : ExecutionSpecification) (shellgei : Text)

theorem textFiles_parts :
    ∀ f ∈ textFiles shellgei spec.archiveFixtures, ∀ part ∈ splitSlash f.1, part ∉ badParts := by
  intro f hf
  rcases List.mem_append.1 hf with hf | hf
  · obtain ⟨fixture, -, rfl⟩ := List.mem_map.1 hf
    exact fixture.parts
  · rw [List.mem_singleton.1 hf]
    show ∀ part ∈ splitSlash commandPath, part ∉ badParts
    decide

theorem textFiles_paths :
    (textFiles shellgei spec.archiveFixtures).map Prod.fst =
      spec.fixtures.map (·.path) ++ [commandPath] := by
  simp [textFiles, ExecutionSpecification.archiveFixtures]

theorem treeFiles_nodup :
    (((textFiles shellgei spec.archiveFixtures).map treeFile).map Prod.fst).Nodup := by
  have hpaths : ((textFiles shellgei spec.archiveFixtures).map treeFile).map Prod.fst =
      ((textFiles shellgei spec.archiveFixtures).map Prod.fst).map splitSlash := by
    simp [treeFile, Function.comp_def]
  rw [hpaths, textFiles_paths]
  refine List.Nodup.map (fun _ _ => splitSlash_injective) ?_
  rw [List.nodup_append]
  refine ⟨spec.nodup, List.nodup_singleton _, ?_⟩
  intro p hp q hq
  obtain ⟨fixture, -, rfl⟩ := List.mem_map.1 hp
  rw [List.mem_singleton.1 hq]
  exact fixture.path_ne

/-- The files stand beside each other exactly when the paths are compatible. -/
theorem compatible_treeFiles_iff :
    Compatible ((textFiles shellgei spec.archiveFixtures).map treeFile) ↔
      PathsCompatible (spec.fixtures.map (·.path)) := by
  rw [compatible_iff (treeFiles_nodup spec shellgei)]
  have hpath : ∀ p, p ∈ commandPath :: spec.fixtures.map (·.path) ↔
      ∃ f ∈ textFiles shellgei spec.archiveFixtures, f.1 = p := by
    intro p
    rw [← List.mem_map, textFiles_paths]
    simp [or_comm]
  constructor
  · intro h p hp q hq hprefix
    obtain ⟨f, hf, rfl⟩ := (hpath p).1 hp
    obtain ⟨g, hg, rfl⟩ := (hpath q).1 (List.mem_cons_of_mem _ hq)
    have hrun : splitSlash f.1 <+: splitSlash g.1 := splitSlash_prefix_iff.2 (Or.inr hprefix)
    refine h _ (List.mem_map_of_mem hf) _ (List.mem_map_of_mem hg) ?_ hrun
    intro heq
    -- a path does not run through itself
    have hlength := hprefix.length_le
    rw [splitSlash_injective heq, List.length_append, List.length_singleton] at hlength
    omega
  · intro h f hf g hg hne hprefix
    obtain ⟨f, hf', rfl⟩ := List.mem_map.1 hf
    obtain ⟨g, hg', rfl⟩ := List.mem_map.1 hg
    rcases splitSlash_prefix_iff.1 hprefix with heq | hslash
    · exact hne (by simp only [treeFile, heq])
    · rcases List.mem_cons.1 ((hpath g.1).2 ⟨g, hg', rfl⟩) with hcommand | hfixture
      · rw [hcommand] at hslash
        exact not_prefix_commandPath f.1 hslash
      · exact h f.1 ((hpath f.1).2 ⟨f, hf', rfl⟩) g.1 hfixture hslash

end Specification

/-- The archive of an accepted specification and a validated command is
extracted into the empty work directory, with every fixture and the command in
place, iff the paths are compatible. -/
theorem extraction_iff (spec : ExecutionSpecification) (data : ShellgeiData) :
    (∃ work, extractArchive emptyDir (buildExecutionArchive data.shellgei spec.archiveFixtures) =
        some work ∧ Materialised work data.shellgei spec.archiveFixtures) ↔
      PathsCompatible (spec.fixtures.map (·.path)) := by
  rw [buildExecutionArchive_eq, extractArchive_map (textFiles_parts spec data.shellgei)]
  simp only [materialised_iff]
  rw [extractAll_iff (treeFiles_nodup spec data.shellgei)]
  exact compatible_treeFiles_iff spec data.shellgei

/-- The fixture `path` with a content of one character. -/
def smallFixture (path : Text) (h : FixtureDefinition.validatePath path = .ok path) :
    FixtureDefinition where
  path := path
  content := ['x']
  path_valid := h
  content_valid := by rfl

/-- An accepted specification with the fixtures `a` and `a/b`. -/
def nestedFixtures : ExecutionSpecification where
  stdin := []
  fixtures := [smallFixture "a".toList (by rfl), smallFixture "a/b".toList (by rfl)]
  exitCode := .ignore
  stderr := .ignore
  stdin_valid := nil_stdin_valid
  fixtures_length := by decide
  fixtures_valid := by rfl

/-- The file `a` stands in the way of the directory `a`. -/
theorem nestedFixtures_not_extracted (shellgei : Text) :
    extractArchive emptyDir (buildExecutionArchive shellgei nestedFixtures.archiveFixtures) =
      none := by
  rw [buildExecutionArchive_eq, textFiles, List.map_append, extractArchive, List.foldlM_append]
  rfl

/-- The command `:`. -/
def noCommand : ShellgeiData where
  shellgei := [':']
  problemId := "STANDARD-1".toList
  normalized := colon_normalized
  length_valid := colon_length
  no_nul := colon_no_nul
  problem_id_valid := standard_one_valid

theorem not_always_extracted :
    ¬ ∀ (spec : ExecutionSpecification) (data : ShellgeiData), ∃ work,
      extractArchive emptyDir (buildExecutionArchive data.shellgei spec.archiveFixtures) =
        some work ∧ Materialised work data.shellgei spec.archiveFixtures := by
  intro h
  obtain ⟨work, hwork, -⟩ := h nestedFixtures noCommand
  rw [nestedFixtures_not_extracted] at hwork
  cases hwork

end ExecutionArchive
