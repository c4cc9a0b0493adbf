/-
The migration of legacy problems (soj_tools/problem_migration.py).

A legacy problem is a mapping of eight texts.  `migrateLegacyMapping` makes a
definition of it, which `writeMigratedProblem` writes to a file of the name of
the problem.

* `migrateLegacyMapping_ok` — the definition has all eight texts, and nothing is lost;
* `load_written_iff` — which written files are loaded as the definition;
* `next_line_lost` — a next line (U+0085) in a literal is an end of line afterwards;
* `main_ok` — a run of the tool.
-/
import ShellgeiOnlineJudge.ProblemDump

namespace ProblemMigration

open Utf8 Problem ProblemSchema ProblemDump
open Json (Value)
open Yaml (nextLine)

/-- `ProblemMigrationError`, by its messages -/
inductive ProblemMigrationError
  /-- "all legacy problem field names must be strings" -/
  | fieldNames
  | missing (fields : List Text)
  | unexpected (fields : List Text)
  /-- "all legacy problem fields must be strings" -/
  | fieldTypes
  /-- "legacy problem ID must match the filename stem" -/
  | idMismatch
  /-- "IMAGE problems with expected text output require an explicit migration" -/
  | imageOutput
  /-- "legacy problem is not valid v3 data" -/
  | invalid
  /-- "destination must be a .yaml file named with the problem ID" -/
  | destination
  | alreadyExists (destination : FileName)
  | unwritable (destination : FileName)
  | unreadable (path : FileName)
  | tooLarge (path : FileName)
  | unparsable (error : ProblemSchemaError)

/-! ### Legacy problems -/

/-- A mapping; a key or a value that is no string is `none`. -/
structure LegacyMapping where
  entries : List (Option Text × Option Text)
  nodup : (entries.filterMap Prod.fst).Nodup

/-- `data[field]`, if it is a string -/
def LegacyMapping.get (data : LegacyMapping) (field : Text) : Option Text :=
  (data.entries.find? fun entry => entry.1 = some field).bind Prod.snd

/-- The fields of a legacy problem, all of them texts. -/
structure LegacyProblem where
  id : Text
  titleJa : Text
  titleEn : Text
  statementJa : Text
  statementEn : Text
  input : Text
  expectedOutput : Text
  answer : Text

/-- The mapping of a legacy problem. -/
def LegacyProblem.entries (problem : LegacyProblem) : List (Text × Text) :=
  [("id".toList, problem.id), ("title_ja".toList, problem.titleJa),
    ("title_en".toList, problem.titleEn), ("statement_ja".toList, problem.statementJa),
    ("statement_en".toList, problem.statementEn), ("input".toList, problem.input),
    ("expected_output".toList, problem.expectedOutput), ("answer".toList, problem.answer)]

/-- `LEGACY_FIELDS` -/
def legacyFields : List Text :=
  ["id".toList, "title_ja".toList, "title_en".toList, "statement_ja".toList,
    "statement_en".toList, "input".toList, "expected_output".toList, "answer".toList]

/-- The eight values, if all of them are strings. -/
def LegacyMapping.problem (data : LegacyMapping) : Option LegacyProblem := do
  let id ← data.get "id".toList
  let titleJa ← data.get "title_ja".toList
  let titleEn ← data.get "title_en".toList
  let statementJa ← data.get "statement_ja".toList
  let statementEn ← data.get "statement_en".toList
  let input ← data.get "input".toList
  let expectedOutput ← data.get "expected_output".toList
  let answer ← data.get "answer".toList
  some ⟨id, titleJa, titleEn, statementJa, statementEn, input, expectedOutput, answer⟩

/-- The part of the ID before the first hyphen. -/
def LegacyProblem.category (problem : LegacyProblem) : Text :=
  (problem.id.splitOn '-').headD []

/-- Where the input of a problem is put. -/
def inputPath : Text := "input.txt".toList

/-- The fixtures of the migrated problem. -/
def LegacyProblem.fixtures (problem : LegacyProblem) : List (Text × Text) :=
  if problem.input = [] then [] else [(inputPath, problem.input)]

/-- The judge of the migrated problem. -/
def LegacyProblem.judge (problem : LegacyProblem) : Except ProblemMigrationError JudgeFields :=
  if problem.category = "IMAGE".toList then
    if problem.expectedOutput ≠ [] then .error .imageOutput
    else .ok (.image exactPixels "media/output.jpg".toList "image/jpeg".toList maxArtifactBytes)
  else .ok (.text problem.expectedOutput)

/-- The fields that the definition is validated from. -/
def LegacyProblem.fields (problem : LegacyProblem) (judge : JudgeFields) : DefinitionFields where
  schemaVersion := ProblemData.problemSchemaVersion
  id := problem.id
  category := problem.category
  titleJa := problem.titleJa
  titleEn := problem.titleEn
  statementJa := problem.statementJa
  statementEn := problem.statementEn
  referenceSolution := problem.answer
  stdin := []
  fixtures := problem.fixtures
  exitCode := "ignore".toList
  stderr := "merge".toList
  judge := judge

/-- `sorted(fields)` -/
def sorted (fields : List Text) : List Text := fields.mergeSort fun a b => decide (a ≤ b)

/-- The checks of the field names. -/
def checkFields (data : LegacyMapping) : Except ProblemMigrationError Unit :=
  let keys := data.entries.filterMap Prod.fst
  let missing := legacyFields.filter (· ∉ keys)
  let extra := keys.filter (· ∉ legacyFields)
  if ¬ data.entries.all (·.1.isSome) then .error .fieldNames
  else if missing ≠ [] then .error (.missing (sorted missing))
  else if extra ≠ [] then .error (.unexpected (sorted extra))
  else .ok ()

/-- `migrate_legacy_mapping` -/
def migrateLegacyMapping (data : LegacyMapping) (sourceId : Option FileName) :
    Except ProblemMigrationError ProblemDefinitionV3 := do
  checkFields data
  match data.problem with
  | none => .error .fieldTypes
  | some problem =>
    if sourceId.any (· ≠ encode problem.id) then .error .idMismatch
    else
      let judge ← problem.judge
      match (problem.fields judge).build with
      | none => .error .invalid
      | some definition => .ok definition

/-! ### What a definition says of the legacy problem -/

/-- The content of the first fixture. -/
def inputOf (execution : ExecutionSpecification) : Text :=
  match execution.fixtures with
  | [] => []
  | fixture :: _ => fixture.content

/-- The expected output that a judge came from. -/
def expectedOutputOf : JudgeSpecification → Text
  | .text specification => specification.expectedOutput
  | .image _ => []

/-- The legacy problem that a definition came from. -/
def legacyProblem (definition : ProblemDefinitionV3) : LegacyProblem where
  id := definition.id
  titleJa := definition.title.ja
  titleEn := definition.title.en
  statementJa := definition.statement.ja
  statementEn := definition.statement.en
  input := inputOf definition.execution
  expectedOutput := expectedOutputOf definition.judge
  answer := definition.referenceSolution

/-- The mapping has these eight texts, and nothing else. -/
def LegacyMapping.Holds (data : LegacyMapping) (problem : LegacyProblem) : Prop :=
  ∀ entry, entry ∈ data.entries ↔
    ∃ field ∈ problem.entries, entry = (some field.1, some field.2)

/-- The input is the fixture of its name, and there is no other. -/
def InputFixture (definition : ProblemDefinitionV3) : Prop :=
  definition.execution.archiveFixtures = (legacyProblem definition).fixtures

/-- A key has one value. -/
theorem LegacyMapping.value_unique (data : LegacyMapping) {key : Text} {v w : Option Text}
    (hv : (some key, v) ∈ data.entries) (hw : (some key, w) ∈ data.entries) : v = w := by
  have hnodup := data.nodup
  rw [List.Nodup, List.pairwise_filterMap] at hnodup
  have hforall : ∀ ⦃a⦄, a ∈ data.entries → ∀ ⦃b⦄, b ∈ data.entries →
      ∀ k, a.1 = some k → b.1 = some k → a.2 = b.2 := by
    refine List.Pairwise.forall_of_forall_of_flip (fun _ _ _ _ _ => rfl) ?_ ?_
    · exact hnodup.imp fun hab k ha hb => absurd rfl (hab k ha k hb)
    · exact hnodup.imp fun hab k hb ha => absurd rfl (hab k ha k hb)
  exact hforall hv hw key rfl rfl

theorem LegacyMapping.mem_of_get {data : LegacyMapping} {key value : Text}
    (h : data.get key = some value) : (some key, some value) ∈ data.entries := by
  rw [get] at h
  obtain ⟨entry, hentry, hvalue⟩ := Option.bind_eq_some_iff.1 h
  have hkey : entry.1 = some key := by simpa using List.find?_some hentry
  have hmem := List.mem_of_find?_eq_some hentry
  rw [← hkey, ← hvalue]
  exact hmem

/-- The values of a legacy problem are those of the mapping. -/
theorem LegacyMapping.get_of_problem {data : LegacyMapping} {problem : LegacyProblem}
    (h : data.problem = some problem) :
    ∀ field ∈ problem.entries, data.get field.1 = some field.2 := by
  rw [LegacyMapping.problem] at h
  obtain ⟨id, hid, h⟩ := Option.bind_eq_some_iff.1 h
  obtain ⟨titleJa, htitleJa, h⟩ := Option.bind_eq_some_iff.1 h
  obtain ⟨titleEn, htitleEn, h⟩ := Option.bind_eq_some_iff.1 h
  obtain ⟨statementJa, hstatementJa, h⟩ := Option.bind_eq_some_iff.1 h
  obtain ⟨statementEn, hstatementEn, h⟩ := Option.bind_eq_some_iff.1 h
  obtain ⟨input, hinput, h⟩ := Option.bind_eq_some_iff.1 h
  obtain ⟨expectedOutput, hexpected, h⟩ := Option.bind_eq_some_iff.1 h
  obtain ⟨answer, hanswer, h⟩ := Option.bind_eq_some_iff.1 h
  obtain rfl := Option.some.inj h
  simp only [LegacyProblem.entries, List.forall_mem_cons, List.not_mem_nil, false_implies,
    implies_true, and_true]
  exact ⟨hid, htitleJa, htitleEn, hstatementJa, hstatementEn, hinput, hexpected, hanswer⟩

/-- The names that are accepted are strings, and legacy fields. -/
theorem checkFields_ok {data : LegacyMapping} {u : Unit} (h : checkFields data = .ok u) :
    ∀ entry ∈ data.entries, ∃ key ∈ legacyFields, entry.1 = some key := by
  rw [checkFields] at h
  by_cases hnames : data.entries.all (·.1.isSome)
  swap
  · rw [if_pos hnames] at h
    cases h
  rw [if_neg (not_not.2 hnames)] at h
  split at h
  · cases h
  split at h
  · cases h
  next hextra =>
  intro entry hentry
  obtain ⟨key, hkey⟩ := Option.isSome_iff_exists.1 (List.all_eq_true.1 hnames entry hentry)
  refine ⟨key, ?_, hkey⟩
  by_contra hnot
  refine hextra (List.ne_nil_of_mem (a := key) (List.mem_filter.2 ⟨?_, by simpa using hnot⟩))
  exact List.mem_filterMap.2 ⟨entry, hentry, hkey⟩

theorem LegacyMapping.holds_of_problem {data : LegacyMapping} {problem : LegacyProblem} {u : Unit}
    (hfields : checkFields data = .ok u) (hproblem : data.problem = some problem) :
    data.Holds problem := by
  have hget := get_of_problem hproblem
  intro entry
  constructor
  · intro hentry
    obtain ⟨key, hkey, hname⟩ := checkFields_ok hfields entry hentry
    have hnames : legacyFields = problem.entries.map Prod.fst := rfl
    rw [hnames] at hkey
    obtain ⟨field, hfield, rfl⟩ := List.mem_map.1 hkey
    have hmem := mem_of_get (hget field hfield)
    obtain ⟨name, value⟩ := entry
    obtain rfl : name = some field.1 := hname
    exact ⟨field, hfield, by rw [data.value_unique hentry hmem]⟩
  · rintro ⟨field, hfield, rfl⟩
    exact mem_of_get (hget field hfield)

/-- What a definition says of the legacy problem that it was built from. -/
theorem legacyProblem_of_build {problem : LegacyProblem} {judge : JudgeFields}
    {definition : ProblemDefinitionV3} (hjudge : problem.judge = .ok judge)
    (h : (problem.fields judge).build = some definition) :
    legacyProblem definition = problem ∧ InputFixture definition := by
  have hfields := build_eq_some.1 h
  have hfixtures : definition.execution.archiveFixtures = problem.fixtures :=
    congrArg DefinitionFields.fixtures hfields
  have hjudges : JudgeSpecification.fields definition.judge = judge :=
    congrArg DefinitionFields.judge hfields
  have hinput : inputOf definition.execution = problem.input := by
    rw [LegacyProblem.fixtures, ExecutionSpecification.archiveFixtures] at hfixtures
    rw [inputOf]
    by_cases hempty : problem.input = []
    · rw [if_pos hempty, List.map_eq_nil_iff] at hfixtures
      rw [hfixtures, hempty]
    · rw [if_neg hempty] at hfixtures
      obtain ⟨fixture, rest, hlist, hfirst, -⟩ := List.map_eq_cons_iff.1 hfixtures
      rw [hlist]
      exact congrArg Prod.snd hfirst
  have hexpected : expectedOutputOf definition.judge = problem.expectedOutput := by
    rw [LegacyProblem.judge] at hjudge
    split at hjudge
    · -- an image problem has no expected output
      split at hjudge
      · cases hjudge
      next hnone =>
      rw [not_not.1 hnone]
      cases hspec : definition.judge with
      | text specification =>
        rw [hspec, ← Except.ok.inj hjudge] at hjudges
        cases hjudges
      | image artifact => rfl
    · cases hspec : definition.judge with
      | text specification =>
        rw [hspec, ← Except.ok.inj hjudge] at hjudges
        exact JudgeFields.text.inj hjudges
      | image artifact =>
        rw [hspec, ← Except.ok.inj hjudge] at hjudges
        cases hjudges
  have hproblem : legacyProblem definition = problem := by
    rw [legacyProblem, hinput, hexpected]
    obtain ⟨id, titleJa, titleEn, statementJa, statementEn, input, expectedOutput, answer⟩ := problem
    simp only [ProblemDump.fields, LegacyProblem.fields, DefinitionFields.mk.injEq] at hfields
    obtain ⟨-, hid, -, htitleJa, htitleEn, hstatementJa, hstatementEn, hanswer, -⟩ := hfields
    rw [hid, htitleJa, htitleEn, hstatementJa, hstatementEn, hanswer]
  refine ⟨hproblem, ?_⟩
  rw [InputFixture, hproblem, hfixtures]

/-- **An accepted mapping is what its definition says of it.** -/
theorem migrateLegacyMapping_ok {data : LegacyMapping} {sourceId : Option FileName}
    {definition : ProblemDefinitionV3} (h : migrateLegacyMapping data sourceId = .ok definition) :
    data.Holds (legacyProblem definition) ∧ InputFixture definition := by
  rw [migrateLegacyMapping] at h
  obtain ⟨u, hfields, h⟩ := Execution.bind_eq_ok.1 h
  cases hproblem : data.problem with
  | none => rw [hproblem] at h; cases h
  | some problem =>
    simp only [hproblem] at h
    split at h
    · cases h
    obtain ⟨judge, hjudge, h⟩ := Execution.bind_eq_ok.1 h
    split at h
    · cases h
    next built hbuild =>
    obtain rfl := Except.ok.inj h
    obtain ⟨rfl, hinput⟩ := legacyProblem_of_build hjudge hbuild
    exact ⟨LegacyMapping.holds_of_problem hfields hproblem, hinput⟩

/-- The mapping of a legacy problem. -/
def LegacyProblem.mapping (problem : LegacyProblem) : LegacyMapping where
  entries := problem.entries.map fun field => (some field.1, some field.2)
  nodup := by
    show legacyFields.Nodup
    decide

/-- A legacy problem is migrated if its fields are valid. -/
theorem migrateLegacyMapping_mapping {problem : LegacyProblem} {judge : JudgeFields}
    {definition : ProblemDefinitionV3} (hjudge : problem.judge = .ok judge)
    (h : fields definition = problem.fields judge) :
    migrateLegacyMapping problem.mapping none = .ok definition := by
  have hfields : checkFields problem.mapping = .ok () := by
    have hkeys : problem.mapping.entries.filterMap Prod.fst = legacyFields := rfl
    have hstrings : problem.mapping.entries.all (·.1.isSome) = true := rfl
    have hnone : legacyFields.filter (· ∉ legacyFields) = [] := by decide
    simp only [checkFields, hkeys, hstrings, hnone, not_true_eq_false, ne_eq, if_false]
  have hproblem : problem.mapping.problem = some problem := rfl
  rw [migrateLegacyMapping, hfields, hproblem]
  show (problem.judge >>= fun judge => _) = _
  rw [hjudge]
  show (match (problem.fields judge).build with | none => _ | some definition => _) = _
  rw [build_eq_some.2 h]

/-! ### Writing the file -/

/-- `path.suffix` -/
def suffix (name : FileName) : FileName := name.drop (stem name).length

/-- The suffix of a definition. -/
def yamlSuffix : FileName := encode ".yaml".toList

/-- A file of this name has these bytes now. -/
def put (directory : Directory) (name : FileName) (payload : Bytes) : Directory where
  entries := (name, some payload) :: directory.entries.filter fun entry => entry.1 ≠ name
  listable := directory.listable
  nodup := by
    rw [List.map_cons, List.nodup_cons]
    refine ⟨?_, directory.nodup.sublist (List.filter_sublist.map Prod.fst)⟩
    intro hmem
    obtain ⟨entry, hentry, heq⟩ := List.mem_map.1 hmem
    exact of_decide_eq_true (List.mem_filter.1 hentry).2 heq

/-- How opening the file and writing to it ends. -/
inductive Outcome
  | written
  /-- `OSError`, and the directory is as it was -/
  | refused
  /-- `OSError`, with so many bytes written -/
  | interrupted (count : ℕ)

/-- `write_migrated_problem`: how it ends, and the directory then -/
def writeMigratedProblem (libraries : YamlLibraries) (definition : ProblemDefinitionV3)
    (directory : Directory) (destination : FileName) (overwrite : Bool) (outcome : Outcome) :
    Except ProblemMigrationError Unit × Directory :=
  if suffix destination ≠ yamlSuffix ∨ stem destination ≠ encode definition.id then
    (.error .destination, directory)
  else if ¬ overwrite ∧ destination ∈ directory.entries.map Prod.fst then
    (.error (.alreadyExists destination), directory)
  else
    let payload := encode (dumpProblemDefinition libraries definition)
    match outcome with
    | .written => (.ok (), put directory destination payload)
    | .refused => (.error (.unwritable destination), directory)
    | .interrupted count =>
      (.error (.unwritable destination), put directory destination (payload.take count))

theorem readText_put (directory : Directory) (name : FileName) (text : Text) :
    (put directory name (encode text)).readText name = some (universalNewlines text) := by
  have hread : (put directory name (encode text)).read name = some (encode text) := by
    rw [Directory.read, put, List.find?_cons_of_pos (by simp)]
    rfl
  rw [Directory.readText, hread, Option.bind_some, decodeUtf8, decode_encode, if_pos rfl]
  rfl

/-- Without a carriage return there is no line end to replace. -/
theorem universalNewlines_of_not_mem {text : Text} (h : '\r' ∉ text) :
    universalNewlines text = text := by
  induction text with
  | nil => rfl
  | cons c rest ih =>
    rw [List.mem_cons, not_or] at h
    have hne : c ≠ '\r' := fun heq => h.1 heq.symm
    rw [universalNewlines.eq_4 c rest (fun rest' heq _ => hne heq) hne, ih h.2]

variable {libraries : YamlLibraries}

/-- A file that was written has the name of the problem and what is dumped of it. -/
theorem writeMigratedProblem_ok {definition : ProblemDefinitionV3} {directory after : Directory}
    {destination : FileName} {overwrite : Bool} {outcome : Outcome} {u : Unit}
    (h : writeMigratedProblem libraries definition directory destination overwrite outcome =
      (.ok u, after)) :
    stem destination = encode definition.id ∧
      after = put directory destination (encode (dumpProblemDefinition libraries definition)) := by
  rw [writeMigratedProblem] at h
  by_cases hname : suffix destination ≠ yamlSuffix ∨ stem destination ≠ encode definition.id
  · rw [if_pos hname] at h
    cases h
  rw [if_neg hname] at h
  split at h
  · cases h
  rw [not_or, not_not, not_not] at hname
  cases outcome with
  | written => exact ⟨hname.2, (congrArg Prod.snd h).symm⟩
  | refused => cases h
  | interrupted count => cases h

/-- What is loaded of a file that was written. -/
theorem load_written (hlibraries : libraries.Documented) {definition : ProblemDefinitionV3}
    {directory after : Directory} {destination : FileName} {overwrite : Bool} {outcome : Outcome}
    {u : Unit}
    (h : writeMigratedProblem libraries definition directory destination overwrite outcome =
      (.ok u, after)) (loaded : ProblemDefinitionV3) :
    loadProblemDefinition libraries.toLibraries after destination = .ok loaded ↔
      (WithinLimit libraries definition ∧
        fields loaded = libraries.readBack (fields definition)) ∧ loaded.id = definition.id := by
  obtain ⟨hstem, rfl⟩ := writeMigratedProblem_ok h
  have hlines : '\r' ∉ dumpProblemDefinition libraries definition :=
    hlibraries.dump_lines (fields definition)
  rw [loadProblemDefinition, readText_put, universalNewlines_of_not_mem hlines,
    ← parse_dump hlibraries definition loaded destination]
  dsimp only
  cases parseProblemDefinition libraries.toLibraries (dumpProblemDefinition libraries definition)
      destination with
  | error raised => exact iff_of_false (by simp) (by simp)
  | ok parsed =>
    show (if encode parsed.id = stem destination then Except.ok parsed else _) = _ ↔ _
    rw [hstem]
    -- the file is loaded under the ID of its name
    by_cases hid : encode parsed.id = encode definition.id
    · rw [if_pos hid]
      refine ⟨fun hloaded => ⟨hloaded, ?_⟩, fun hloaded => hloaded.1⟩
      rw [← Except.ok.inj hloaded]
      exact encode_injective hid
    · rw [if_neg hid]
      refine iff_of_false (by simp) ?_
      rintro ⟨hloaded, heq⟩
      rw [Except.ok.inj hloaded, heq] at hid
      exact hid rfl

/-- **A file that was written is loaded as its definition exactly when it is small enough
and the next lines are escaped.** -/
theorem load_written_iff (hlibraries : libraries.Documented) {definition : ProblemDefinitionV3}
    {directory after : Directory} {destination : FileName} {overwrite : Bool} {outcome : Outcome}
    {u : Unit}
    (h : writeMigratedProblem libraries definition directory destination overwrite outcome =
      (.ok u, after)) :
    loadProblemDefinition libraries.toLibraries after destination = .ok definition ↔
      WithinLimit libraries definition ∧ NextLinesEscaped definition := by
  rw [load_written hlibraries h, readBack_fields_iff hlibraries.emitter, and_iff_left rfl]

/-! ### A run of the tool -/

/-- `migrate_legacy_file`; `asMapping` is what the tool sees of a mapping of PyYAML. -/
def migrateLegacyFile (libraries : Libraries) (asMapping : libraries.Object → LegacyMapping)
    (directory : Directory) (path : FileName) :
    Except (Raised ProblemMigrationError) ProblemDefinitionV3 :=
  match directory.readText path with
  | none => .error (.documented (.unreadable path))
  | some text =>
    if maxProblemSchemaFileBytes < (encode text).length then .error (.documented (.tooLarge path))
    else
      match loadYamlMapping libraries text path with
      | .error raised => .error (raised.map .unparsable)
      | .ok data =>
        (migrateLegacyMapping (asMapping data) (some (stem path))).mapError .documented

/-- `main`: how it ends, and the directory of the destination then -/
def main (libraries : YamlLibraries) (asMapping : libraries.Object → LegacyMapping)
    (legacy directory : Directory) (source destination : FileName) (force : Bool)
    (outcome : Outcome) : Except (Raised ProblemMigrationError) Unit × Directory :=
  match migrateLegacyFile libraries.toLibraries asMapping legacy source with
  | .error raised => (.error raised, directory)
  | .ok definition =>
    let ended := writeMigratedProblem libraries definition directory destination force outcome
    (ended.1.mapError .documented, ended.2)

theorem mapError_eq_ok {ε ε' α : Type} {f : ε → ε'} {x : Except ε α} {a : α} :
    x.mapError f = .ok a ↔ x = .ok a := by
  cases x with
  | error e => exact iff_of_false (fun h => by cases h) (fun h => by cases h)
  | ok b =>
    constructor
    · intro h
      rw [Except.ok.inj h]
    · intro h
      rw [Except.ok.inj h]
      rfl

theorem migrateLegacyFile_ok {packages : Libraries} {asMapping : packages.Object → LegacyMapping}
    {directory : Directory} {path : FileName} {definition : ProblemDefinitionV3}
    (h : migrateLegacyFile packages asMapping directory path = .ok definition) :
    ∃ data, migrateLegacyMapping (asMapping data) (some (stem path)) = .ok definition := by
  rw [migrateLegacyFile] at h
  split at h
  · cases h
  split at h
  · cases h
  split at h
  · cases h
  next data _ => exact ⟨data, mapError_eq_ok.1 h⟩

/-- **A run that succeeds keeps the legacy problem up to the file, and its file is loaded
exactly when it is small enough and the next lines are escaped.** -/
theorem main_ok (hlibraries : libraries.Documented) {asMapping : libraries.Object → LegacyMapping}
    {legacy directory after : Directory} {source destination : FileName} {force : Bool}
    {outcome : Outcome} {u : Unit}
    (h : main libraries asMapping legacy directory source destination force outcome =
      (.ok u, after)) :
    ∃ data definition, (asMapping data).Holds (legacyProblem definition) ∧
      InputFixture definition ∧
      (loadProblemDefinition libraries.toLibraries after destination = .ok definition ↔
        WithinLimit libraries definition ∧ NextLinesEscaped definition) := by
  rw [main] at h
  split at h
  · cases h
  next definition hmigrate =>
  obtain ⟨data, hdata⟩ := migrateLegacyFile_ok hmigrate
  obtain ⟨hholds, hinput⟩ := migrateLegacyMapping_ok hdata
  obtain ⟨hended, hafter⟩ := Prod.mk.inj h
  have hwrite : writeMigratedProblem libraries definition directory destination force outcome =
      (.ok u, after) := Prod.ext (mapError_eq_ok.1 hended) hafter
  exact ⟨data, definition, hholds, hinput, load_written_iff hlibraries hwrite⟩

/-! ### Statements with a next line -/

/-- A legacy problem with this statement. -/
def sampleProblem (statement : Text) : LegacyProblem where
  id := "STANDARD-1".toList
  titleJa := "one".toList
  titleEn := "two".toList
  statementJa := statement
  statementEn := "cat".toList
  input := "meow".toList
  expectedOutput := "meow".toList
  answer := "cat".toList

/-- A definition with a statement. -/
def sampleDefinition (statement : Text)
    (h : LocalizedText.validateLocalizedText statement = .ok statement) : ProblemDefinitionV3 where
  id := "STANDARD-1".toList
  category := .standard
  title := ⟨"one".toList, "two".toList, by rfl, by rfl⟩
  statement := ⟨statement, "cat".toList, h, by rfl⟩
  referenceSolution := "cat".toList
  execution :=
    { stdin := []
      fixtures := [⟨inputPath, "meow".toList, by decide, by rfl⟩]
      exitCode := .ignore
      stderr := .merge
      stdin_valid := nil_stdin_valid
      fixtures_length := by decide
      fixtures_valid := by rfl }
  judge := .text { expectedOutput := "meow".toList, expected_output_valid := by rfl }
  id_valid := standard_one_valid
  reference_solution_valid := by rfl
  category_valid := standard_one_category
  judge_valid := by decide

theorem fields_sampleDefinition {statement : Text}
    (h : LocalizedText.validateLocalizedText statement = .ok statement) :
    fields (sampleDefinition statement h) =
      (sampleProblem statement).fields (.text "meow".toList) := rfl

/-- The lines that are written of it, with these for the statement. -/
def sampleLines (statement : List Text) : List Text :=
  ["schema_version: 3".toList, "id: STANDARD-1".toList, "category: STANDARD".toList,
    "title:".toList, "  ja: one".toList, "  en: two".toList, "statement:".toList,
    "  ja: |".toList] ++ statement ++
  ["  en: cat".toList, "reference_solution: cat".toList, "execution:".toList,
    "  stdin: ''".toList, "  fixtures:".toList, "  - path: input.txt".toList,
    "    content: meow".toList, "  exit_code: ignore".toList, "  stderr: merge".toList,
    "judge:".toList, "  type: text".toList, "  expected_output: meow".toList]

/-- Its text, with the statement in a literal block. -/
def sampleText (statement : List Text) : Text :=
  (sampleLines statement).flatMap fun line => line ++ ['\n']

/-- A statement of two lines. -/
def twoLines : Text := "a\nb\n".toList

/-- A next line between two words. -/
def nextLined : Text := ['a', nextLine, 'b', '\n']

/-- The emitter writes the two statements as a literal block. -/
def sampleTexts : KnownTexts where
  entries :=
    [((sampleProblem twoLines).fields (.text "meow".toList),
        sampleText ["    a".toList, "    b".toList]),
      ((sampleProblem nextLined).fields (.text "meow".toList),
        sampleText ["    a".toList ++ nextLine :: "    b".toList])]
  nodup := by decide +kernel
  not_json := by decide +kernel
  lines := by decide +kernel

/-- The packages that write and read these texts. -/
abbrev samplePackages : YamlLibraries := sampleTexts.packages

/-- A directory without files. -/
def emptyDirectory : Directory where
  entries := []
  listable := true
  nodup := List.nodup_nil

/-- The file of the sample. -/
def sampleName : FileName := encode "STANDARD-1.yaml".toList

/-- The directory with the file of a definition. -/
def sampleDirectory (definition : ProblemDefinitionV3) : Directory :=
  put emptyDirectory sampleName (encode (dumpProblemDefinition samplePackages definition))

theorem write_sample {statement : Text}
    (h : LocalizedText.validateLocalizedText statement = .ok statement) :
    writeMigratedProblem samplePackages (sampleDefinition statement h) emptyDirectory sampleName
        false .written = (.ok (), sampleDirectory (sampleDefinition statement h)) := by
  have hname : ¬ (suffix sampleName ≠ yamlSuffix ∨
      stem sampleName ≠ encode "STANDARD-1".toList) := by decide +kernel
  have hnew : ¬ (¬ false = true ∧ sampleName ∈ emptyDirectory.entries.map Prod.fst) := by
    rintro ⟨-, hmem⟩
    cases hmem
  rw [writeMigratedProblem]
  show (if suffix sampleName ≠ yamlSuffix ∨ stem sampleName ≠ encode "STANDARD-1".toList then _
    else _) = _
  rw [if_neg hname, if_neg hnew]
  rfl

theorem migrate_sample {statement : Text}
    (h : LocalizedText.validateLocalizedText statement = .ok statement) :
    migrateLegacyMapping (sampleProblem statement).mapping none =
      .ok (sampleDefinition statement h) := by
  have hjudge : (sampleProblem statement).judge = .ok (.text "meow".toList) := rfl
  exact migrateLegacyMapping_mapping hjudge (fields_sampleDefinition h)

/-- **What is kept of a legacy problem.**  An accepted mapping is what its definition says
of it; the file of the definition is loaded as the definition exactly when each text
with a next line can only be written in double quotes; and every definition comes back
exactly when that holds and it is small enough. -/
theorem migration_lossless_iff {libraries : YamlLibraries} (hlibraries : libraries.Documented) :
    (∀ data sourceId definition, migrateLegacyMapping data sourceId = .ok definition →
      (data.Holds (legacyProblem definition) ∧ InputFixture definition) ∧
      ∀ directory destination overwrite outcome after,
        writeMigratedProblem libraries definition directory destination overwrite outcome =
          (.ok (), after) →
        WithinLimit libraries definition →
        (loadProblemDefinition libraries.toLibraries after destination = .ok definition ↔
          NextLinesEscaped definition)) ∧
    ∀ definition source,
      parseProblemDefinition libraries.toLibraries (dumpProblemDefinition libraries definition)
          source = .ok definition ↔
        WithinLimit libraries definition ∧ NextLinesEscaped definition := by
  refine ⟨?_, parse_dump_iff hlibraries⟩
  intro data sourceId definition hmigrate
  refine ⟨migrateLegacyMapping_ok hmigrate, ?_⟩
  intro directory destination overwrite outcome after hwrite hlimit
  rw [load_written_iff hlibraries hwrite, and_iff_right hlimit]

/-- A statement of two lines is kept. -/
theorem migration_lossless_iff_lines :
    loadProblemDefinition samplePackages.toLibraries
        (sampleDirectory (sampleDefinition twoLines (by rfl))) sampleName =
      .ok (sampleDefinition twoLines (by rfl)) := by
  have hlimit : WithinLimit samplePackages (sampleDefinition twoLines (by rfl)) := by
    rw [WithinLimit]
    decide +kernel
  have hescaped : NextLinesEscaped (sampleDefinition twoLines (by rfl)) := by decide +kernel
  exact ((migration_lossless_iff sampleTexts.packages_documented).1 _ none _
    (migrate_sample (by rfl))).2 _ _ false .written _ (write_sample (by rfl)) hlimit |>.2 hescaped

/-- A next line in a statement is not: it is an end of line in the definition that is
loaded. -/
theorem next_line_lost :
    migrateLegacyMapping (sampleProblem nextLined).mapping none =
        .ok (sampleDefinition nextLined (by rfl)) ∧
      writeMigratedProblem samplePackages (sampleDefinition nextLined (by rfl)) emptyDirectory
          sampleName false .written =
        (.ok (), sampleDirectory (sampleDefinition nextLined (by rfl))) ∧
      WithinLimit samplePackages (sampleDefinition nextLined (by rfl)) ∧
      loadProblemDefinition samplePackages.toLibraries
          (sampleDirectory (sampleDefinition nextLined (by rfl))) sampleName =
        .ok (sampleDefinition twoLines (by rfl)) ∧
      sampleDefinition nextLined (by rfl) ≠ sampleDefinition twoLines (by rfl) := by
  have hlimit : WithinLimit samplePackages (sampleDefinition nextLined (by rfl)) := by
    rw [WithinLimit]
    decide +kernel
  have hread : fields (sampleDefinition twoLines (by rfl)) =
      samplePackages.readBack (fields (sampleDefinition nextLined (by rfl))) := by
    decide +kernel
  refine ⟨migrate_sample _, write_sample _, hlimit, ?_, ?_⟩
  · exact (load_written sampleTexts.packages_documented (write_sample (by rfl)) _).2
      ⟨⟨hlimit, hread⟩, rfl⟩
  · intro heq
    exact absurd (congrArg (fun definition => definition.statement.ja) heq) (by decide)

end ProblemMigration
