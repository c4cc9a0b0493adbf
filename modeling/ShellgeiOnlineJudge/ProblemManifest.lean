/-
The manifest of the problem data (soj_tools/problem_manifest.py, with the functions of
soj_shared/problem_repository.py that it calls).

* `manifest_accepted_iff` — the loader accepts data with a manifest that the tool has
  written exactly when they are the problems that the tool has seen.
-/
import ShellgeiOnlineJudge.JsonIndent
import ShellgeiOnlineJudge.ProblemLoader
import ShellgeiOnlineJudge.ProblemMigration
import ShellgeiOnlineJudge.RevisionIdentity
import ShellgeiOnlineJudge.SizeBudgets

namespace ProblemManifest

open Utf8 Problem RunnerProtocol ProblemSchema ProblemLoader
open Execution (bind_eq_ok)
open ProblemData (ProblemManifestV1 problemSchemaVersion calculateProblemRevision Distinguished)
open Json (Value)

/-! ### The tool -/

/-- `PROBLEM_MANIFEST_VERSION` -/
def problemManifestVersion : ℤ := 1

/-- `manifest.model_dump(mode="json")` -/
def manifestValue (manifest : ProblemManifestV1) : Value :=
  .object
    [("manifest_version".toList, .int problemManifestVersion),
      ("problem_schema_version".toList, .int problemSchemaVersion),
      ("problem_count".toList, .int manifest.problemCount),
      ("revision".toList, .string manifest.revision.text)]

/-- `render_problem_manifest` -/
def renderProblemManifest (manifest : ProblemManifestV1) : Text :=
  (manifestValue manifest).indented 0 ++ ['\n']

/-- `main`, with what it writes -/
def main (libraries : Libraries) (files : ProblemFiles) :
    Except (Raised ProblemLoader.ProblemRepositoryError) Text := do
  let records ← collectProblemRecords libraries files
  let manifest ← buildProblemManifest records
  .ok (renderProblemManifest manifest)

/-- What is known of pydantic and of the JSON reader: a model validates what it has dumped,
and an object with four members is not nested too deep. -/
structure Documented (libraries : Libraries) : Prop where
  validateManifest : ∀ manifest, libraries.validateManifest (manifestValue manifest) =
    some manifest
  tooDeep : ∀ manifest, libraries.tooDeep (renderProblemManifest manifest) = false

/-! ### What is written -/

theorem parse_renderProblemManifest (manifest : ProblemManifestV1) :
    Json.parse (renderProblemManifest manifest) = some (manifestValue manifest) := by
  refine Json.parse_indented _ ?_
  intro c hc
  rw [List.mem_singleton.1 hc]
  decide

theorem uniqueKeys_manifestValue (manifest : ProblemManifestV1) :
    (manifestValue manifest).uniqueKeys = true := by
  rfl

/-- What stands before the number of the problems. -/
def manifestFront : Text :=
  "\x7b\n  \"manifest_version\": 1,\n  \"problem_schema_version\": 3,\n  \"problem_count\": ".toList

/-- What stands before the revision. -/
def manifestMiddle : Text := ",\n  \"revision\": ".toList

/-- What stands behind it. -/
def manifestEnd : Text := "\n\x7d\n".toList

set_option maxRecDepth 4000 in
theorem renderProblemManifest_eq (manifest : ProblemManifestV1) :
    renderProblemManifest manifest = manifestFront ++ (Json.int manifest.problemCount ++
      (manifestMiddle ++ (Json.string manifest.revision.text ++ manifestEnd))) := by
  have hlines : (manifestValue manifest).indented 0 = '\x7b' :: (Json.lines 0
      [Json.string "manifest_version".toList ++ ':' :: ' ' :: Json.int 1,
        Json.string "problem_schema_version".toList ++ ':' :: ' ' :: Json.int 3,
        Json.string "problem_count".toList ++ ':' :: ' ' :: Json.int manifest.problemCount,
        Json.string "revision".toList ++ ':' :: ' ' :: Json.string manifest.revision.text] ++
      ['\x7d']) := rfl
  rw [renderProblemManifest, hlines, Json.lines]
  simp only [List.intercalate_cons_cons, List.intercalate_singleton, List.append_assoc,
    List.cons_append, List.nil_append]
  rfl

theorem size_renderProblemManifest (manifest : ProblemManifestV1) {n : ℕ} (hn : 0 < n)
    (h : manifest.problemCount < 10 ^ n) :
    (encode (renderProblemManifest manifest)).length ≤ n + 163 := by
  have hdigits : (Json.digits (manifest.problemCount : ℤ)).length ≤ n := by
    refine (Nat.length_toDigits_le_iff (by decide) hn).2 ?_
    rw [Int.natAbs_natCast]
    exact h
  have hcount := Json.size_int_le manifest.problemCount
  have hrevision := SizeBudgets.size_hex manifest.revision.hex
  have hlength : manifest.revision.text.length = 64 := manifest.revision.length_eq
  have hfront : Json.size manifestFront = 77 := by decide +kernel
  have hmiddle : Json.size manifestMiddle = 16 := by decide +kernel
  have hend : Json.size manifestEnd = 3 := by decide +kernel
  show Json.size (renderProblemManifest manifest) ≤ n + 163
  rw [renderProblemManifest_eq, Json.size_append, Json.size_append, Json.size_append,
    Json.size_append]
  omega

/-! ### What the loader makes of it -/

section

variable {libraries : Libraries} {seen other : ProblemFiles} {written : Text}

theorem main_ok (h : main libraries seen = .ok written) : ∃ records manifest,
    collectProblemRecords libraries seen = .ok records ∧ records ≠ [] ∧
      manifest.problemCount = records.length ∧
      manifest.revision = calculateProblemRevision records ∧
      written = renderProblemManifest manifest := by
  obtain ⟨records, hrecords, h⟩ := bind_eq_ok.1 h
  obtain ⟨manifest, hmanifest, h⟩ := bind_eq_ok.1 h
  obtain ⟨hne, hcount, hrevision⟩ := buildProblemManifest_ok hmanifest
  exact ⟨records, manifest, hrecords, hne, hcount, hrevision, (Except.ok.inj h).symm⟩

/-- What the tool has written is read as it was. -/
theorem loadManifest_rendered (hdoc : Documented libraries) {manifest : ProblemManifestV1}
    (hcount : manifest.problemCount < 2 ^ 64)
    (h : other.manifest = some (encode (renderProblemManifest manifest))) :
    loadManifest libraries other = .ok manifest := by
  have hsize : (encode (renderProblemManifest manifest)).length ≤ 20 + 163 :=
    size_renderProblemManifest manifest (by decide) (lt_of_lt_of_le hcount (by decide))
  have hfits : ¬ maxProblemManifestBytes < (encode (renderProblemManifest manifest)).length := by
    rw [maxProblemManifestBytes]
    omega
  have hdecode : decodeUtf8 (encode (renderProblemManifest manifest)) =
      some (renderProblemManifest manifest) := by
    rw [decodeUtf8, decode_encode, if_pos rfl]
  have hdeep : ¬ libraries.tooDeep (renderProblemManifest manifest) = true := by
    simp [hdoc.tooDeep]
  simp only [loadManifest, h, if_neg hfits, hdecode, if_neg hdeep, parse_renderProblemManifest,
    Option.bind_some, uniqueKeys_manifestValue, if_true, hdoc.validateManifest]

theorem collect_nodup {records : List ProblemRecord}
    (h : collectProblemRecords libraries seen = .ok records) :
    (records.map (·.definition.id)).Nodup :=
  loadRecords_nodup (collectProblemRecords_ok.1 h).2.2.2.1

theorem length_collect {records : List ProblemRecord}
    (h : collectProblemRecords libraries seen = .ok records) :
    records.length = (definitionPaths seen).length := by
  have hpaths := congrArg List.length (loadRecords_ok (collectProblemRecords_ok.1 h).2.2.2.1)
  rwa [List.length_map, List.length_map] at hpaths

/-- The repository that is built when the manifest fits the records. -/
theorem buildProblemRepository_of_manifest {records : List ProblemRecord}
    {manifest : ProblemManifestV1} (hmanifest : loadManifest libraries other = .ok manifest)
    (hrecords : collectProblemRecords libraries other = .ok records) :
    (∃ repository, buildProblemRepository libraries other = .ok repository) ↔
      manifest.problemCount = records.length ∧
        manifest.revision = calculateProblemRevision records := by
  -- records that were collected are not empty, so a manifest can be calculated
  have hne : records ≠ [] := by
    intro hnil
    obtain ⟨-, hpaths, -, hloaded, -⟩ := collectProblemRecords_ok.1 hrecords
    exact hpaths ((loadRecords_eq_nil hloaded).1 hnil)
  constructor
  · rintro ⟨repository, h⟩
    obtain ⟨records', hrecords', h⟩ := bind_eq_ok.1 h
    obtain ⟨manifest', hmanifest', h⟩ := bind_eq_ok.1 h
    obtain ⟨calculated, hcalculated, h⟩ := bind_eq_ok.1 h
    obtain rfl := Except.ok.inj (hrecords.symm.trans hrecords')
    obtain rfl := Except.ok.inj (hmanifest.symm.trans hmanifest')
    obtain ⟨-, hcount, hrevision⟩ := buildProblemManifest_ok hcalculated
    split at h
    · cases h
    next hsame =>
    rw [← hcount, ← hrevision]
    exact not_not.1 hsame
  · intro hsame
    have hdefinitions : records.map (·.definition) ≠ [] := mt List.map_eq_nil_iff.1 hne
    obtain ⟨catalog, hcatalog, -⟩ := buildProblemCatalog_ok hdefinitions
    refine ⟨⟨recordMapping records, manifest.revision, catalog⟩, bind_eq_ok.2 ⟨records, hrecords,
      bind_eq_ok.2 ⟨manifest, hmanifest,
        bind_eq_ok.2 ⟨_, dif_pos (List.length_pos_iff.2 hne), ?_⟩⟩⟩⟩
    rw [if_neg (not_not.2 hsame), hcatalog]
    rfl

/-- **The manifest fits what it was written for**: the loader accepts data with a manifest
of the tool exactly when they are the same set of problems. -/
theorem manifest_accepted_iff (hdoc : Documented libraries)
    (hwritten : main libraries seen = .ok written)
    (hcount : (definitionPaths seen).length < 2 ^ 64)
    (hother : other.manifest = some (encode written))
    (hsha : ∀ records records', collectProblemRecords libraries seen = .ok records →
      collectProblemRecords libraries other = .ok records' → Distinguished records records') :
    (∃ repository, buildProblemRepository libraries other = .ok repository) ↔
      ∃ records records', collectProblemRecords libraries seen = .ok records ∧
        collectProblemRecords libraries other = .ok records' ∧
        ∀ record, record ∈ records ↔ record ∈ records' := by
  obtain ⟨records, manifest, hrecords, hne, hlength, hrevision, rfl⟩ := main_ok hwritten
  have hmanifest := loadManifest_rendered hdoc
    (by rwa [hlength, length_collect hrecords]) hother
  have hnodup := collect_nodup hrecords
  constructor
  · rintro ⟨repository, h⟩
    obtain ⟨records', hrecords', -⟩ := bind_eq_ok.1 h
    have hdistinguished := hsha records records' hrecords hrecords'
    obtain ⟨-, hsame⟩ := (buildProblemRepository_of_manifest hmanifest hrecords').1 ⟨repository, h⟩
    refine ⟨records, records', hrecords, hrecords', ?_⟩
    exact ProblemData.mem_iff_of_sortedRecords (ProblemData.sortedRecords_eq_of_calculated
      hdistinguished.payload hdistinguished.image (hrevision.symm.trans hsame))
  · rintro ⟨records₀, records', hrecords₀, hrecords', hmem⟩
    obtain rfl := Except.ok.inj (hrecords.symm.trans hrecords₀)
    have hnodup' := collect_nodup hrecords'
    refine (buildProblemRepository_of_manifest hmanifest hrecords').2 ⟨?_, ?_⟩
    · rw [hlength]
      exact ((List.perm_ext_iff_of_nodup hnodup.of_map hnodup'.of_map).2 hmem).length_eq
    · rw [hrevision]
      simp only [calculateProblemRevision,
        ProblemData.canonicalPayload_eq_of_mem hnodup hnodup' hmem]

end

/-! ### One problem -/

/-- The lines of the file of a definition. -/
def silentLines : List String :=
  ["schema_version: 3", "id: STANDARD-1", "category: STANDARD", "title:", "  ja: '-'",
    "  en: '-'", "statement:", "  ja: '-'", "  en: '-'", "reference_solution: ':'", "execution:",
    "  stdin: ''", "  fixtures: []", "  exit_code: zero", "  stderr: merge", "judge:",
    "  type: text", "  expected_output: ''"]

/-- The file itself. -/
def silentText : Text := silentLines.flatMap fun line => line.toList ++ ['\n']

/-- The constraints of the fields -/
def buildManifest (count : ℕ) (revision : Text) : Option ProblemManifestV1 :=
  if h : 0 < count ∧ revision.length = problemRevisionLength ∧ revision.all isLowerHex = true then
    some ⟨count, ⟨revision, h.2.1, List.all_eq_true.1 h.2.2⟩, h.1⟩
  else none

/-- `ProblemManifestV1.model_validate` on the members in their order -/
def validateManifest : Value → Option ProblemManifestV1
  | .object [(version, .number one), (schema, .number three), (count, .number n),
      (revision, .string text)] =>
    if version = "manifest_version".toList ∧ one = ⟨1, 0⟩ ∧
        schema = "problem_schema_version".toList ∧ three = ⟨3, 0⟩ ∧
        count = "problem_count".toList ∧ n.exponent = 0 ∧ revision = "revision".toList then
      buildManifest n.mantissa.toNat text
    else none
  | _ => none

/-- The packages on one text -/
def oneLibraries (silent : Text) : Libraries where
  Node := Unit
  Object := Text
  State := Unit
  flattenMapping pairs state := .ok (pairs, state)
  constructObject _ state := .ok ([], state)
  hashable _ := true
  same a b := a = b
  printable _ := true
  isMapping text := text = silent
  load _ text := if text = silent then .ok text else .error (.documented .pyYaml)
  validateDefinition text := if text = silent then some silentProblem.definition else none
  validateManifest
  tooDeep _ := false

theorem nodup_one (name : FileName) (payload : Bytes) :
    ([(name, some payload)].map Prod.fst).Nodup := List.nodup_singleton _

/-- A directory with one file. -/
def oneFile (name : FileName) (payload : Bytes) : Directory where
  entries := [(name, some payload)]
  listable := true
  nodup := nodup_one name payload

/-- The text as the only definition, and its preview -/
def oneFiles (silent : Text) (manifest : Option Bytes) : ProblemFiles where
  definitions := oneFile (encode "STANDARD-1.yaml".toList) (encode silent)
  images := oneFile (encode "STANDARD-1.jpg".toList) [0xff, 0xd8, 0xff, 0xd9]
  manifest

theorem documented_one (silent : Text) : Documented (oneLibraries silent) := by
  refine ⟨fun manifest => ?_, fun _ => rfl⟩
  obtain ⟨count, ⟨revision, hlength, hhex⟩, hcount⟩ := manifest
  have hvalid : 0 < count ∧ revision.length = problemRevisionLength ∧
      revision.all isLowerHex = true := ⟨hcount, hlength, List.all_eq_true.2 hhex⟩
  have hbuild : validateManifest (.object [("manifest_version".toList, .number ⟨1, 0⟩),
      ("problem_schema_version".toList, .number ⟨3, 0⟩),
      ("problem_count".toList, .number ⟨count, 0⟩), ("revision".toList, .string revision)]) =
        buildManifest count revision := by
    rw [validateManifest, if_pos ⟨rfl, rfl, rfl, rfl, rfl, rfl, rfl⟩, Int.toNat_natCast]
  exact hbuild.trans (dif_pos hvalid)

theorem definitionPaths_one (silent : Text) (manifest : Option Bytes) :
    definitionPaths (oneFiles silent manifest) = [encode "STANDARD-1.yaml".toList] := by
  change definitionPaths (oneFiles [] none) = _
  decide +kernel

/-- The only problem of these files -/
def silentRecord : ProblemRecord := ⟨silentProblem.definition, [0xff, 0xd8, 0xff, 0xd9]⟩

section

variable {silent : Text} (hlines : '\r' ∉ silent)
  (hsize : (encode silent).length ≤ maxProblemSchemaFileBytes)

include hlines in
theorem readText_one (manifest : Option Bytes) :
    (oneFiles silent manifest).definitions.readText (encode "STANDARD-1.yaml".toList) =
      some silent := by
  have hread : (oneFiles silent manifest).definitions.read (encode "STANDARD-1.yaml".toList) =
      some (encode silent) := rfl
  rw [Directory.readText, hread, Option.bind_some, decodeUtf8, decode_encode, if_pos rfl,
    Option.map_some, ProblemMigration.universalNewlines_of_not_mem hlines]

include hlines hsize in
theorem loadProblemDefinition_one (manifest : Option Bytes) :
    loadProblemDefinition (oneLibraries silent) (oneFiles silent manifest).definitions
      (encode "STANDARD-1.yaml".toList) = .ok silentProblem.definition := by
  have hyaml : yamlLoad (oneLibraries silent) silent = .ok silent := if_pos rfl
  have hmapping : (oneLibraries silent).isMapping silent = true := decide_eq_true rfl
  have hvalid : (oneLibraries silent).validateDefinition silent =
      some silentProblem.definition := if_pos rfl
  have hstem : encode silentProblem.definition.id = stem (encode "STANDARD-1.yaml".toList) := by
    decide +kernel
  simp only [loadProblemDefinition, readText_one hlines, parseProblemDefinition,
    if_neg (Nat.not_lt.2 hsize), loadYamlMapping, hyaml, if_pos hmapping, hvalid, if_pos hstem]

include hlines hsize in
theorem collect_one (manifest : Option Bytes) :
    collectProblemRecords (oneLibraries silent) (oneFiles silent manifest) =
      .ok [silentRecord] := by
  have hpaths := definitionPaths_one silent manifest
  have hids : definitionIds (oneFiles silent manifest) = imageIds (oneFiles silent manifest) := by
    change definitionIds (oneFiles [] none) = imageIds (oneFiles [] none)
    decide +kernel
  have hgifs : gifIds (oneFiles silent manifest) = expectedGifIds [silentRecord] := by
    change gifIds (oneFiles [] none) = _
    decide +kernel
  have himage : validateImage (oneFiles silent manifest)
      (encode silentProblem.definition.id ++ jpgSuffix) .jpeg =
        .ok [0xff, 0xd8, 0xff, 0xd9] := rfl
  refine collectProblemRecords_ok.2 ⟨⟨rfl, rfl⟩, ?_, ?_, ?_, ?_⟩
  · rw [hpaths]
    exact List.cons_ne_nil _ _
  · rw [hids]
    exact fun _ => Iff.rfl
  · have hdefinition := loadProblemDefinition_one hlines hsize manifest
    rw [hpaths, loadRecords, loadRecord, hdefinition]
    simp only [himage]
    rfl
  · rw [hgifs]
    exact fun _ => Iff.rfl

end

theorem lines_silentText : '\r' ∉ silentText := by decide +kernel

theorem size_silentText : (encode silentText).length ≤ maxProblemSchemaFileBytes := by
  decide +kernel

/-- The manifest of this problem alone. -/
def silentManifest : ProblemManifestV1 :=
  ⟨1, calculateProblemRevision [silentRecord], Nat.one_pos⟩

theorem build_silent : ∃ repository, buildProblemRepository (oneLibraries silentText)
    (oneFiles silentText (some (encode (renderProblemManifest silentManifest)))) =
      .ok repository := by
  have hcount : silentManifest.problemCount < 2 ^ 64 := by decide
  have hmanifest : loadManifest (oneLibraries silentText)
      (oneFiles silentText (some (encode (renderProblemManifest silentManifest)))) =
        .ok silentManifest := loadManifest_rendered (documented_one silentText) hcount rfl
  have hcollect := collect_one lines_silentText size_silentText
    (some (encode (renderProblemManifest silentManifest)))
  exact (buildProblemRepository_of_manifest hmanifest hcollect).2 ⟨rfl, rfl⟩

theorem manifest_accepted_iff_silent :
    ∃ written, main (oneLibraries silentText) (oneFiles silentText none) = .ok written ∧
      ∃ repository, buildProblemRepository (oneLibraries silentText)
        (oneFiles silentText (some (encode written))) = .ok repository := by
  have hlines := lines_silentText
  have hsize := size_silentText
  generalize silentText = silent at hlines hsize ⊢
  have hcollect := collect_one hlines hsize
  obtain ⟨written, hwritten⟩ : ∃ written,
      main (oneLibraries silent) (oneFiles silent none) = .ok written := by
    rw [main, hcollect]
    exact ⟨_, rfl⟩
  refine ⟨written, hwritten, ?_⟩
  have hcount : (definitionPaths (oneFiles silent none)).length < 2 ^ 64 := by
    rw [definitionPaths_one, List.length_singleton]
    decide
  refine (manifest_accepted_iff (documented_one silent) hwritten hcount rfl ?_).2
    ⟨_, _, hcollect _, hcollect _, fun _ => Iff.rfl⟩
  intro records records' h h'
  obtain rfl := Except.ok.inj ((hcollect none).symm.trans h)
  obtain rfl := Except.ok.inj ((hcollect _).symm.trans h')
  refine ⟨fun _ => rfl, fun r hr s hs _ => ?_⟩
  rw [List.mem_singleton.1 hr, List.mem_singleton.1 hs]

end ProblemManifest
