/-
What the problem revision identifies (soj_shared/problem_repository.py).

`model_dump` gives the fields of a definition in the order of their declaration,
and `json.dumps` sorts the keys of every object; the records are sorted by their
IDs.  The text that is hashed is therefore the same for every order of the fields
and of the records.

* `canonicalData_eq` — the sorted dump is the canonical data of the records;
* `sortedRecords_eq_of_mem` — the order of the records depends on their set only;
* `revision_identifies` — and the revision tells any two sets of records apart.
-/
import Mathlib.Data.List.Sort
import ShellgeiOnlineJudge.ProblemData

namespace Json

open Utf8

mutual

/-- `sort_keys=True` -/
def Value.sortKeys : Value → Value
  | .null => .null
  | .bool b => .bool b
  | .number d => .number d
  | .string text => .string text
  | .array items => .array (sortItems items)
  | .object members => .object ((sortMembers members).insertionSort fun m n => m.1 ≤ n.1)
termination_by structural v => v

/-- Sort the keys in each item. -/
def sortItems : List Value → List Value
  | [] => []
  | v :: rest => v.sortKeys :: sortItems rest
termination_by structural l => l

/-- Sort the keys in the value of each member. -/
def sortMembers : List (Text × Value) → List (Text × Value)
  | [] => []
  | m :: rest => sortMember m :: sortMembers rest
termination_by structural l => l

/-- Sort the keys in the value of a member. -/
def sortMember : Text × Value → Text × Value
  | (key, v) => (key, v.sortKeys)
termination_by structural m => m

end

theorem sortItems_eq_map (items : List Value) : sortItems items = items.map Value.sortKeys := by
  induction items with
  | nil => rfl
  | cons v rest ih => rw [sortItems, ih, List.map_cons]

end Json

namespace ProblemData

open Utf8 Problem
open Json (Value)

/-! ### The dump of a record, in the order of the declarations -/

/-- `model_dump` of a localized text -/
def dumpLocalizedText (text : LocalizedText) : Value :=
  .object [("ja".toList, .string text.ja), ("en".toList, .string text.en)]

/-- `model_dump` of a fixture -/
def dumpFixture (fixture : FixtureDefinition) : Value :=
  .object [("path".toList, .string fixture.path), ("content".toList, .string fixture.content)]

/-- `model_dump` of an execution -/
def dumpExecution (execution : ExecutionSpecification) : Value :=
  .object
    [("stdin".toList, .string execution.stdin),
      ("fixtures".toList, .array (execution.fixtures.map dumpFixture)),
      ("exit_code".toList, exitCodeValue execution.exitCode),
      ("stderr".toList, stderrValue execution.stderr)]

/-- `model_dump` of an artifact -/
def dumpArtifact (artifact : ImageArtifactSpecification) : Value :=
  .object
    [("path".toList, .string artifact.path),
      ("media_type".toList, .string artifact.mediaType.value),
      ("max_bytes".toList, .int artifact.maxBytes)]

/-- `model_dump` of a judge -/
def dumpJudge : JudgeSpecification → Value
  | .text specification =>
    .object
      [("type".toList, .string "text".toList),
        ("expected_output".toList, .string specification.expectedOutput)]
  | .image artifact =>
    .object
      [("type".toList, .string "image".toList),
        ("comparison".toList, .string "exact_pixels".toList),
        ("artifact".toList, dumpArtifact artifact)]

/-- `definition.model_dump(mode="json")` -/
def modelDump (definition : ProblemDefinitionV3) : Value :=
  .object
    [("schema_version".toList, .int problemSchemaVersion),
      ("id".toList, .string definition.id),
      ("category".toList, .string definition.category.text),
      ("title".toList, dumpLocalizedText definition.title),
      ("statement".toList, dumpLocalizedText definition.statement),
      ("reference_solution".toList, .string definition.referenceSolution),
      ("execution".toList, dumpExecution definition.execution),
      ("judge".toList, dumpJudge definition.judge)]

/-- `canonical_data` of `calculate_problem_revision` -/
def dumpedData (records : List ProblemRecord) : Value :=
  .object
    [("problem_schema_version".toList, .int problemSchemaVersion),
      ("problems".toList, .array ((sortedRecords records).map fun record =>
        .object
          [("definition".toList, modelDump record.definition),
            ("answer_image_sha256".toList, .string (Sha256.hexdigest record.answerImage))]))]

theorem sortKeys_dumpLocalizedText (text : LocalizedText) :
    (dumpLocalizedText text).sortKeys = localizedTextValue text := by
  rfl

theorem sortKeys_dumpFixture (fixture : FixtureDefinition) :
    (dumpFixture fixture).sortKeys = fixtureValue fixture := by
  rfl

theorem sortKeys_dumpArtifact (artifact : ImageArtifactSpecification) :
    (dumpArtifact artifact).sortKeys = artifactValue artifact := by
  rfl

theorem sortKeys_dumpExecution (execution : ExecutionSpecification) :
    (dumpExecution execution).sortKeys = executionValue execution := by
  have hfixtures : Json.sortItems (execution.fixtures.map dumpFixture) =
      execution.fixtures.map fixtureValue := by
    rw [Json.sortItems_eq_map, List.map_map]
    exact List.map_congr_left fun fixture _ => sortKeys_dumpFixture fixture
  have hexit : (exitCodeValue execution.exitCode).sortKeys = exitCodeValue execution.exitCode := by
    cases execution.exitCode <;> rfl
  have hstderr : (stderrValue execution.stderr).sortKeys = stderrValue execution.stderr := by
    cases execution.stderr <;> rfl
  rw [executionValue, ← hfixtures, ← hexit, ← hstderr]
  rfl

theorem sortKeys_dumpJudge (judge : JudgeSpecification) :
    (dumpJudge judge).sortKeys = judgeValue judge := by
  cases judge with
  | text specification => rfl
  | image artifact =>
    rw [judgeValue, ← sortKeys_dumpArtifact]
    rfl

theorem sortKeys_modelDump (definition : ProblemDefinitionV3) :
    (modelDump definition).sortKeys = definitionValue definition := by
  rw [definitionValue, ← sortKeys_dumpLocalizedText, ← sortKeys_dumpLocalizedText,
    ← sortKeys_dumpExecution, ← sortKeys_dumpJudge]
  rfl

/-- The sorted dump is what `canonicalPayload` writes. -/
theorem canonicalData_eq (records : List ProblemRecord) :
    canonicalData records = (dumpedData records).sortKeys := by
  have hrecord : ∀ record : ProblemRecord, recordValue record = (Value.object
      [("definition".toList, modelDump record.definition),
        ("answer_image_sha256".toList,
          .string (Sha256.hexdigest record.answerImage))]).sortKeys := by
    intro record
    rw [recordValue, ← sortKeys_modelDump]
    rfl
  have hrecords := List.map_congr_left fun record (_ : record ∈ sortedRecords records) =>
    hrecord record
  rw [canonicalData, hrecords]
  show _ = Value.object [_, ("problems".toList, Value.array (Json.sortItems _))]
  rw [Json.sortItems_eq_map, List.map_map]
  rfl

/-! ### Sets of records -/

/-- Records with distinct IDs have one order. -/
theorem sortedRecords_eq_of_mem {a b : List ProblemRecord}
    (ha : (a.map (·.definition.id)).Nodup) (hb : (b.map (·.definition.id)).Nodup)
    (h : ∀ record, record ∈ a ↔ record ∈ b) : sortedRecords a = sortedRecords b := by
  have hperm : a.Perm b :=
    (List.perm_ext_iff_of_nodup ha.of_map hb.of_map).2 h
  have hsorted : ∀ records : List ProblemRecord, (sortedRecords records).Pairwise
      fun r s => r.definition.id ≤ s.definition.id :=
    pairwise_mergeSort_text fun record : ProblemRecord => record.definition.id
  refine List.Perm.eq_of_pairwise ?_ (hsorted a) (hsorted b)
    ((sortedRecords_perm a).trans (hperm.trans (sortedRecords_perm b).symm))
  intro r s hr hs hrs hsr
  have hr : r ∈ a := (sortedRecords_perm a).mem_iff.1 hr
  have hs : s ∈ a := (h s).2 ((sortedRecords_perm b).mem_iff.1 hs)
  exact List.inj_on_of_nodup_map ha hr hs (le_antisymm hrs hsr)

/-- SHA-256 tells the data of two lists apart, and their images. -/
structure Distinguished (a b : List ProblemRecord) : Prop where
  payload : Sha256.hexdigest (canonicalPayload a) = Sha256.hexdigest (canonicalPayload b) →
    canonicalPayload a = canonicalPayload b
  image : ∀ r ∈ a, ∀ s ∈ b, Sha256.hexdigest r.answerImage = Sha256.hexdigest s.answerImage →
    r.answerImage = s.answerImage

theorem canonicalPayload_eq_of_mem {a b : List ProblemRecord}
    (ha : (a.map (·.definition.id)).Nodup) (hb : (b.map (·.definition.id)).Nodup)
    (h : ∀ record, record ∈ a ↔ record ∈ b) : canonicalPayload a = canonicalPayload b := by
  rw [canonicalPayload, canonicalPayload, canonicalData, canonicalData,
    sortedRecords_eq_of_mem ha hb h]

/-- **The revision identifies the judged data**: it is the same for the same set
of records, in any order, and different for any other set; so a record that is
changed anywhere changes it. -/
theorem revision_identifies {a b : List ProblemRecord}
    (ha : (a.map (·.definition.id)).Nodup) (hb : (b.map (·.definition.id)).Nodup)
    (hsha : Distinguished a b) :
    (calculateProblemRevision a = calculateProblemRevision b ↔
      ∀ record, record ∈ a ↔ record ∈ b) ∧
    ∀ before after record changed, a = before ++ record :: after →
      b = before ++ changed :: after → changed ≠ record →
      calculateProblemRevision a ≠ calculateProblemRevision b := by
  have hiff : calculateProblemRevision a = calculateProblemRevision b ↔
      ∀ record, record ∈ a ↔ record ∈ b := by
    constructor
    · intro h
      exact mem_iff_of_sortedRecords (sortedRecords_eq_of_calculated hsha.payload hsha.image h)
    · intro h
      simp only [calculateProblemRevision, canonicalPayload_eq_of_mem ha hb h]
  refine ⟨hiff, ?_⟩
  intro before after record changed hrecord hchanged hne h
  have hmem : record ∈ b := by
    refine (hiff.1 h record).1 ?_
    rw [hrecord]
    exact List.mem_append_right before List.mem_cons_self
  rw [hchanged, List.mem_append, List.mem_cons] at hmem
  -- no other record of the list is the one that was changed
  have hnodup := ha.of_map
  rw [hrecord, List.nodup_middle, List.nodup_cons, List.mem_append] at hnodup
  rcases hmem with hmem | rfl | hmem
  · exact hnodup.1 (.inl hmem)
  · exact hne rfl
  · exact hnodup.1 (.inr hmem)

/-- A problem whose expected output is its input. -/
def echoProblem : ProblemRecord where
  definition :=
    { silentProblem.definition with
      id := "STANDARD-2".toList
      execution :=
        { silentProblem.definition.execution with
          stdin := ['a']
          stdin_valid := by rfl }
      judge := .text { expectedOutput := ['a'], expected_output_valid := by rfl }
      id_valid := standard_two_valid
      category_valid := by decide
      judge_valid := by decide }
  answerImage := [0xff]

theorem distinguished_echo :
    Distinguished [silentProblem, echoProblem] [echoProblem, silentProblem] := by
  have hdigest : Sha256.hexdigest silentProblem.answerImage ≠
      Sha256.hexdigest echoProblem.answerImage := by
    decide +kernel
  constructor
  · intro _
    refine canonicalPayload_eq_of_mem (by decide) (by decide) fun record => ?_
    rw [List.mem_pair, List.mem_pair, or_comm]
  · intro r hr s hs heq
    rw [List.mem_pair] at hr hs
    rcases hr with rfl | rfl
    · rcases hs with rfl | rfl
      · exact absurd heq hdigest
      · rfl
    · rcases hs with rfl | rfl
      · rfl
      · exact absurd heq.symm hdigest

theorem revision_identifies_reversed : calculateProblemRevision [silentProblem, echoProblem] =
    calculateProblemRevision [echoProblem, silentProblem] := by
  refine (revision_identifies (by decide) (by decide) distinguished_echo).1.2 fun record => ?_
  rw [List.mem_pair, List.mem_pair, or_comm]

end ProblemData
