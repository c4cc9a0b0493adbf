/-
The problem data of a process and its revision (soj_shared/problem_repository.py).

The revision is the SHA-256 of the canonical JSON of all records: keys sorted, no
blanks, records in the order of their IDs.

* `LoadedRepository` — the records of a process, with distinct IDs, and their
  revision, as the loader publishes them;
* `get_eq_of_revision` — repositories with one revision have the same records.
-/
import Mathlib.Data.Char
import Mathlib.Data.List.Lex
import ShellgeiOnlineJudge.JsonValue
import ShellgeiOnlineJudge.RunnerProtocol
import ShellgeiOnlineJudge.Sha256

namespace ProblemData

open Utf8 Problem Execution RunnerProtocol
open Json (Value)

/-- `PROBLEM_SCHEMA_VERSION` -/
def problemSchemaVersion : ℤ := 3

/-! ### Definitions as JSON -/

/-- The JSON of an exit code policy. -/
def exitCodeValue : ExitCodePolicy → Value
  | .ignore => .string "ignore".toList
  | .zero => .string "zero".toList

/-- The JSON of a policy for standard error. -/
def stderrValue : StderrPolicy → Value
  | .merge => .string "merge".toList
  | .ignore => .string "ignore".toList
  | .mustBeEmpty => .string "must_be_empty".toList

/-- The canonical JSON of a localized text. -/
def localizedTextValue (text : LocalizedText) : Value :=
  .object [("en".toList, .string text.en), ("ja".toList, .string text.ja)]

/-- The canonical JSON of a fixture. -/
def fixtureValue (fixture : FixtureDefinition) : Value :=
  .object [("content".toList, .string fixture.content), ("path".toList, .string fixture.path)]

/-- The canonical JSON of an execution. -/
def executionValue (execution : ExecutionSpecification) : Value :=
  .object
    [("exit_code".toList, exitCodeValue execution.exitCode),
      ("fixtures".toList, .array (execution.fixtures.map fixtureValue)),
      ("stderr".toList, stderrValue execution.stderr),
      ("stdin".toList, .string execution.stdin)]

/-- The canonical JSON of an artifact. -/
def artifactValue (artifact : ImageArtifactSpecification) : Value :=
  .object
    [("max_bytes".toList, .int artifact.maxBytes),
      ("media_type".toList, .string artifact.mediaType.value),
      ("path".toList, .string artifact.path)]

/-- The canonical JSON of a judge. -/
def judgeValue : JudgeSpecification → Value
  | .text specification =>
    .object
      [("expected_output".toList, .string specification.expectedOutput),
        ("type".toList, .string "text".toList)]
  | .image artifact =>
    .object
      [("artifact".toList, artifactValue artifact),
        ("comparison".toList, .string "exact_pixels".toList),
        ("type".toList, .string "image".toList)]

/-- `record.definition.model_dump(mode="json")`, its keys sorted. -/
def definitionValue (definition : ProblemDefinitionV3) : Value :=
  .object
    [("category".toList, .string definition.category.text),
      ("execution".toList, executionValue definition.execution),
      ("id".toList, .string definition.id),
      ("judge".toList, judgeValue definition.judge),
      ("reference_solution".toList, .string definition.referenceSolution),
      ("schema_version".toList, .int problemSchemaVersion),
      ("statement".toList, localizedTextValue definition.statement),
      ("title".toList, localizedTextValue definition.title)]

/-! ### The revision -/

/-- The canonical JSON of a record, with the digest of its image. -/
def recordValue (record : ProblemRecord) : Value :=
  .object
    [("answer_image_sha256".toList, .string (Sha256.hexdigest record.answerImage)),
      ("definition".toList, definitionValue record.definition)]

/-- `sorted(records, key=lambda item: item.definition.id)` -/
def sortedRecords (records : List ProblemRecord) : List ProblemRecord :=
  records.mergeSort fun a b => decide (a.definition.id ≤ b.definition.id)

/-- Sorting by a text sorts by it. -/
theorem pairwise_mergeSort_text {α : Type} (key : α → Text) (l : List α) :
    (l.mergeSort fun a b => decide (key a ≤ key b)).Pairwise fun a b => key a ≤ key b := by
  refine (List.pairwise_mergeSort ?_ ?_ l).imp fun hab => of_decide_eq_true hab
  · intro a b c hab hbc
    rw [decide_eq_true_iff] at hab hbc ⊢
    exact le_trans hab hbc
  · intro a b
    rw [Bool.or_eq_true, decide_eq_true_iff, decide_eq_true_iff]
    exact le_total (key a) (key b)

/-- What `calculate_problem_revision` hashes. -/
def canonicalData (records : List ProblemRecord) : Value :=
  .object
    [("problem_schema_version".toList, .int problemSchemaVersion),
      ("problems".toList, .array ((sortedRecords records).map recordValue))]

/-- The bytes that the revision is the digest of. -/
def canonicalPayload (records : List ProblemRecord) : Bytes := encode (canonicalData records).write

theorem isLowerHex_of_mem_hexdigest {message : Bytes} {c : Char}
    (h : c ∈ Sha256.hexdigest message) : isLowerHex c = true := by
  obtain ⟨n, hn, rfl⟩ := Sha256.hex_hexdigest h
  exact isLowerHex_digitChar hn

/-- `calculate_problem_revision` -/
def calculateProblemRevision (records : List ProblemRecord) : ProblemRevision where
  text := Sha256.hexdigest (canonicalPayload records)
  length_eq := Sha256.length_hexdigest _
  hex _ hc := isLowerHex_of_mem_hexdigest hc

/-! ### The loaded records -/

/-- `ProblemManifestV1`; its versions are 1 and 3. -/
structure ProblemManifestV1 where
  problemCount : ℕ
  revision : ProblemRevision
  problem_count_pos : 0 < problemCount

/-- The signature of the declared format. -/
def matchesMediaType (payload : Bytes) : ImageMediaType → Bool
  | .jpeg => 4 ≤ payload.length && [0xff, 0xd8].isPrefixOf payload &&
      [0xff, 0xd9].isSuffixOf payload
  | .gif => 7 ≤ payload.length &&
      (payload.take 6 = encode "GIF87a".toList || payload.take 6 = encode "GIF89a".toList) &&
      (encode [';']).isSuffixOf payload

/-- Whether the answer of a problem is a GIF of its own. -/
def hasGif (definition : ProblemDefinitionV3) : Bool :=
  match definition.judge with
  | .image artifact => artifact.mediaType = .gif
  | .text _ => false

/-- A verified `ProblemRepository` with its revision. -/
structure LoadedRepository where
  records : ProblemRepository
  revision : ProblemRevision
  nodup : (records.map (·.definition.id)).Nodup
  revision_eq : revision = calculateProblemRevision records

/-- `ProblemRepository.get` -/
def LoadedRepository.get (repository : LoadedRepository) (problemId : Text) :
    Option ProblemRecord :=
  repository.records.get problemId

/-! ### What the revision determines -/

theorem exitCodeValue_injective {a b : ExitCodePolicy} (h : exitCodeValue a = exitCodeValue b) :
    a = b := by
  cases a with
  | ignore => cases b with
    | ignore => rfl
    | zero => simp [exitCodeValue] at h
  | zero => cases b with
    | ignore => simp [exitCodeValue] at h
    | zero => rfl

theorem stderrValue_injective {a b : StderrPolicy} (h : stderrValue a = stderrValue b) :
    a = b := by
  cases a <;> cases b <;> simp_all [stderrValue]

theorem ImageMediaType.value_injective {a b : ImageMediaType} (h : a.value = b.value) : a = b := by
  revert h
  cases a <;> cases b <;> decide

theorem ProblemCategory.text_injective {a b : ProblemCategory} (h : a.text = b.text) : a = b := by
  revert h
  cases a <;> cases b <;> decide

theorem localizedTextValue_injective {a b : LocalizedText}
    (h : localizedTextValue a = localizedTextValue b) : a = b := by
  obtain ⟨ja, en, _, _⟩ := a
  obtain ⟨ja', en', _, _⟩ := b
  simp only [localizedTextValue, Value.object.injEq, List.cons.injEq, Prod.mk.injEq,
    Value.string.injEq, true_and, and_true] at h
  obtain ⟨rfl, rfl⟩ := h
  rfl

theorem fixtureValue_injective {a b : FixtureDefinition} (h : fixtureValue a = fixtureValue b) :
    a = b := by
  obtain ⟨path, content, _, _⟩ := a
  obtain ⟨path', content', _, _⟩ := b
  simp only [fixtureValue, Value.object.injEq, List.cons.injEq, Prod.mk.injEq,
    Value.string.injEq, true_and, and_true] at h
  obtain ⟨rfl, rfl⟩ := h
  rfl

theorem executionValue_injective {a b : ExecutionSpecification}
    (h : executionValue a = executionValue b) : a = b := by
  obtain ⟨stdin, fixtures, exitCode, stderr, _, _, _⟩ := a
  obtain ⟨stdin', fixtures', exitCode', stderr', _, _, _⟩ := b
  simp only [executionValue, Value.object.injEq, List.cons.injEq, Prod.mk.injEq,
    Value.string.injEq, Value.array.injEq, true_and, and_true] at h
  obtain ⟨hexit, hfixtures, hstderr, rfl⟩ := h
  obtain rfl := exitCodeValue_injective hexit
  obtain rfl := stderrValue_injective hstderr
  obtain rfl := List.map_injective_iff.2 (fun _ _ => fixtureValue_injective) hfixtures
  rfl

theorem artifactValue_injective {a b : ImageArtifactSpecification}
    (h : artifactValue a = artifactValue b) : a = b := by
  obtain ⟨path, mediaType, maxBytes, _, _, _⟩ := a
  obtain ⟨path', mediaType', maxBytes', _, _, _⟩ := b
  simp only [artifactValue, Value.object.injEq, List.cons.injEq, Prod.mk.injEq,
    Value.string.injEq, Value.number.injEq, Json.Decimal.mk.injEq, Int.natCast_inj, true_and,
    and_true] at h
  obtain ⟨rfl, hmedia, rfl⟩ := h
  obtain rfl := ImageMediaType.value_injective hmedia
  rfl

theorem judgeValue_injective {a b : JudgeSpecification} (h : judgeValue a = judgeValue b) :
    a = b := by
  cases a with
  | text a =>
    cases b with
    | text b =>
      obtain ⟨expected, _⟩ := a
      obtain ⟨expected', _⟩ := b
      simp only [judgeValue, Value.object.injEq, List.cons.injEq, Prod.mk.injEq,
        Value.string.injEq, true_and, and_true] at h
      obtain rfl := h
      rfl
    | image b => simp [judgeValue] at h
  | image a =>
    cases b with
    | text b => simp [judgeValue] at h
    | image b =>
      simp only [judgeValue, Value.object.injEq, List.cons.injEq, Prod.mk.injEq, true_and,
        and_true] at h
      obtain rfl := artifactValue_injective h
      rfl

theorem definitionValue_injective {a b : ProblemDefinitionV3}
    (h : definitionValue a = definitionValue b) : a = b := by
  obtain ⟨id, category, title, statement, solution, execution, judge, _, _, _, _⟩ := a
  obtain ⟨id', category', title', statement', solution', execution', judge', _, _, _, _⟩ := b
  simp only [definitionValue, Value.object.injEq, List.cons.injEq, Prod.mk.injEq,
    Value.string.injEq, true_and, and_true] at h
  obtain ⟨hcategory, hexecution, rfl, hjudge, rfl, hstatement, htitle⟩ := h
  obtain rfl := ProblemCategory.text_injective hcategory
  obtain rfl := executionValue_injective hexecution
  obtain rfl := judgeValue_injective hjudge
  obtain rfl := localizedTextValue_injective hstatement
  obtain rfl := localizedTextValue_injective htitle
  rfl

/-- All that is hashed for the revision of the records. -/
def hashed (records : List ProblemRecord) : List Bytes :=
  canonicalPayload records :: records.map (·.answerImage)

/-- SHA-256 tells the data of two processes apart. -/
def CollisionFree (a b : LoadedRepository) : Prop :=
  ∀ x ∈ hashed a.records, ∀ y ∈ hashed b.records, Sha256.hexdigest x = Sha256.hexdigest y → x = y

theorem map_recordValue_injective {a b : List ProblemRecord}
    (hdigest : ∀ r ∈ a, ∀ s ∈ b,
      Sha256.hexdigest r.answerImage = Sha256.hexdigest s.answerImage →
        r.answerImage = s.answerImage)
    (h : a.map recordValue = b.map recordValue) : a = b := by
  induction a generalizing b with
  | nil => exact (List.map_eq_nil_iff.1 h.symm).symm
  | cons r a ih =>
    cases b with
    | nil => cases h
    | cons s b =>
      obtain ⟨hhead, htail⟩ := List.cons.inj h
      obtain ⟨definition, image⟩ := r
      obtain ⟨definition', image'⟩ := s
      simp only [recordValue, Value.object.injEq, List.cons.injEq, Prod.mk.injEq,
        Value.string.injEq, true_and, and_true] at hhead
      obtain rfl := definitionValue_injective hhead.2
      obtain rfl : image = image' :=
        hdigest ⟨definition, image⟩ List.mem_cons_self ⟨definition, image'⟩ List.mem_cons_self
          hhead.1
      rw [ih (fun r hr s hs => hdigest r (List.mem_cons_of_mem _ hr) s
        (List.mem_cons_of_mem _ hs)) htail]

theorem sortedRecords_perm (records : List ProblemRecord) : (sortedRecords records).Perm records :=
  List.mergeSort_perm records _

/-- One digest, the same records in one order. -/
theorem sortedRecords_eq_of_calculated {a b : List ProblemRecord}
    (hpayload : Sha256.hexdigest (canonicalPayload a) = Sha256.hexdigest (canonicalPayload b) →
      canonicalPayload a = canonicalPayload b)
    (himage : ∀ r ∈ a, ∀ s ∈ b,
      Sha256.hexdigest r.answerImage = Sha256.hexdigest s.answerImage →
        r.answerImage = s.answerImage)
    (h : calculateProblemRevision a = calculateProblemRevision b) :
    sortedRecords a = sortedRecords b := by
  have hpayload := hpayload (congrArg ProblemRevision.text h)
  have hdata := Json.write_injective (encode_injective hpayload)
  simp only [canonicalData, Value.object.injEq, List.cons.injEq, Prod.mk.injEq,
    Value.array.injEq, true_and, and_true] at hdata
  refine map_recordValue_injective (fun r hr s hs hrs => ?_) hdata
  exact himage r ((sortedRecords_perm a).mem_iff.1 hr) s ((sortedRecords_perm b).mem_iff.1 hs) hrs

theorem mem_iff_of_sortedRecords {a b : List ProblemRecord}
    (h : sortedRecords a = sortedRecords b) (record : ProblemRecord) :
    record ∈ a ↔ record ∈ b := by
  rw [← (sortedRecords_perm a).mem_iff, h, (sortedRecords_perm b).mem_iff]

/-- One revision, the same records in one order. -/
theorem sortedRecords_eq_of_revision {a b : LoadedRepository} (hfree : CollisionFree a b)
    (h : a.revision = b.revision) : sortedRecords a.records = sortedRecords b.records := by
  rw [a.revision_eq, b.revision_eq] at h
  refine sortedRecords_eq_of_calculated ?_ (fun r hr s hs hrs => ?_) h
  · exact hfree _ List.mem_cons_self _ List.mem_cons_self
  · exact hfree _ (List.mem_cons_of_mem _ (List.mem_map_of_mem hr)) _
      (List.mem_cons_of_mem _ (List.mem_map_of_mem hs)) hrs

theorem LoadedRepository.get_eq_some {repository : LoadedRepository} {problemId : Text}
    {record : ProblemRecord} : repository.get problemId = some record ↔
      record ∈ repository.records ∧ record.definition.id = problemId := by
  rw [LoadedRepository.get, ProblemRepository.get]
  constructor
  · intro h
    exact ⟨List.mem_of_find?_eq_some h, by simpa using List.find?_some h⟩
  · rintro ⟨hmem, hid⟩
    cases hfind : repository.records.find? fun record => record.definition.id = problemId with
    | none =>
      have hnone := List.find?_eq_none.1 hfind record hmem
      simp [hid] at hnone
    | some found =>
      have hfound : found.definition.id = problemId := by simpa using List.find?_some hfind
      have heq := List.inj_on_of_nodup_map repository.nodup (List.mem_of_find?_eq_some hfind) hmem
        (hfound.trans hid.symm)
      rw [heq]

/-- Repositories with one revision have the same record for every problem. -/
theorem get_eq_of_revision {a b : LoadedRepository} (hfree : CollisionFree a b)
    (h : a.revision = b.revision) (problemId : Text) : a.get problemId = b.get problemId := by
  have hsorted := sortedRecords_eq_of_revision hfree h
  refine Option.ext fun record => ?_
  rw [LoadedRepository.get_eq_some, LoadedRepository.get_eq_some,
    mem_iff_of_sortedRecords hsorted]

end ProblemData
