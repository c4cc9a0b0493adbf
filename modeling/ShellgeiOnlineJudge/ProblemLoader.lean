/-
Loading the problem repository (soj_shared/problem_repository.py and
problem_catalog.py).

The layers below raise `ProblemSchemaError`, `OSError` and so on; each is turned into
a `ProblemRepositoryError`, or is stray.  What is loaded is published at once, after
everything has been checked.

* `loadProblemRepository_ok` — what a published repository is;
* `load_all_or_nothing` — loading ends with such a repository or with a
  `ProblemRepositoryError`, unless a file on the way raises a stray exception.
-/
import Mathlib.Data.List.Find
import Mathlib.Data.List.Induction
import ShellgeiOnlineJudge.ProblemSchema

namespace Json

open Utf8

mutual

/-- `_reject_duplicate_json_keys` accepts every object of a value. -/
def Value.uniqueKeys : Value → Bool
  | .null => true
  | .bool _ => true
  | .number _ => true
  | .string _ => true
  | .array items => itemsUniqueKeys items
  | .object members => decide (members.map Prod.fst).Nodup && membersUniqueKeys members
termination_by structural v => v

/-- No object in the items has a key twice. -/
def itemsUniqueKeys : List Value → Bool
  | [] => true
  | v :: rest => v.uniqueKeys && itemsUniqueKeys rest
termination_by structural l => l

/-- No object in the values of the members has a key twice. -/
def membersUniqueKeys : List (Text × Value) → Bool
  | [] => true
  | m :: rest => memberUniqueKeys m && membersUniqueKeys rest
termination_by structural l => l

/-- No object in the value of the member has a key twice. -/
def memberUniqueKeys : Text × Value → Bool
  | (_, v) => v.uniqueKeys
termination_by structural m => m

end

end Json

namespace ProblemLoader

open Utf8 Problem Execution RunnerProtocol ProblemData ProblemSchema
open Json (Value)

/-- `MAX_PROBLEM_MANIFEST_BYTES` -/
def maxProblemManifestBytes : ℕ := 16_384

/-- The suffix of a definition. -/
def yamlSuffix : Bytes := encode ".yaml".toList

/-- The suffix of an answer image. -/
def jpgSuffix : Bytes := encode ".jpg".toList

/-- The suffix of an animated answer. -/
def gifSuffix : Bytes := encode ".gif".toList

/-- The directories and the manifest, which may be unreadable. -/
structure ProblemFiles where
  definitions : Directory
  images : Directory
  manifest : Option Bytes

/-- `ProblemRepositoryError` -/
inductive ProblemRepositoryError
  | listFailed
  | noDefinitions
  | idMismatch (missingImages extraImages : List FileName)
  | definitionFailed (path : FileName) (error : ProblemSchemaError)
  | unreadableImage (path : FileName)
  | imageTooLarge (path : FileName)
  | imageMismatch (path : FileName) (mediaType : ImageMediaType)
  | gifMismatch (missing extra : List FileName)
  | unreadableManifest
  | manifestTooLarge
  | invalidManifest
  | manifestMismatch (expected actual : ProblemManifestV1)

/-! ### The catalog (problem_catalog.py) -/

/-- The list of the problems, as it is sent. -/
structure ProblemCatalog where
  responseBody : Bytes
  etag : Text
  problemCount : ℕ

/-- What the list of problems says of one. -/
def summaryValue (definition : ProblemDefinitionV3) : Value :=
  .object
    [("id".toList, .string definition.id),
      ("category".toList, .string definition.category.text),
      ("title_ja".toList, .string definition.title.ja),
      ("title_en".toList, .string definition.title.en)]

/-- `sorted(definitions, key=lambda item: item.id)` -/
def sortedDefinitions (definitions : List ProblemDefinitionV3) : List ProblemDefinitionV3 :=
  definitions.mergeSort fun a b => decide (a.id ≤ b.id)

/-- The body of the list of problems. -/
def catalogBody (definitions : List ProblemDefinitionV3) : Bytes :=
  encode (Value.array (definitions.map summaryValue)).write

/-- `build_problem_catalog` -/
def buildProblemCatalog (definitions : List ProblemDefinitionV3) :
    Except (Raised ProblemRepositoryError) ProblemCatalog :=
  let summaries := sortedDefinitions definitions
  if summaries = [] then .error (.stray .valueError)
  else
    let responseBody := catalogBody summaries
    .ok
      { responseBody
        etag := '"' :: Sha256.hexdigest responseBody ++ ['"']
        problemCount := summaries.length }

/-! ### The loader -/

variable (libraries : Libraries) (files : ProblemFiles)

/-- `_validate_image` -/
def validateImage (path : FileName) (mediaType : ImageMediaType) :
    Except (Raised ProblemRepositoryError) Bytes :=
  match files.images.read path with
  | none => .error (.documented (.unreadableImage path))
  | some payload =>
    if maxArtifactBytes < payload.length then .error (.documented (.imageTooLarge path))
    else if matchesMediaType payload mediaType then .ok payload
    else .error (.documented (.imageMismatch path mediaType))

/-- One definition with its images. -/
def loadRecord (path : FileName) : Except (Raised ProblemRepositoryError) ProblemRecord :=
  match loadProblemDefinition libraries files.definitions path with
  | .error error => .error (error.map (.definitionFailed path))
  | .ok definition => do
    let preview ← validateImage files (encode definition.id ++ jpgSuffix) .jpeg
    if hasGif definition then do
      let image ← validateImage files (encode definition.id ++ gifSuffix) .gif
      .ok ⟨definition, image⟩
    else .ok ⟨definition, preview⟩

/-- The loop of `collect_problem_records` -/
def loadRecords : List FileName → Except (Raised ProblemRepositoryError) (List ProblemRecord)
  | [] => .ok []
  | path :: paths => do
    let record ← loadRecord libraries files path
    let records ← loadRecords paths
    .ok (record :: records)

/-- The files of the definitions. -/
def definitionPaths : List FileName := files.definitions.glob yamlSuffix

/-- The IDs of the definitions. -/
def definitionIds : List FileName := (definitionPaths files).map stem

/-- The IDs of the answer images. -/
def imageIds : List FileName := (files.images.glob jpgSuffix).map stem

/-- The IDs of the animated answers. -/
def gifIds : List FileName := (files.images.glob gifSuffix).map stem

/-- `a == b`, as sets -/
def SameIds (a b : List FileName) : Prop := ∀ id, id ∈ a ↔ id ∈ b

instance (a b : List FileName) : Decidable (SameIds a b) :=
  decidable_of_iff ((∀ id ∈ a, id ∈ b) ∧ ∀ id ∈ b, id ∈ a)
    ⟨fun h id => ⟨h.1 id, h.2 id⟩, fun h => ⟨fun id => (h id).1, fun id => (h id).2⟩⟩

/-- `sorted(a - b)`, as sets -/
def difference (a b : List FileName) : List FileName :=
  (a.filter (· ∉ b)).dedup.mergeSort fun x y => decide (x ≤ y)

/-- `expected_gif_ids` -/
def expectedGifIds (records : List ProblemRecord) : List FileName :=
  (records.filter fun record => hasGif record.definition).map fun record =>
    encode record.definition.id

/-- `collect_problem_records` -/
def collectProblemRecords : Except (Raised ProblemRepositoryError) (List ProblemRecord) :=
  if ¬ (files.definitions.listable ∧ files.images.listable) then .error (.documented .listFailed)
  else if definitionPaths files = [] then .error (.documented .noDefinitions)
  else if ¬ SameIds (definitionIds files) (imageIds files) then
    .error (.documented (.idMismatch (difference (definitionIds files) (imageIds files))
      (difference (imageIds files) (definitionIds files))))
  else do
    let records ← loadRecords libraries files (definitionPaths files)
    if ¬ SameIds (gifIds files) (expectedGifIds records) then
      .error (.documented (.gifMismatch (difference (expectedGifIds records) (gifIds files))
        (difference (gifIds files) (expectedGifIds records))))
    else .ok records

/-- `_load_manifest` -/
def loadManifest : Except (Raised ProblemRepositoryError) ProblemManifestV1 :=
  match files.manifest with
  | none => .error (.documented .unreadableManifest)
  | some payload =>
    if maxProblemManifestBytes < payload.length then .error (.documented .manifestTooLarge)
    else
      match decodeUtf8 payload with
      | none => .error (.documented .invalidManifest)
      | some text =>
        if libraries.tooDeep text then .error (.stray .recursionError)
        else
          match (Json.parse text).bind fun data =>
            if data.uniqueKeys then libraries.validateManifest data else none with
          | none => .error (.documented .invalidManifest)
          | some manifest => .ok manifest

/-- `ProblemRepository` -/
structure ProblemRepository where
  /-- the dict, in the order in which it was filled -/
  records : List (Text × ProblemRecord)
  revision : ProblemRevision
  catalog : ProblemCatalog

/-- `mapping[key] = record` -/
def setItem (mapping : List (Text × ProblemRecord)) (key : Text) (record : ProblemRecord) :
    List (Text × ProblemRecord) :=
  if key ∈ mapping.map Prod.fst then
    mapping.map fun entry => if entry.1 = key then (key, record) else entry
  else mapping ++ [(key, record)]

/-- `record.definition.id: record for record in records` -/
def recordMapping (records : List ProblemRecord) : List (Text × ProblemRecord) :=
  records.foldl (fun mapping record => setItem mapping record.definition.id record) []

/-- `build_problem_manifest`; pydantic's `ValidationError` is a `ValueError`. -/
def buildProblemManifest (records : List ProblemRecord) :
    Except (Raised ProblemRepositoryError) ProblemManifestV1 :=
  if h : 0 < records.length then .ok ⟨records.length, calculateProblemRevision records, h⟩
  else .error (.stray .valueError)

/-- `build_problem_repository` -/
def buildProblemRepository : Except (Raised ProblemRepositoryError) ProblemRepository := do
  let records ← collectProblemRecords libraries files
  let manifest ← loadManifest libraries files
  let calculated ← buildProblemManifest records
  if ¬ (manifest.problemCount = calculated.problemCount ∧
      manifest.revision = calculated.revision) then
    .error (.documented (.manifestMismatch manifest calculated))
  else do
    let catalog ← buildProblemCatalog (records.map (·.definition))
    .ok { records := recordMapping records, revision := manifest.revision, catalog }

/-- `load_problem_repository`: the outcome and the global that is published. -/
def loadProblemRepository (published : Option ProblemRepository) :
    Except (Raised ProblemRepositoryError) ProblemRepository × Option ProblemRepository :=
  match buildProblemRepository libraries files with
  | .error error => (.error error, published)
  | .ok repository => (.ok repository, some repository)

variable {libraries} {files}

/-! ### What is loaded -/

theorem loadRecord_ok {path : FileName} {record : ProblemRecord}
    (h : loadRecord libraries files path = .ok record) :
    encode record.definition.id = stem path := by
  rw [loadRecord] at h
  split at h
  · cases h
  next definition hdefinition =>
  have hid := loadProblemDefinition_ok hdefinition
  obtain ⟨preview, -, h⟩ := bind_eq_ok.1 h
  split at h
  · obtain ⟨image, -, h⟩ := bind_eq_ok.1 h
    cases h
    exact hid
  · cases h
    exact hid

theorem loadRecords_ok {paths : List FileName} {records : List ProblemRecord}
    (h : loadRecords libraries files paths = .ok records) :
    records.map (fun record => encode record.definition.id) = paths.map stem := by
  induction paths generalizing records with
  | nil =>
    cases h
    rfl
  | cons path paths ih =>
    obtain ⟨record, hrecord, h⟩ := bind_eq_ok.1 h
    obtain ⟨rest, hrest, h⟩ := bind_eq_ok.1 h
    cases h
    rw [List.map_cons, List.map_cons, loadRecord_ok hrecord, ih hrest]

/-- A valid ID is the stem of one name only. -/
theorem path_of_stem {path : FileName} {problemId : Text} (hsuffix : yamlSuffix <:+ path)
    (hid : validateProblemId problemId = .ok problemId) (h : encode problemId = stem path) :
    path = encode problemId ++ yamlSuffix := by
  obtain ⟨front, rfl⟩ := hsuffix
  have hyaml : yamlSuffix = dot :: encode "yaml".toList := by decide
  by_cases hfront : front = []
  · -- the name is the suffix alone, which is its own stem
    subst hfront
    have hstem : stem ([] ++ yamlSuffix) = encode ".yaml".toList := by decide
    obtain rfl : problemId = ".yaml".toList := encode_injective (h.trans hstem)
    have hpattern : ¬ matchesProblemIdPattern ".yaml".toList = true := by decide
    rw [validateProblemId, if_neg (by decide), if_pos hpattern] at hid
    cases hid
  · rw [hyaml, stem_append hfront (by decide) (by decide)] at h
    rw [h]

theorem loadRecords_paths {paths : List FileName} {records : List ProblemRecord}
    (hsuffix : ∀ path ∈ paths, yamlSuffix <:+ path)
    (h : loadRecords libraries files paths = .ok records) :
    records.map (fun record => encode record.definition.id ++ yamlSuffix) = paths := by
  induction paths generalizing records with
  | nil =>
    cases h
    rfl
  | cons path paths ih =>
    obtain ⟨record, hrecord, h⟩ := bind_eq_ok.1 h
    obtain ⟨rest, hrest, h⟩ := bind_eq_ok.1 h
    cases h
    have hpath := path_of_stem (hsuffix path List.mem_cons_self) record.definition.id_valid
      (loadRecord_ok hrecord)
    rw [List.map_cons, ← hpath, ih (fun p hp => hsuffix p (List.mem_cons_of_mem path hp)) hrest]

/-- The IDs of loaded records are distinct, as the names of their files are. -/
theorem loadRecords_nodup {records : List ProblemRecord}
    (h : loadRecords libraries files (definitionPaths files) = .ok records) :
    (records.map (·.definition.id)).Nodup := by
  have hpaths := loadRecords_paths (fun path hpath => mem_glob hpath) h
  have hnodup := nodup_glob files.definitions yamlSuffix
  rw [← hpaths] at hnodup
  refine List.Nodup.of_map (fun problemId => encode problemId ++ yamlSuffix) ?_
  rwa [List.map_map]

/-- A dict that is filled with distinct keys has one item for each. -/
theorem recordMapping_eq {records : List ProblemRecord}
    (h : (records.map (·.definition.id)).Nodup) :
    recordMapping records = records.map fun record => (record.definition.id, record) := by
  induction records using List.reverseRecOn with
  | nil => rfl
  | append_singleton records record ih =>
    rw [List.map_append, List.map_singleton] at h
    obtain ⟨hrecords, -, hdisjoint⟩ := List.nodup_append.1 h
    have hnew : record.definition.id ∉ (recordMapping records).map Prod.fst := by
      rw [ih hrecords, List.map_map]
      intro hmem
      exact hdisjoint _ hmem _ (List.mem_singleton_self _) rfl
    rw [recordMapping, List.foldl_append, List.foldl_cons, List.foldl_nil, ← recordMapping,
      setItem, if_neg hnew, ih hrecords, List.map_append, List.map_singleton]

theorem sortedDefinitions_perm (definitions : List ProblemDefinitionV3) :
    (sortedDefinitions definitions).Perm definitions :=
  List.mergeSort_perm definitions _

theorem sortedDefinitions_sorted (definitions : List ProblemDefinitionV3) :
    ((sortedDefinitions definitions).map (·.id)).Pairwise (· ≤ ·) := by
  rw [List.pairwise_map]
  exact pairwise_mergeSort_text (fun definition => definition.id) definitions

/-- What a repository that is published must be like. -/
structure Published (libraries : Libraries) (files : ProblemFiles)
    (repository : ProblemRepository) : Prop where
  keys : (repository.records.map fun entry => encode entry.1) = definitionIds files
  nodup : (repository.records.map Prod.fst).Nodup
  ids : ∀ entry ∈ repository.records, entry.2.definition.id = entry.1
  images : SameIds (imageIds files) (definitionIds files)
  gifs : SameIds (gifIds files)
    ((repository.records.filter fun entry => hasGif entry.2.definition).map fun entry =>
      encode entry.1)
  manifest : ∃ manifest, loadManifest libraries files = .ok manifest ∧
    manifest.problemCount = repository.records.length ∧
    manifest.revision = repository.revision
  revision : repository.revision =
    calculateProblemRevision (repository.records.map Prod.snd)
  /-- the catalog has every definition once, in the order of the IDs -/
  catalog : ∃ definitions : List ProblemDefinitionV3,
    definitions.Perm (repository.records.map (·.2.definition)) ∧
    (definitions.map (·.id)).Pairwise (· ≤ ·) ∧
    repository.catalog.responseBody = catalogBody definitions ∧
    repository.catalog.problemCount = repository.records.length

theorem buildProblemCatalog_ok {definitions : List ProblemDefinitionV3} (h : definitions ≠ []) :
    ∃ catalog, buildProblemCatalog definitions = .ok catalog ∧
      catalog.responseBody = catalogBody (sortedDefinitions definitions) ∧
      catalog.problemCount = definitions.length := by
  have hsorted : sortedDefinitions definitions ≠ [] := by
    intro hnil
    exact h (List.nil_perm.1 (hnil ▸ sortedDefinitions_perm definitions))
  rw [buildProblemCatalog]
  simp only [if_neg hsorted]
  exact ⟨_, rfl, rfl, (sortedDefinitions_perm definitions).length_eq⟩

theorem collectProblemRecords_ok {records : List ProblemRecord} :
    collectProblemRecords libraries files = .ok records ↔
      (files.definitions.listable ∧ files.images.listable) ∧ definitionPaths files ≠ [] ∧
      SameIds (definitionIds files) (imageIds files) ∧
      loadRecords libraries files (definitionPaths files) = .ok records ∧
      SameIds (gifIds files) (expectedGifIds records) := by
  rw [collectProblemRecords]
  -- each check that fails ends the collection
  by_cases hlist : files.definitions.listable ∧ files.images.listable
  swap
  · rw [if_pos hlist]
    exact iff_of_false (by simp) fun h => hlist h.1
  rw [if_neg (not_not.2 hlist)]
  by_cases hpaths : definitionPaths files = []
  · rw [if_pos hpaths]
    exact iff_of_false (by simp) fun h => h.2.1 hpaths
  rw [if_neg hpaths]
  by_cases hids : SameIds (definitionIds files) (imageIds files)
  swap
  · rw [if_pos hids]
    exact iff_of_false (by simp) fun h => hids h.2.2.1
  rw [if_neg (not_not.2 hids), bind_eq_ok]
  constructor
  · rintro ⟨loaded, hloaded, h⟩
    split at h
    · cases h
    · next hgifs =>
      cases h
      exact ⟨hlist, hpaths, hids, hloaded, not_not.1 hgifs⟩
  · rintro ⟨-, -, -, hloaded, hgifs⟩
    exact ⟨records, hloaded, if_neg (not_not.2 hgifs)⟩

theorem buildProblemManifest_ok {records : List ProblemRecord} {manifest : ProblemManifestV1}
    (h : buildProblemManifest records = .ok manifest) :
    records ≠ [] ∧ manifest.problemCount = records.length ∧
      manifest.revision = calculateProblemRevision records := by
  rw [buildProblemManifest] at h
  split at h
  · next hlength =>
    cases h
    exact ⟨List.length_pos_iff.1 hlength, rfl, rfl⟩
  · cases h

/-- What is built is as it should be. -/
theorem buildProblemRepository_ok {repository : ProblemRepository}
    (h : buildProblemRepository libraries files = .ok repository) :
    Published libraries files repository := by
  obtain ⟨records, hrecords, h⟩ := bind_eq_ok.1 h
  obtain ⟨manifest, hmanifest, h⟩ := bind_eq_ok.1 h
  obtain ⟨calculated, hcalculated, h⟩ := bind_eq_ok.1 h
  obtain ⟨-, -, hids, hloaded, hgifs⟩ := collectProblemRecords_ok.1 hrecords
  split at h
  · cases h
  next hsame =>
  obtain ⟨catalog, hcatalog, h⟩ := bind_eq_ok.1 h
  cases h
  obtain ⟨hne, hlength, hcalculated⟩ := buildProblemManifest_ok hcalculated
  obtain ⟨hcount, hrevision⟩ := not_not.1 hsame
  have hnodup := loadRecords_nodup hloaded
  -- no ID is there twice, so the mapping has the records in their order
  have hmapping := recordMapping_eq hnodup
  have hne : records.map (·.definition) ≠ [] := mt List.map_eq_nil_iff.1 hne
  obtain ⟨built, hbuilt, hbody, hproblems⟩ := buildProblemCatalog_ok hne
  obtain rfl : built = catalog := Except.ok.inj (hbuilt.symm.trans hcatalog)
  refine ⟨?_, ?_, ?_, fun id => (hids id).symm, ?_, ⟨manifest, hmanifest, ?_, rfl⟩, ?_, ?_⟩
  · show (recordMapping records).map _ = _
    rw [hmapping, List.map_map]
    exact loadRecords_ok hloaded
  · show ((recordMapping records).map _).Nodup
    rw [hmapping, List.map_map]
    exact hnodup
  · show ∀ entry ∈ recordMapping records, _
    rw [hmapping]
    intro entry hentry
    obtain ⟨record, -, rfl⟩ := List.mem_map.1 hentry
    rfl
  · show SameIds _ (((recordMapping records).filter _).map _)
    rw [hmapping, List.filter_map, List.map_map]
    exact hgifs
  · show _ = (recordMapping records).length
    rw [hmapping, List.length_map, hcount, hlength]
  · show _ = calculateProblemRevision ((recordMapping records).map _)
    rw [hmapping, List.map_map, hrevision, hcalculated]
    exact congrArg calculateProblemRevision (List.map_id records).symm
  · refine ⟨sortedDefinitions (records.map (·.definition)), ?_,
      sortedDefinitions_sorted _, hbody, ?_⟩
    · show List.Perm _ ((recordMapping records).map _)
      rw [hmapping, List.map_map]
      exact sortedDefinitions_perm _
    · show _ = (recordMapping records).length
      rw [hproblems, hmapping, List.length_map, List.length_map]

/-- `ProblemRepository.get` -/
def ProblemRepository.get (repository : ProblemRepository) (problemId : Text) :
    Option ProblemRecord :=
  (repository.records.find? fun entry => entry.1 = problemId).map Prod.snd

/-- A published repository is one that the backend and the runner work with. -/
def Published.loaded {repository : ProblemRepository} (h : Published libraries files repository) :
    LoadedRepository where
  records := repository.records.map Prod.snd
  revision := repository.revision
  nodup := by
    have hids : (repository.records.map Prod.snd).map (·.definition.id) =
        repository.records.map Prod.fst := by
      rw [List.map_map]
      exact List.map_congr_left fun entry hentry => h.ids entry hentry
    rw [hids]
    exact h.nodup
  revision_eq := h.revision

theorem Published.get_loaded {repository : ProblemRepository}
    (h : Published libraries files repository) (problemId : Text) :
    h.loaded.get problemId = repository.get problemId := by
  show (repository.records.map Prod.snd).find? _ = _
  rw [List.find?_map, ProblemRepository.get]
  congr 1
  refine List.find?_congr fun entry hentry => ?_
  show decide (entry.2.definition.id = problemId) = decide (entry.1 = problemId)
  rw [h.ids entry hentry]

/-! ### Stray exceptions -/

theorem validateImage_ne_stray {path : FileName} {mediaType : ImageMediaType} {error : Stray} :
    validateImage files path mediaType ≠ .error (.stray error) := by
  rw [validateImage]
  intro h
  split at h
  · cases h
  · split at h
    · cases h
    · split at h <;> cases h

/-- The images raise nothing else, so a stray exception is that of the definition. -/
theorem loadRecord_stray {path : FileName} {error : Stray} :
    loadRecord libraries files path = .error (.stray error) ↔
      StraysOn libraries files.definitions path error := by
  rw [← loadProblemDefinition_stray, loadRecord]
  cases loadProblemDefinition libraries files.definitions path with
  | error raised =>
    rw [Except.error.injEq, Except.error.injEq]
    exact map_eq_stray
  | ok definition =>
    refine iff_of_false (fun h => ?_) (by simp)
    rcases bind_eq_error.1 h with h | ⟨preview, -, h⟩
    · exact validateImage_ne_stray h
    · split at h
      · rcases bind_eq_error.1 h with h | ⟨image, -, h⟩
        · exact validateImage_ne_stray h
        · cases h
      · cases h

/-- The first record that does not load ends the loop. -/
theorem loadRecords_stray {paths : List FileName} {error : Stray} :
    loadRecords libraries files paths = .error (.stray error) ↔
      ∃ before path after, paths = before ++ path :: after ∧
        (∀ p ∈ before, ∃ record, loadRecord libraries files p = .ok record) ∧
        StraysOn libraries files.definitions path error := by
  induction paths with
  | nil =>
    refine iff_of_false (fun h => nomatch h) ?_
    rintro ⟨before, path, after, h, -⟩
    exact absurd h.symm (List.append_ne_nil_of_right_ne_nil before (List.cons_ne_nil path after))
  | cons path paths ih =>
    rw [loadRecords, bind_eq_error]
    constructor
    · rintro (h | ⟨record, hrecord, h⟩)
      · refine ⟨[], path, paths, rfl, ?_, loadRecord_stray.1 h⟩
        intro p hp
        cases hp
      · rcases bind_eq_error.1 h with h | ⟨records, -, h⟩
        · obtain ⟨before, later, after, rfl, hbefore, hstrays⟩ := ih.1 h
          refine ⟨path :: before, later, after, rfl, ?_, hstrays⟩
          intro p hp
          rcases List.mem_cons.1 hp with rfl | hp
          · exact ⟨record, hrecord⟩
          · exact hbefore p hp
        · cases h
    · rintro ⟨before, later, after, heq, hbefore, hstrays⟩
      cases before with
      | nil =>
        obtain ⟨rfl, rfl⟩ := List.cons.inj heq
        exact .inl (loadRecord_stray.2 hstrays)
      | cons first before =>
        obtain ⟨rfl, rfl⟩ := List.cons.inj heq
        obtain ⟨record, hrecord⟩ := hbefore path List.mem_cons_self
        have hrest := ih.2 ⟨before, later, after, rfl,
          fun p hp => hbefore p (List.mem_cons_of_mem path hp), hstrays⟩
        exact .inr ⟨record, hrecord, bind_eq_error.2 (.inl hrest)⟩

theorem collectProblemRecords_stray {error : Stray} :
    collectProblemRecords libraries files = .error (.stray error) ↔
      (files.definitions.listable ∧ files.images.listable) ∧
      SameIds (definitionIds files) (imageIds files) ∧
      loadRecords libraries files (definitionPaths files) = .error (.stray error) := by
  rw [collectProblemRecords]
  by_cases hlist : files.definitions.listable ∧ files.images.listable
  swap
  · rw [if_pos hlist]
    exact iff_of_false (by simp) fun h => hlist h.1
  rw [if_neg (not_not.2 hlist)]
  by_cases hpaths : definitionPaths files = []
  · rw [if_pos hpaths, hpaths]
    exact iff_of_false (by simp) fun h => nomatch h.2.2
  rw [if_neg hpaths]
  by_cases hids : SameIds (definitionIds files) (imageIds files)
  swap
  · rw [if_pos hids]
    exact iff_of_false (by simp) fun h => hids h.2.1
  rw [if_neg (not_not.2 hids), bind_eq_error]
  constructor
  · rintro (h | ⟨records, -, h⟩)
    · exact ⟨hlist, hids, h⟩
    · split at h <;> cases h
  · rintro ⟨-, -, h⟩
    exact .inl h

/-- `json.loads` raises a stray exception on the manifest. -/
def ManifestStrays (libraries : Libraries) (files : ProblemFiles) : Prop :=
  ∃ payload text, files.manifest = some payload ∧ payload.length ≤ maxProblemManifestBytes ∧
    decodeUtf8 payload = some text ∧ libraries.tooDeep text = true

theorem loadManifest_stray : (∃ error, loadManifest libraries files = .error (.stray error)) ↔
    ManifestStrays libraries files := by
  constructor
  · rintro ⟨error, h⟩
    rw [loadManifest] at h
    split at h
    · cases h
    next payload hmanifest =>
    split at h
    · cases h
    next hlength =>
    split at h
    · cases h
    next text hdecode =>
    split at h
    · next hdeep => exact ⟨payload, text, hmanifest, by omega, hdecode, hdeep⟩
    · split at h <;> cases h
  · rintro ⟨payload, text, hmanifest, hlength, hdecode, hdeep⟩
    refine ⟨.recursionError, ?_⟩
    have hlength : ¬ maxProblemManifestBytes < payload.length := by omega
    simp only [loadManifest, hmanifest, if_neg hlength, hdecode, if_pos hdeep]

/-- A stray exception is on the way, and everything before it is as it should be. -/
def Interrupted (libraries : Libraries) (files : ProblemFiles) : Prop :=
  (files.definitions.listable ∧ files.images.listable) ∧
  SameIds (definitionIds files) (imageIds files) ∧
  ((∃ before path after error, definitionPaths files = before ++ path :: after ∧
      (∀ p ∈ before, ∃ record, loadRecord libraries files p = .ok record) ∧
      StraysOn libraries files.definitions path error) ∨
    (∃ records, records ≠ [] ∧
      loadRecords libraries files (definitionPaths files) = .ok records ∧
      SameIds (gifIds files) (expectedGifIds records) ∧ ManifestStrays libraries files))

theorem loadRecords_eq_nil {paths : List FileName} {records : List ProblemRecord}
    (h : loadRecords libraries files paths = .ok records) : records = [] ↔ paths = [] := by
  rw [← List.map_eq_nil_iff (f := stem), ← loadRecords_ok h, List.map_eq_nil_iff]

theorem buildProblemRepository_stray :
    (∃ error, buildProblemRepository libraries files = .error (.stray error)) ↔
      Interrupted libraries files := by
  constructor
  · rintro ⟨error, h⟩
    rcases bind_eq_error.1 h with h | ⟨records, hrecords, h⟩
    · obtain ⟨hlist, hids, h⟩ := collectProblemRecords_stray.1 h
      obtain ⟨before, path, after, hpaths, hbefore, hstrays⟩ := loadRecords_stray.1 h
      exact ⟨hlist, hids, .inl ⟨before, path, after, error, hpaths, hbefore, hstrays⟩⟩
    obtain ⟨hlist, hpaths, hids, hloaded, hgifs⟩ := collectProblemRecords_ok.1 hrecords
    have hne : records ≠ [] := fun hnil => hpaths ((loadRecords_eq_nil hloaded).1 hnil)
    rcases bind_eq_error.1 h with h | ⟨manifest, -, h⟩
    · exact ⟨hlist, hids, .inr ⟨records, hne, hloaded, hgifs, loadManifest_stray.1 ⟨error, h⟩⟩⟩
    -- with a record there is, neither the manifest nor the catalog is refused
    rcases bind_eq_error.1 h with h | ⟨calculated, -, h⟩
    · rw [buildProblemManifest, dif_pos (List.length_pos_iff.2 hne)] at h
      cases h
    split at h
    · cases h
    · obtain ⟨catalog, hcatalog, -⟩ :=
        buildProblemCatalog_ok fun hnil => hne (List.map_eq_nil_iff.1 hnil)
      rw [hcatalog] at h
      cases h
  · rintro ⟨hlist, hids, hrecords | ⟨records, hne, hloaded, hgifs, hmanifest⟩⟩
    · obtain ⟨before, path, after, error, hstrays⟩ := hrecords
      have hloaded := loadRecords_stray.2 ⟨before, path, after, hstrays⟩
      exact ⟨error, bind_eq_error.2 (.inl (collectProblemRecords_stray.2 ⟨hlist, hids, hloaded⟩))⟩
    · obtain ⟨error, hmanifest⟩ := loadManifest_stray.2 hmanifest
      have hpaths : definitionPaths files ≠ [] := by
        intro hnil
        exact hne ((loadRecords_eq_nil hloaded).2 hnil)
      have hcollected := collectProblemRecords_ok.2 ⟨hlist, hpaths, hids, hloaded, hgifs⟩
      exact ⟨error, bind_eq_error.2 (.inr ⟨records, hcollected, bind_eq_error.2 (.inl hmanifest)⟩)⟩

/-! ### All or nothing -/

/-- Either a whole repository is returned and published, or a `ProblemRepositoryError`
is raised and what was published stays. -/
def AllOrNothing (libraries : Libraries) (files : ProblemFiles)
    (published : Option ProblemRepository) : Prop :=
  match loadProblemRepository libraries files published with
  | (.ok repository, published') =>
    published' = some repository ∧ Published libraries files repository
  | (.error raised, published') => (∃ error, raised = .documented error) ∧ published' = published

/-- What is published is complete, and a failure publishes nothing. -/
theorem loadProblemRepository_published (published : Option ProblemRepository) :
    (loadProblemRepository libraries files published).2 = published ∨
      ∃ repository, (loadProblemRepository libraries files published).2 = some repository ∧
        Published libraries files repository := by
  rw [loadProblemRepository]
  cases hbuild : buildProblemRepository libraries files with
  | error raised => exact .inl rfl
  | ok repository => exact .inr ⟨repository, rfl, buildProblemRepository_ok hbuild⟩

/-- **Loading is all or nothing**, exactly unless a stray exception is on the way. -/
theorem load_all_or_nothing (libraries : Libraries) (files : ProblemFiles)
    (published : Option ProblemRepository) :
    AllOrNothing libraries files published ↔ ¬ Interrupted libraries files := by
  rw [← buildProblemRepository_stray, AllOrNothing, loadProblemRepository]
  cases hbuild : buildProblemRepository libraries files with
  | ok repository =>
    refine iff_of_true ⟨rfl, buildProblemRepository_ok hbuild⟩ ?_
    rintro ⟨error, h⟩
    cases h
  | error raised =>
    cases raised with
    | documented error =>
      refine iff_of_true ⟨⟨error, rfl⟩, rfl⟩ ?_
      rintro ⟨stray, h⟩
      cases h
    | stray error =>
      refine iff_of_false ?_ (not_not.2 ⟨error, rfl⟩)
      rintro ⟨⟨documented, h⟩, -⟩
      cases h

/-! A definition whose ID is a date without a month, unquoted. -/

/-- A definition whose ID is a date that does not exist. -/
def datedText : Text := "id: 2024-13-01\n".toList

/-- The tag of a scalar that looks like a date. -/
def timestampTag : Text := "tag:yaml.org,2002:timestamp".toList

/-- The constructors of PyYAML, for the scalars of this text. -/
def constructDated (node : Text × Text) : Except (Raised YamlError) Value :=
  if node = (timestampTag, "2024-13-01".toList) then .error (.stray .valueError)
  else .ok (.string node.2)

/-- The text of a string. -/
def stringOf : Value → Text
  | .string text => text
  | _ => []

/-- PyYAML on this text; a node is a tag with a value. -/
def datedLibraries : Libraries where
  Node := Text × Text
  Object := Value
  State := Unit
  flattenMapping pairs state := .ok (pairs, state)
  constructObject node state := (constructDated node).map fun value => (value, state)
  hashable _ := true
  same a b := stringOf a = stringOf b
  printable _ := true
  isMapping
    | .object _ => true
    | _ => false
  load construct text :=
    if text = datedText then
      (construct [(("tag:yaml.org,2002:str".toList, "id".toList),
          (timestampTag, "2024-13-01".toList))] ()).map
        fun result => .object (result.1.map fun member => (stringOf member.1, member.2))
    else .error (.documented .pyYaml)
  validateDefinition _ := none
  validateManifest _ := none
  tooDeep _ := false

/-- The definition above with its image. -/
def datedFiles : ProblemFiles where
  definitions :=
    { entries := [(encode "STANDARD-1.yaml".toList, some (encode datedText))]
      listable := true
      nodup := List.nodup_singleton _ }
  images :=
    { entries := [(encode "STANDARD-1.jpg".toList, some [0xff, 0xd8, 0xff, 0xd9])]
      listable := true
      nodup := List.nodup_singleton _ }
  manifest := none

theorem interrupted_dated : Interrupted datedLibraries datedFiles := by
  have hpaths : definitionPaths datedFiles = [encode "STANDARD-1.yaml".toList] := by
    decide +kernel
  have hids : definitionIds datedFiles = imageIds datedFiles := by
    decide +kernel
  have htext : datedFiles.definitions.readText (encode "STANDARD-1.yaml".toList) =
      some datedText := by
    decide +kernel
  have hload : yamlLoad datedLibraries datedText = .error (.stray .valueError) := by
    rfl
  refine ⟨⟨rfl, rfl⟩, fun id => by rw [hids], .inl ⟨[], _, [], .valueError, hpaths, ?_,
    datedText, htext, by decide +kernel, hload⟩⟩
  intro p hp
  cases hp

/-- The exception of PyYAML leaves the loader as it is. -/
theorem dated_not_all_or_nothing : ¬ AllOrNothing datedLibraries datedFiles none := by
  obtain ⟨error, h⟩ := buildProblemRepository_stray.2 interrupted_dated
  rw [AllOrNothing, loadProblemRepository, h]
  rintro ⟨⟨documented, h⟩, -⟩
  cases h

end ProblemLoader
