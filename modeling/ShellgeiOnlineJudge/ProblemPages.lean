/-
The problems as the browser gets them (the GET endpoints of
soj_backend/api/api_shellgei.py, `api_detail` of soj_shared/problem_repository.py,
frontend/src/api/types.ts and frontend/src/tsx/select_problems.tsx).

* `list_shown_current` — the list of problems that is shown, in every interleaving of
  restarts of the backend, requests, answers and uses of the browser's cache.
* `problem_opens` — what the browser makes of a problem that is served.
-/
import ShellgeiOnlineJudge.FrontendTypes
import ShellgeiOnlineJudge.Playground
import ShellgeiOnlineJudge.ProblemManifest
import ShellgeiOnlineJudge.Revalidation

namespace ProblemPages

open Utf8 ProblemSchema ProblemLoader
open Problem (ProblemRecord ProblemDefinitionV3 ProblemCategory validateProblemId)
open RunnerProtocol (isLowerHex)
open FrontendCommand (JsString)
open FrontendTypes (property recordValue stringValue)
open Json (Value)
open Playground (jsString Location ProblemDetail ProblemDisplay)

/-! ### The endpoints -/

/-- A response of the API. -/
structure Response where
  status : ℕ
  headers : List (Text × Text)
  body : Bytes
  deriving DecidableEq

/-- `PROBLEM_LIST_CACHE_CONTROL` -/
def problemListCacheControl : Text := "public, max-age=300".toList

/-- `Cache-Control` -/
def cacheControl : Text := "Cache-Control".toList

/-- `ETag` -/
def etagHeader : Text := "ETag".toList

/-- `str.isspace`, of one character -/
def isSpace (c : Char) : Bool :=
  (9 ≤ c.toNat && c.toNat ≤ 13) || (28 ≤ c.toNat && c.toNat ≤ 32) || c.toNat = 0x85 ||
    c.toNat = 0xA0 || c.toNat = 0x1680 || (0x2000 ≤ c.toNat && c.toNat ≤ 0x200A) ||
    c.toNat = 0x2028 || c.toNat = 0x2029 || c.toNat = 0x202F || c.toNat = 0x205F ||
    c.toNat = 0x3000

/-- `str.strip` -/
def strip (text : Text) : Text := (text.dropWhile isSpace).rdropWhile isSpace

/-- `{value.strip() for value in if_none_match.split(",")}` -/
def entityTags (ifNoneMatch : Text) : List Text := (ifNoneMatch.splitOn ',').map strip

/-- `get_problems_list` -/
def getProblemsList (repository : ProblemRepository) (ifNoneMatch : Option Text) : Response :=
  let headers := [(cacheControl, problemListCacheControl), (etagHeader, repository.catalog.etag)]
  if ∃ text, ifNoneMatch = some text ∧ repository.catalog.etag ∈ entityTags text then
    ⟨304, headers, []⟩
  else ⟨200, headers, repository.catalog.responseBody⟩

/-- `ProblemRecord.input_text` -/
def inputText (record : ProblemRecord) : Text :=
  match record.fixtures.find? fun fixture => fixture.1 = "input.txt".toList with
  | some fixture => fixture.2
  | none => []

/-- `ProblemRecord.expected_output` -/
def expectedOutput (record : ProblemRecord) : Text :=
  match record.definition.judge with
  | .text specification => specification.expectedOutput
  | .image _ => []

/-- Where the answer image of a problem is served. -/
def imagePath (definition : ProblemDefinitionV3) : Text :=
  "/image/".toList ++ definition.id ++ ".jpg".toList

/-- `api_detail` -/
def apiDetail (record : ProblemRecord) : List (Text × Text) :=
  let definition := record.definition
  [("title_ja".toList, definition.title.ja), ("title_en".toList, definition.title.en),
    ("statement_ja".toList, definition.statement.ja),
    ("statement_en".toList, definition.statement.en), ("input".toList, inputText record),
    ("expected_output".toList, expectedOutput record),
    ("answer".toList, definition.referenceSolution), ("image".toList, imagePath definition)]

/-- A dict of strings, as it is sent -/
def jsonBody (members : List (Text × Text)) : Bytes :=
  encode (Value.object (members.map fun member => (member.1, .string member.2))).write

/-- `get_problem` behind the check of its `ProblemId`, for a path element that the router
hands over; `validationError` is the body with which the framework refuses one. -/
def getProblem (validationError : Text → Bytes) (repository : ProblemRepository)
    (problemId : Text) : Response :=
  match validateProblemId problemId with
  | .error _ => ⟨422, [], validationError problemId⟩
  | .ok problemId =>
    match repository.records.lookup problemId with
    | none => ⟨404, [], jsonBody [("detail".toList, "Problem not found".toList)]⟩
    | some record => ⟨200, [], jsonBody (apiDetail record)⟩

/-- The router hands over what stands between two slashes. -/
def isPathElement (text : Text) : Bool := !text.isEmpty && !text.contains '/'

/-! ### The readers of the browser (types.ts) -/

/-- `ProblemSummary` -/
structure ProblemSummary where
  id : JsString
  category : JsString
  titleJa : JsString
  titleEn : JsString
  deriving DecidableEq

/-- A field that is a string -/
def stringField (problem : FrontendTypes.Record) (key : Text) (name : String) :
    Except String JsString :=
  (stringValue (property problem key) name).map Utf16.encode

/-- One item of `parseProblemSummaries` -/
def parseProblemSummary (index : ℕ) (item : Value) : Except String ProblemSummary := do
  let problem ← recordValue (some item) s!"problem list item {index}"
  let id ← stringField problem "id".toList "problem.id"
  let category ← stringField problem "category".toList "problem.category"
  let titleJa ← stringField problem "title_ja".toList "problem.title_ja"
  let titleEn ← stringField problem "title_en".toList "problem.title_en"
  .ok { id, category, titleJa, titleEn }

/-- `value.map` with the index -/
def parseItems (index : ℕ) : List Value → Except String (List ProblemSummary)
  | [] => .ok []
  | item :: items => do
    let problem ← parseProblemSummary index item
    let problems ← parseItems (index + 1) items
    .ok (problem :: problems)

/-- `parseProblemSummaries` -/
def parseProblemSummaries : Value → Except String (List ProblemSummary)
  | .array items => parseItems 0 items
  | _ => .error "problem list must be an array"

/-- `parseProblemDetail` -/
def parseProblemDetail (value : Value) : Except String ProblemDetail := do
  let problem ← recordValue (some value) "problem detail"
  let titleJa ← stringField problem "title_ja".toList "problem.title_ja"
  let statementJa ← stringField problem "statement_ja".toList "problem.statement_ja"
  let titleEn ← stringField problem "title_en".toList "problem.title_en"
  let statementEn ← stringField problem "statement_en".toList "problem.statement_en"
  let input ← stringField problem "input".toList "problem.input"
  let expectedOutput ← stringField problem "expected_output".toList "problem.expected_output"
  let image ← stringField problem "image".toList "problem.image"
  .ok { titleJa, titleEn, statementJa, statementEn, input, expectedOutput, image }

/-! ### The requests of the browser (client.ts) -/

/-- `fetchJson` with a response, and the reader of its value -/
def receive {α : Type} (read : Value → Except String α) (response : Response) :
    Except Playground.Failure α :=
  if ¬ (200 ≤ response.status ∧ response.status < 300) then
    .error (.apiClientError (some response.status))
  else
    match Json.parse (decode response.body) with
    | none => .error (.apiClientError none)
    | some value =>
      match read value with
      | .error _ => .error (.apiClientError none)
      | .ok a => .ok a

/-! ### The picker (select_problems.tsx) -/

/-- The tabs -/
def categories : List JsString :=
  [jsString "STANDARD", jsString "PRACTICE", jsString "IMAGE", jsString "REGEX"]

/-- `selected?.category ?? selectedProblem.split("-")[0]`, the tab of the selected problem -/
def selectedCategory (problemList : List ProblemSummary) (selectedProblem : JsString) : JsString :=
  match problemList.find? fun problem => problem.id = selectedProblem with
  | some problem => problem.category
  | none => ((selectedProblem.splitOn 0x2D).head?).getD []

/-- What is listed under a tab -/
def listed (problemList : List ProblemSummary) (activeTab : JsString) : List ProblemSummary :=
  problemList.filter fun problem => problem.category = activeTab

/-! ### Entity tags -/

/-- `f'"{digest}"'` -/
def etag (body : Bytes) : Text := '"' :: Sha256.hexdigest body ++ ['"']

/-- Nothing that `entityTags` removes or splits at -/
def IsClean (c : Char) : Prop := isSpace c = false ∧ c ≠ ','

theorem isClean_of_isLowerHex {c : Char} (h : isLowerHex c = true) : IsClean c := by
  have hrange : (48 ≤ c.toNat ∧ c.toNat ≤ 57) ∨ (97 ≤ c.toNat ∧ c.toNat ≤ 102) := by
    simpa [isLowerHex, Char.le_def, UInt32.le_iff_toNat_le] using h
  constructor
  · simp only [isSpace, Bool.or_eq_false_iff, Bool.and_eq_false_iff, decide_eq_false_iff_not]
    omega
  · rintro rfl
    have hcomma : (',' : Char).toNat = 44 := rfl
    omega

theorem isClean_etag {body : Bytes} {c : Char} (h : c ∈ etag body) : IsClean c := by
  have hquote : IsClean '"' := by
    constructor <;> decide
  rcases List.mem_cons.1 h with rfl | h
  · exact hquote
  rcases List.mem_append.1 h with h | h
  · exact isClean_of_isLowerHex (ProblemData.isLowerHex_of_mem_hexdigest h)
  · rw [List.mem_singleton.1 h]
    exact hquote

theorem strip_clean {text : Text} (h : ∀ c ∈ text, IsClean c) : strip text = text := by
  have hfront : text.dropWhile isSpace = text :=
    List.dropWhile_eq_self_iff.2 fun hpos => by
      rw [(h _ (List.getElem_mem hpos)).1]
      exact Bool.false_ne_true
  rw [strip, hfront]
  exact List.rdropWhile_eq_self_iff.2 fun hne => by
    rw [(h _ (List.getLast_mem hne)).1]
    exact Bool.false_ne_true

/-- The header that lists tags -/
def joinTags (tags : List Text) : Text := [',', ' '].intercalate tags

theorem entityTags_space (text : Text) : entityTags (' ' :: text) = entityTags text := by
  have hstrip : ∀ field : Text, strip (' ' :: field) = strip field := by
    intro field
    rw [strip, strip, List.dropWhile_cons_of_pos (by decide)]
  rw [entityTags, entityTags, List.splitOn_cons_eq_if_modifyHead, if_neg (by decide)]
  cases text.splitOn ',' with
  | nil => rfl
  | cons field fields => exact congrArg (· :: fields.map strip) (hstrip field)

theorem entityTags_joinTags {tags : List Text} (hne : tags ≠ [])
    (h : ∀ tag ∈ tags, ∀ c ∈ tag, IsClean c) : entityTags (joinTags tags) = tags := by
  induction tags with
  | nil => exact absurd rfl hne
  | cons tag tags ih =>
    obtain ⟨htag, htags⟩ := List.forall_mem_cons.1 h
    have hcomma : ',' ∉ tag := fun hc => (htag _ hc).2 rfl
    cases tags with
    | nil =>
      rw [entityTags, joinTags, List.intercalate_singleton, List.splitOn_eq_singleton hcomma]
      exact congrArg (fun text => [text]) (strip_clean htag)
    | cons next tags =>
      have hjoin : joinTags (tag :: next :: tags) =
          tag ++ ',' :: ' ' :: joinTags (next :: tags) := by
        rw [joinTags, List.intercalate_cons_cons, List.append_assoc]
        rfl
      have hrest := ih (List.cons_ne_nil _ _) htags
      rw [← entityTags_space, entityTags] at hrest
      rw [hjoin, entityTags, List.splitOn_append_cons_self_of_not_mem hcomma, List.map_cons,
        strip_clean htag, hrest]

/-! ### The list -/

/-- What the list says of a problem. -/
def summary (definition : ProblemDefinitionV3) : ProblemSummary where
  id := Utf16.encode definition.id
  category := Utf16.encode definition.category.text
  titleJa := Utf16.encode definition.title.ja
  titleEn := Utf16.encode definition.title.en

/-- Every problem once, in the order of the IDs -/
def ListsProblems (repository : ProblemRepository) (problemList : List ProblemSummary) : Prop :=
  ∃ definitions : List ProblemDefinitionV3,
    definitions.Perm (repository.records.map (·.2.definition)) ∧
      (definitions.map (·.id)).Pairwise (· ≤ ·) ∧ problemList = definitions.map summary

theorem parseItems_summaryValue (definitions : List ProblemDefinitionV3) (index : ℕ) :
    parseItems index (definitions.map summaryValue) = .ok (definitions.map summary) := by
  induction definitions generalizing index with
  | nil => rfl
  | cons definition definitions ih =>
    have hfirst : parseProblemSummary index (summaryValue definition) =
        .ok (summary definition) := by
      rfl
    rw [List.map_cons, parseItems, hfirst]
    show (parseItems (index + 1) (definitions.map summaryValue)).bind _ = _
    rw [ih]
    rfl

theorem receive_ok {α : Type} (read : Value → Except String α) (headers : List (Text × Text))
    (body : Bytes) : receive read ⟨200, headers, body⟩ =
      match Json.parse (decode body) with
      | none => .error (.apiClientError none)
      | some value =>
        match read value with
        | .error _ => .error (.apiClientError none)
        | .ok a => .ok a := by
  have hstatus : ¬ ¬ (200 ≤ 200 ∧ 200 < 300) := by decide
  exact if_neg hstatus

theorem receive_catalogBody (definitions : List ProblemDefinitionV3)
    (headers : List (Text × Text)) :
    receive parseProblemSummaries ⟨200, headers, catalogBody definitions⟩ =
      .ok (definitions.map summary) := by
  have hread : parseProblemSummaries (.array (definitions.map summaryValue)) =
      .ok (definitions.map summary) := parseItems_summaryValue definitions 0
  rw [receive_ok, catalogBody, decode_encode, Json.parse_write]
  simp only [hread]

theorem etag_of_build {libraries : Libraries} {files : ProblemFiles}
    {repository : ProblemRepository}
    (h : buildProblemRepository libraries files = .ok repository) :
    repository.catalog.etag = etag repository.catalog.responseBody := by
  obtain ⟨records, -, h⟩ := Execution.bind_eq_ok.1 h
  obtain ⟨manifest, -, h⟩ := Execution.bind_eq_ok.1 h
  obtain ⟨calculated, -, h⟩ := Execution.bind_eq_ok.1 h
  split at h
  · cases h
  obtain ⟨catalog, hcatalog, h⟩ := Execution.bind_eq_ok.1 h
  cases h
  rw [buildProblemCatalog] at hcatalog
  simp only at hcatalog
  split at hcatalog
  · cases hcatalog
  · cases hcatalog
    rfl

/-! ### The cache of the browser -/

/-- The repository of a backend that has started -/
structure LoadedRepository where
  repository : ProblemRepository
  loaded : ∃ libraries files, buildProblemRepository libraries files = .ok repository

/-- A response as revalidation sees it. -/
def answer (response : Response) : Revalidation.Answer Bytes Text :=
  let tag := (response.headers.lookup etagHeader).getD []
  if response.status = 304 then .notModified tag else .full tag response.body

/-- The list of problems, with the browser's cache in front of it; `max-age` is the lifetime. -/
def site : Revalidation.Protocol LoadedRepository (Option Text) Bytes Text where
  content server := server.repository.catalog.responseBody
  tag := etag
  lists ifNoneMatch := (ifNoneMatch.map entityTags).getD []
  respond server ifNoneMatch := answer (getProblemsList server.repository ifNoneMatch)
  lifetime := 300

/-- The servers, what the browser keeps of the list, and the requests under way. -/
abbrev State := Revalidation.State LoadedRepository (Option Text) Bytes Text

theorem LoadedRepository.etag_eq (server : LoadedRepository) :
    server.repository.catalog.etag = etag (site.content server) := by
  obtain ⟨repository, libraries, files, hloaded⟩ := server
  exact etag_of_build hloaded

theorem respond_eq (server : LoadedRepository) (ifNoneMatch : Option Text) :
    site.respond server ifNoneMatch =
      if etag (site.content server) ∈ site.lists ifNoneMatch then
        .notModified (etag (site.content server))
      else .full (etag (site.content server)) (site.content server) := by
  have hlisted : (∃ text, ifNoneMatch = some text ∧
      server.repository.catalog.etag ∈ entityTags text) ↔
        etag (site.content server) ∈ site.lists ifNoneMatch := by
    rw [server.etag_eq]
    cases ifNoneMatch with
    | none => exact ⟨fun ⟨_, h, _⟩ => (nomatch h), fun h => (nomatch h)⟩
    | some text => exact ⟨fun ⟨_, h, hmem⟩ => Option.some.inj h ▸ hmem, fun h => ⟨text, rfl, h⟩⟩
  show answer (getProblemsList server.repository ifNoneMatch) = _
  rw [getProblemsList]
  by_cases h : etag (site.content server) ∈ site.lists ifNoneMatch
  · rw [if_pos h]
    simp only [if_pos (hlisted.2 h)]
    rw [server.etag_eq]
    rfl
  · rw [if_neg h]
    simp only [if_neg (mt hlisted.1 h)]
    rw [server.etag_eq]
    rfl

theorem site_correct : site.Correct where
  notModified {server request tag} h := by
    rw [respond_eq] at h
    split at h
    · next hlisted =>
      cases h
      exact ⟨rfl, hlisted⟩
    · cases h
  full {server request tag content} h := by
    rw [respond_eq] at h
    split at h
    · cases h
    · cases h
      exact ⟨rfl, rfl⟩

theorem listsProblems (server : LoadedRepository) :
    ∃ problemList, receive parseProblemSummaries ⟨200, [], site.content server⟩ =
      .ok problemList ∧ ListsProblems server.repository problemList := by
  obtain ⟨repository, libraries, files, hloaded⟩ := server
  obtain ⟨definitions, hperm, hsorted, hbody, -⟩ := (buildProblemRepository_ok hloaded).catalog
  refine ⟨definitions.map summary, ?_, definitions, hperm, hsorted, rfl⟩
  show receive parseProblemSummaries ⟨200, [], repository.catalog.responseBody⟩ = _
  rw [hbody, receive_catalogBody]

/-- **The list that is shown** is one that the backend had after the request was sent or in
the last 300 seconds, no page is left without one because of the cache, and what is kept
and still current is not sent again. -/
theorem list_shown_current {s : State} (h : site.Run s)
    (hsha : ∀ a ∈ s.answered, ∀ b ∈ s.answered,
      Sha256.hexdigest (site.content a.2) = Sha256.hexdigest (site.content b.2) →
        site.content a.2 = site.content b.2) :
    (∀ body since s', site.Step s (.shows body since) s' →
      ∃ a ∈ s.answered, since ≤ a.1 ∧ a.1 ≤ s.now ∧
        ∃ problemList, receive parseProblemSummaries ⟨200, [], body⟩ = .ok problemList ∧
          ListsProblems a.2.repository problemList) ∧
    (∀ s', ¬ site.Step s .fails s') ∧
    ∀ entry ∈ s.entries, entry.content = site.content s.server →
      getProblemsList s.server.repository (some (joinTags (s.entries.map (·.tag)))) =
        ⟨304, [(cacheControl, problemListCacheControl), (etagHeader, entry.tag)], []⟩ := by
  -- equal tags are equal digests
  have hdistinct : site.Distinguishes s.answered := by
    intro a ha b hb htag
    have hdigest := List.append_cancel_right (List.cons.inj htag).2
    exact hsha a ha b hb hdigest
  have hinv := h.invariant site_correct hdistinct
  refine ⟨fun body since s' hstep => ?_, fun s' => h.not_fails site_correct hdistinct,
    fun entry hentry hcurrent => ?_⟩
  · obtain ⟨a, ha, hsince, hnow, rfl⟩ := h.shown_current site_correct hdistinct hstep
    exact ⟨a, ha, hsince, hnow, listsProblems a.2⟩
  -- what is kept has clean tags, so the header is read as they were written
  · have htags : ∀ tag ∈ s.entries.map (·.tag), ∀ c ∈ tag, IsClean c := by
      intro tag htag c hc
      obtain ⟨kept, hkept, rfl⟩ := List.mem_map.1 htag
      rw [hinv.tagged kept hkept] at hc
      exact isClean_etag hc
    have hmem : entry.tag ∈ s.entries.map (·.tag) := List.mem_map_of_mem hentry
    have hlists := entityTags_joinTags (List.ne_nil_of_mem hmem) htags
    have htag : s.server.repository.catalog.etag = entry.tag := by
      rw [s.server.etag_eq, ← hcurrent]
      exact (hinv.tagged entry hentry).symm
    have hlisted : ∃ text, some (joinTags (s.entries.map (·.tag))) = some text ∧
        s.server.repository.catalog.etag ∈ entityTags text := by
      refine ⟨_, rfl, ?_⟩
      rwa [hlists, htag]
    rw [getProblemsList]
    simp only [if_pos hlisted]
    rw [htag]

/-- The tag of the list of this backend -/
def listTag (server : LoadedRepository) : Text := etag (site.content server)

theorem lists_listTag (server : LoadedRepository) :
    site.lists (some (joinTags [listTag server])) = [listTag server] := by
  refine entityTags_joinTags (List.cons_ne_nil _ _) fun tag htag c hc => ?_
  rw [List.mem_singleton.1 htag] at hc
  exact isClean_etag hc

/-- The list is kept, and asked for again when it is no longer fresh; the answer that it is
still current is under way while the backend restarts. -/
theorem run_restarted (server restarted : LoadedRepository) :
    site.Run ⟨400, restarted, [⟨listTag server, site.content server, 0⟩],
      [⟨some (joinTags [listTag server]), 400, some (.notModified (listTag server))⟩],
      [(400, server), (0, server)]⟩ := by
  have hlists := lists_listTag server
  have hfull : site.respond server none = .full (listTag server) (site.content server) :=
    (respond_eq server none).trans (if_neg List.not_mem_nil)
  have hnotModified : site.respond server (some (joinTags [listTag server])) =
      .notModified (listTag server) := by
    refine (respond_eq server _).trans (if_pos ?_)
    rw [hlists]
    exact List.mem_cons_self
  -- the list is asked for, answered and kept
  have hsent : site.Run ⟨0, server, [], [⟨none, 0, none⟩], []⟩ :=
    .step (.start 0 server) (.send none fun _ h => nomatch h)
  have hanswered := hsent.step
    (@Revalidation.Protocol.Step.answer _ _ _ _ site _ _ [] none 0 [] rfl)
  rw [hfull] at hanswered
  have hkept : site.Run ⟨0, server, [⟨listTag server, site.content server, 0⟩], [],
      [(0, server)]⟩ :=
    hanswered.step (@Revalidation.Protocol.Step.receiveFull _ _ _ _ site _ _ [] none 0 _ _ [] rfl)
  -- after 400 seconds it is asked for with its tag
  have hlater : site.Run ⟨400, server, [⟨listTag server, site.content server, 0⟩], [],
      [(0, server)]⟩ := by
    have helapsed := hkept.step (.elapse 400 (by norm_num))
    rwa [zero_add] at helapsed
  have hasked := hlater.step (.send (some (joinTags [listTag server])) fun tag htag => by
    rwa [hlists] at htag)
  have hunchanged := hasked.step
    (@Revalidation.Protocol.Step.answer _ _ _ _ site _ _ [] _ 400 [] rfl)
  rw [hnotModified] at hunchanged
  exact hunchanged.step (.replace restarted)

theorem list_shown_current_restarted :
    ∃ s : State, site.Run s ∧ (∃ entry ∈ s.entries, entry.content = site.content s.server) ∧
      (∃ p ∈ s.pending, ∃ tag, p.answer = some (.notModified tag)) ∧
      (∀ body since s', site.Step s (.shows body since) s' →
        ∃ a ∈ s.answered, since ≤ a.1 ∧ a.1 ≤ s.now ∧
          ∃ problemList, receive parseProblemSummaries ⟨200, [], body⟩ = .ok problemList ∧
            ListsProblems a.2.repository problemList) ∧
      (∀ s', ¬ site.Step s .fails s') ∧
      ∀ entry ∈ s.entries, entry.content = site.content s.server →
        getProblemsList s.server.repository (some (joinTags (s.entries.map (·.tag)))) =
          ⟨304, [(cacheControl, problemListCacheControl), (etagHeader, entry.tag)], []⟩ := by
  obtain ⟨repository, hbuild⟩ := ProblemManifest.build_silent
  have hrun := run_restarted ⟨repository, _, _, hbuild⟩ ⟨repository, _, _, hbuild⟩
  refine ⟨_, hrun, ⟨_, List.mem_cons_self, rfl⟩, ⟨_, List.mem_cons_self, _, rfl⟩,
    list_shown_current hrun ?_⟩
  -- one backend has given all answers
  intro a ha b hb _
  have hserver : ∀ a ∈ ([(400, ⟨repository, _, _, hbuild⟩), (0, ⟨repository, _, _, hbuild⟩)] :
      List (ℚ × LoadedRepository)), a.2 = ⟨repository, _, _, hbuild⟩ := by
    simp
  rw [hserver a ha, hserver b hb]

/-! ### IDs in a link -/

theorem encode_injective {a b : Text} (h : Utf16.encode a = Utf16.encode b) : a = b := by
  have hpoints := congrArg Utf16.decode h
  rw [Utf16.decode_encode, Utf16.decode_encode] at hpoints
  exact List.map_injective_iff.2 (fun _ _ => Char.toNat_inj.1) hpoints

theorem validateProblemId_ok {id : Text} (h : validateProblemId id = .ok id) :
    id.length ≤ 64 ∧ ∀ group ∈ id.splitOn '-',
      group ≠ [] ∧ group.all Problem.isAlphanumeric = true := by
  have hpattern : id.length ≤ 64 ∧ Problem.matchesProblemIdPattern id = true := by
    rw [validateProblemId] at h
    split at h
    · cases h
    next hlength =>
    split at h
    · cases h
    next hmatches => exact ⟨(not_not.1 hlength).2, not_not.1 hmatches⟩
  refine ⟨hpattern.1, fun group hgroup => ?_⟩
  have hall := List.all_eq_true.1 hpattern.2 group hgroup
  rwa [Bool.and_eq_true, decide_eq_true_eq] at hall

theorem isAlphanumeric_range {c : Char} (h : Problem.isAlphanumeric c = true) :
    (48 ≤ c.toNat ∧ c.toNat ≤ 57) ∨ (65 ≤ c.toNat ∧ c.toNat ≤ 90) ∨
      (97 ≤ c.toNat ∧ c.toNat ≤ 122) := by
  simp only [Problem.isAlphanumeric, Bool.or_eq_true, Bool.and_eq_true, decide_eq_true_eq,
    Char.le_def, UInt32.le_iff_toNat_le] at h
  have hnat : c.val.toNat = c.toNat := rfl
  rw [hnat] at h
  have hbounds : ('A' : Char).val.toNat = 65 ∧ ('Z' : Char).val.toNat = 90 ∧
      ('a' : Char).val.toNat = 97 ∧ ('z' : Char).val.toNat = 122 ∧
      ('0' : Char).val.toNat = 48 ∧ ('9' : Char).val.toNat = 57 := by decide
  obtain ⟨hA, hZ, ha, hz, hzero, hnine⟩ := hbounds
  rw [hA, hZ, ha, hz, hzero, hnine] at h
  omega

theorem encodeChar_alphanumeric {c : Char} (h : Problem.isAlphanumeric c = true) :
    ∃ u, Utf16.encodeChar c = [u] ∧ Playground.isAlphanumeric u = true := by
  have hrange := isAlphanumeric_range h
  refine ⟨UInt16.ofNat c.toNat, if_pos (by omega), ?_⟩
  have hunit : (UInt16.ofNat c.toNat).toNat = c.toNat := UInt16.toNat_ofNat_of_lt (by
    show c.toNat < 2 ^ 16
    omega)
  simp only [Playground.isAlphanumeric, Bool.or_eq_true, Bool.and_eq_true, decide_eq_true_eq,
    UInt16.le_iff_toNat_le, hunit]
  have hbounds : (0x30 : UInt16).toNat = 48 ∧ (0x39 : UInt16).toNat = 57 ∧
      (0x41 : UInt16).toNat = 65 ∧ (0x5A : UInt16).toNat = 90 ∧ (0x61 : UInt16).toNat = 97 ∧
      (0x7A : UInt16).toNat = 122 := by decide
  obtain ⟨h30, h39, h41, h5A, h61, h7A⟩ := hbounds
  rw [h30, h39, h41, h5A, h61, h7A]
  omega

theorem encode_alphanumeric {group : Text} (h : group.all Problem.isAlphanumeric = true) :
    (Utf16.encode group).length = group.length ∧
      (Utf16.encode group).all Playground.isAlphanumeric = true := by
  induction group with
  | nil => exact ⟨rfl, rfl⟩
  | cons c group ih =>
    obtain ⟨hc, hgroup⟩ := Bool.and_eq_true_iff.1 h
    obtain ⟨u, hencode, hu⟩ := encodeChar_alphanumeric hc
    obtain ⟨hlength, hall⟩ := ih hgroup
    have hcons : Utf16.encode (c :: group) = u :: Utf16.encode group := by
      rw [Utf16.encode, List.flatMap_cons, hencode]
      rfl
    rw [hcons, List.length_cons, List.length_cons, List.all_cons, hu, hlength, hall]
    exact ⟨rfl, rfl⟩

theorem encode_append (a b : Text) :
    Utf16.encode (a ++ b) = Utf16.encode a ++ Utf16.encode b := List.flatMap_append

/-- The hyphens of an ID are the hyphens of what is in the link. -/
theorem encode_intercalate (groups : List Text) :
    Utf16.encode (['-'].intercalate groups) =
      List.intercalate [0x2D] (groups.map Utf16.encode) := by
  induction groups with
  | nil => rfl
  | cons group groups ih =>
    cases groups with
    | nil => rw [List.map_singleton, List.intercalate_singleton, List.intercalate_singleton]
    | cons next groups =>
      rw [List.intercalate_cons_cons, encode_append, encode_append, ih, List.map_cons,
        List.map_cons, List.map_cons, List.intercalate_cons_cons]
      rfl

theorem splitOn_encode {id : Text} (h : validateProblemId id = .ok id) :
    (Utf16.encode id).splitOn 0x2D = (id.splitOn '-').map Utf16.encode := by
  obtain ⟨-, hgroups⟩ := validateProblemId_ok h
  have hhyphen : ∀ group ∈ (id.splitOn '-').map Utf16.encode, (0x2D : UInt16) ∉ group := by
    intro group hgroup hmem
    obtain ⟨text, htext, rfl⟩ := List.mem_map.1 hgroup
    have hall := (encode_alphanumeric (hgroups text htext).2).2
    have hunit := List.all_eq_true.1 hall _ hmem
    exact absurd hunit (by decide)
  have hne : (id.splitOn '-').map Utf16.encode ≠ [] := by
    rw [Ne, List.map_eq_nil_iff]
    exact List.splitOn_ne_nil _ _
  have hjoin := encode_intercalate (id.splitOn '-')
  rw [List.intercalate_splitOn] at hjoin
  rw [hjoin, List.splitOn_intercalate _ hhyphen hne]

theorem length_intercalate_encode {groups : List Text}
    (h : ∀ group ∈ groups, (Utf16.encode group).length = group.length) :
    (Utf16.encode (['-'].intercalate groups)).length = (['-'].intercalate groups).length := by
  induction groups with
  | nil => rfl
  | cons group groups ih =>
    obtain ⟨hgroup, hgroups⟩ := List.forall_mem_cons.1 h
    cases groups with
    | nil =>
      rw [List.intercalate_singleton]
      exact hgroup
    | cons next groups =>
      have hhyphen : (Utf16.encode ['-']).length = 1 := by decide
      rw [List.intercalate_cons_cons, encode_append, encode_append, List.length_append,
        List.length_append, List.length_append, List.length_append, ih hgroups, hgroup, hhyphen]
      rfl

theorem isProblemId_encode {id : Text} (h : validateProblemId id = .ok id) :
    (Utf16.encode id).length ≤ 64 ∧ Playground.isProblemId (Utf16.encode id) = true := by
  obtain ⟨hlength, hgroups⟩ := validateProblemId_ok h
  have hencode := length_intercalate_encode fun group hgroup =>
    (encode_alphanumeric (hgroups group hgroup).2).1
  rw [List.intercalate_splitOn] at hencode
  refine ⟨hencode ▸ hlength, ?_⟩
  rw [Playground.isProblemId, splitOn_encode h]
  refine List.all_eq_true.2 fun units hunits => ?_
  obtain ⟨group, hgroup, rfl⟩ := List.mem_map.1 hunits
  obtain ⟨hne, hall⟩ := hgroups group hgroup
  obtain ⟨hsame, hunits⟩ := encode_alphanumeric hall
  have hnonempty : (Utf16.encode group).isEmpty = false := by
    rw [← Bool.not_eq_true, List.isEmpty_iff]
    intro hnil
    rw [hnil] at hsame
    exact hne (List.length_eq_zero_iff.1 hsame.symm)
  rw [hnonempty, hunits]
  rfl

/-! ### A problem that is served -/

/-- What the page shows of a record -/
def recordDisplay (sojUrl : JsString) (record : ProblemRecord) : ProblemDisplay where
  title := (Utf16.encode record.definition.title.ja, Utf16.encode record.definition.title.en)
  statement :=
    (Utf16.encode record.definition.statement.ja, Utf16.encode record.definition.statement.en)
  input := Playground.orNull (Utf16.encode (inputText record))
  output := Playground.orNull (Utf16.encode (expectedOutput record))
  image := sojUrl ++ Utf16.encode (imagePath record.definition)

theorem receive_jsonBody {α : Type} (read : Value → Except String α)
    (members : List (Text × Text)) {a : α}
    (h : read (.object (members.map fun member => (member.1, .string member.2))) = .ok a) :
    receive read ⟨200, [], jsonBody members⟩ = .ok a := by
  rw [receive_ok, jsonBody, decode_encode, Json.parse_write]
  simp only [h]

theorem parseProblemDetail_apiDetail (sojUrl : JsString) (record : ProblemRecord) :
    ∃ data, parseProblemDetail
        (.object ((apiDetail record).map fun member => (member.1, .string member.2))) = .ok data ∧
      data.display sojUrl = recordDisplay sojUrl record :=
  ⟨_, rfl, rfl⟩

section Links

variable (write : List (JsString × JsString) → JsString) (l : Location)

theorem link_valid {id : Text} (h : validateProblemId id = .ok id) :
    (l.changeProblemUrl write (Utf16.encode id) false).invalidProblem = false ∧
      (l.changeProblemUrl write (Utf16.encode id) false).selectedProblem = Utf16.encode id := by
  obtain ⟨hlength, hpattern⟩ := isProblemId_encode h
  have hrequested : (l.changeProblemUrl write (Utf16.encode id) false).requestedProblem =
      Utf16.encode id := by
    rw [Location.requestedProblem, Playground.problemParams_changeProblemUrl]
    rfl
  have hvalid : (l.changeProblemUrl write (Utf16.encode id) false).invalidProblem = false := by
    have hone : ¬ 1 < [Utf16.encode id].length := by
      rw [List.length_singleton]
      exact lt_irrefl 1
    have hshort : ¬ 64 < (Utf16.encode id).length := by omega
    rw [Location.invalidProblem, hrequested, Playground.problemParams_changeProblemUrl,
      hpattern, decide_eq_false hone, decide_eq_false hshort]
    rfl
  refine ⟨hvalid, ?_⟩
  rw [Location.selectedProblem, hvalid, if_neg Bool.false_ne_true, hrequested]

end Links

theorem category_mem_categories (category : ProblemCategory) :
    Utf16.encode category.text ∈ categories := by
  cases category <;> decide

/-- The first part of an ID is its category. -/
theorem selectedCategory_nil (definition : ProblemDefinitionV3) :
    selectedCategory [] (Utf16.encode definition.id) = Utf16.encode definition.category.text := by
  have hhead := congrArg (Option.map Utf16.encode) definition.category_valid
  rw [← List.head?_map, ← splitOn_encode definition.id_valid] at hhead
  show (((Utf16.encode definition.id).splitOn 0x2D).head?).getD [] = _
  rw [hhead]
  rfl

theorem selectedCategory_mem {definitions : List ProblemDefinitionV3}
    (hnodup : (definitions.map (·.id)).Nodup) {definition : ProblemDefinitionV3}
    (h : definition ∈ definitions) :
    selectedCategory (definitions.map summary) (Utf16.encode definition.id) =
      Utf16.encode definition.category.text := by
  have hfound : ((definitions.map summary).find? fun problem =>
      problem.id = Utf16.encode definition.id).isSome :=
    List.find?_isSome.2 ⟨summary definition, List.mem_map_of_mem h, decide_eq_true rfl⟩
  obtain ⟨problem, hproblem⟩ := Option.isSome_iff_exists.1 hfound
  obtain ⟨other, hother, rfl⟩ := List.mem_map.1 (List.mem_of_find?_eq_some hproblem)
  have hsome := List.find?_some hproblem
  have hid : Utf16.encode other.id = Utf16.encode definition.id := of_decide_eq_true hsome
  have hsame : other = definition :=
    List.inj_on_of_nodup_map hnodup hother h (encode_injective hid)
  rw [selectedCategory, hproblem, hsame]
  rfl

/-- What the browser makes of the problem with this ID: its link is valid, it is listed once,
under the tab that is shown for it, and its page is what its record says. -/
structure Opens (validationError : Text → Bytes) (repository : ProblemRepository)
    (problemList : List ProblemSummary) (id : Text) (record : ProblemRecord) : Prop where
  link : ∀ write (l : Location),
    (l.changeProblemUrl write (Utf16.encode id) false).invalidProblem = false ∧
      (l.changeProblemUrl write (Utf16.encode id) false).selectedProblem = Utf16.encode id
  once : (problemList.map (·.id)).count (Utf16.encode id) = 1
  tab : ∀ activeTab ∈ categories,
    (∃ problem ∈ listed problemList activeTab, problem.id = Utf16.encode id) ↔
      activeTab = selectedCategory problemList (Utf16.encode id)
  tab_mem : selectedCategory problemList (Utf16.encode id) ∈ categories
  /-- also before there is a list -/
  tab_early : selectedCategory [] (Utf16.encode id) =
    selectedCategory problemList (Utf16.encode id)
  page : ∀ sojUrl, ∃ data,
    receive parseProblemDetail (getProblem validationError repository id) = .ok data ∧
      data.display sojUrl = recordDisplay sojUrl record

theorem lookup_of_mem {records : List (Text × ProblemRecord)}
    (hnodup : (records.map Prod.fst).Nodup) {entry : Text × ProblemRecord}
    (h : entry ∈ records) : records.lookup entry.1 = some entry.2 := by
  induction records with
  | nil => cases h
  | cons first records ih =>
    obtain ⟨hfirst, hrest⟩ := List.nodup_cons.1 hnodup
    rw [List.lookup_cons]
    rcases List.mem_cons.1 h with rfl | h
    · rw [beq_self_eq_true]
    · have hne : (entry.1 == first.1) = false := by
        rw [beq_eq_false_iff_ne]
        intro heq
        exact hfirst (heq ▸ List.mem_map_of_mem h)
      rw [hne]
      exact ih hrest h

theorem opens_of_mem (validationError : Text → Bytes) {repository : ProblemRepository}
    {definitions : List ProblemDefinitionV3} (hnodup : (definitions.map (·.id)).Nodup)
    {id : Text} {record : ProblemRecord} (hid : record.definition.id = id)
    (hmem : record.definition ∈ definitions)
    (hrecord : repository.records.lookup id = some record) :
    Opens validationError repository (definitions.map summary) id record := by
  subst hid
  have hcategory := selectedCategory_mem hnodup hmem
  have hids : (definitions.map summary).map (·.id) =
      (definitions.map (·.id)).map Utf16.encode := by
    rw [List.map_map, List.map_map]
    rfl
  constructor
  case link => exact fun write l => link_valid write l record.definition.id_valid
  case once =>
    rw [hids]
    refine List.count_eq_one_of_mem (hnodup.map fun _ _ => encode_injective) ?_
    exact List.mem_map_of_mem (List.mem_map_of_mem hmem)
  case tab =>
    intro activeTab _
    rw [hcategory]
    constructor
    · rintro ⟨problem, hproblem, hsame⟩
      -- the IDs are distinct, so the one listed is that of the record
      obtain ⟨hlisted, htab⟩ := List.mem_filter.1 hproblem
      obtain ⟨definition, hdefinition, rfl⟩ := List.mem_map.1 hlisted
      have heq : definition = record.definition :=
        List.inj_on_of_nodup_map hnodup hdefinition hmem (encode_injective hsame)
      rw [← of_decide_eq_true htab, heq]
      rfl
    · rintro rfl
      exact ⟨summary record.definition,
        List.mem_filter.2 ⟨List.mem_map_of_mem hmem, decide_eq_true rfl⟩, rfl⟩
  case tab_mem =>
    rw [hcategory]
    exact category_mem_categories _
  case tab_early => rw [hcategory, selectedCategory_nil]
  case page =>
    intro sojUrl
    obtain ⟨data, hdata, hdisplay⟩ := parseProblemDetail_apiDetail sojUrl record
    refine ⟨data, ?_, hdisplay⟩
    simp only [getProblem, record.definition.id_valid, hrecord]
    exact receive_jsonBody parseProblemDetail (apiDetail record) hdata

/-- What the browser is told for an ID that is not served. -/
def refusal (id : Text) : Playground.Failure :=
  .apiClientError (some (if validateProblemId id = .ok id then 404 else 422))

theorem receive_refused (validationError : Text → Bytes) {repository : ProblemRepository}
    {id : Text} (h : repository.records.lookup id = none) :
    receive parseProblemDetail (getProblem validationError repository id) =
      .error (refusal id) := by
  rw [refusal]
  by_cases hvalid : validateProblemId id = .ok id
  · simp only [getProblem, hvalid, h]
    rfl
  · obtain ⟨e, he⟩ : ∃ e, validateProblemId id = .error e := by
      rw [validateProblemId] at hvalid ⊢
      split
      · exact ⟨_, rfl⟩
      · next hlength =>
        split
        · exact ⟨_, rfl⟩
        · next hpattern =>
          rw [if_neg hlength, if_neg hpattern] at hvalid
          exact absurd rfl hvalid
    have hne : (Except.error e : Except String Text) ≠ .ok id := by simp
    simp only [getProblem, he, if_neg hne]
    rfl

/-- **A problem opens when it is served**, and only then. -/
theorem problem_opens {libraries : Libraries} {files : ProblemFiles}
    {repository : ProblemRepository} (validationError : Text → Bytes)
    (h : buildProblemRepository libraries files = .ok repository) :
    ∃ problemList,
      receive parseProblemSummaries (getProblemsList repository none) = .ok problemList ∧
      (∀ entry ∈ repository.records,
        Opens validationError repository problemList entry.1 entry.2 ∧
        encode entry.1 ∈ imageIds files) ∧
      ∀ id, isPathElement id = true → id ∉ repository.records.map Prod.fst →
        receive parseProblemDetail (getProblem validationError repository id) =
          .error (refusal id) := by
  have hpublished := buildProblemRepository_ok h
  obtain ⟨definitions, hperm, -, hbody, -⟩ := hpublished.catalog
  have hids : repository.records.map (·.2.definition.id) = repository.records.map Prod.fst :=
    List.map_congr_left hpublished.ids
  -- the mapping has each ID once, and so has the catalog
  have hnodup : (definitions.map (·.id)).Nodup := by
    rw [(hperm.map (·.id)).nodup_iff, List.map_map]
    exact hids ▸ hpublished.nodup
  -- a request without a tag gets the whole list
  have hlist : receive parseProblemSummaries (getProblemsList repository none) =
      .ok (definitions.map summary) := by
    have hnone : ¬ ∃ text, (none : Option Text) = some text ∧
        repository.catalog.etag ∈ entityTags text := fun ⟨_, h, _⟩ => (nomatch h)
    rw [getProblemsList, if_neg hnone, hbody, receive_catalogBody]
  refine ⟨definitions.map summary, hlist, fun entry hentry => ⟨?_, ?_⟩, fun id _ hid => ?_⟩
  · have hmem : entry.2.definition ∈ definitions :=
      hperm.mem_iff.2 (List.mem_map_of_mem hentry)
    exact opens_of_mem validationError hnodup (hpublished.ids entry hentry) hmem
      (lookup_of_mem hpublished.nodup hentry)
  · refine (hpublished.images _).2 ?_
    rw [← hpublished.keys]
    exact List.mem_map_of_mem hentry
  · have hlookup : repository.records.lookup id = none := by
      refine List.lookup_eq_none_iff.2 fun entry hentry => ?_
      rw [bne_iff_ne]
      rintro rfl
      exact hid (List.mem_map_of_mem hentry)
    exact receive_refused validationError hlookup

theorem problem_opens_silent :
    ∃ libraries files repository, buildProblemRepository libraries files = .ok repository ∧
      ∃ problemList,
        receive parseProblemSummaries (getProblemsList repository none) = .ok problemList ∧
        (∀ entry ∈ repository.records, Opens (fun _ => []) repository problemList entry.1 entry.2 ∧
          encode entry.1 ∈ imageIds files) ∧
        ∀ id, isPathElement id = true → id ∉ repository.records.map Prod.fst →
          receive parseProblemDetail (getProblem (fun _ => []) repository id) =
            .error (refusal id) := by
  obtain ⟨repository, hbuild⟩ := ProblemManifest.build_silent
  exact ⟨_, _, repository, hbuild, problem_opens (fun _ => []) hbuild⟩

end ProblemPages
