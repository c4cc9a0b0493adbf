/-
Reading a problem definition from YAML (soj_shared/problem_schema.py).

PyYAML and pydantic are not part of the repository: `Libraries` has what the code
calls of them, and says nothing about it.  An exception is either the one that a
function documents or a stray one, which no handler on its way is for.

* `constructUniqueMapping_distinct` — a mapping that is constructed has no key twice;
* `loadProblemDefinition_ok` — a loaded definition has the ID of its file;
* `loadProblemDefinition_stray` — a stray exception is one of PyYAML, on the text of
  the file.
-/
import ShellgeiOnlineJudge.ProblemData

namespace ProblemSchema

open Utf8 Problem ProblemData

/-- The exceptions that no handler of the loader is for. -/
inductive Stray
  | valueError
  | recursionError
  /-- such as a `KeyError`, an `IndexError` or an `AttributeError` of PyYAML -/
  | other

/-- What a function raises: the exception it documents, or a stray one. -/
inductive Raised (ε : Type)
  | documented (error : ε)
  | stray (error : Stray)

/-- `except E as exc: raise E'` -/
def Raised.map {ε ε' : Type} (f : ε → ε') : Raised ε → Raised ε'
  | .documented error => .documented (f error)
  | .stray error => .stray error

theorem map_eq_stray {ε ε' : Type} {f : ε → ε'} {raised : Raised ε} {error : Stray} :
    raised.map f = .stray error ↔ raised = .stray error := by
  cases raised <;> simp [Raised.map]

/-- A computation that is bound raises what one of its parts raises. -/
theorem bind_eq_error {ε α β : Type} {x : Except ε α} {f : α → Except ε β} {error : ε} :
    x >>= f = .error error ↔ x = .error error ∨ ∃ a, x = .ok a ∧ f a = .error error := by
  cases x with
  | error e =>
    constructor
    · intro h
      exact .inl (congrArg Except.error (Except.error.inj h))
    · rintro (h | ⟨_, h, -⟩)
      · exact congrArg Except.error (Except.error.inj h)
      · cases h
  | ok a =>
    constructor
    · intro h
      exact .inr ⟨a, rfl, h⟩
    · rintro (h | ⟨_, h, hf⟩)
      · cases h
      · obtain rfl := Except.ok.inj h
        exact hf

/-! ### Files -/

/-- The bytes of a name, which need not be text. -/
abbrev FileName := Bytes

/-- A directory, as far as it can be read. -/
structure Directory where
  /-- the names with what can be read there -/
  entries : List (FileName × Option Bytes)
  /-- whether it can be listed -/
  listable : Bool
  nodup : (entries.map Prod.fst).Nodup

/-- `path.read_bytes()`, unless it raises `OSError` -/
def Directory.read (directory : Directory) (name : FileName) : Option Bytes :=
  (directory.entries.find? fun entry => entry.1 = name).bind Prod.snd

/-- `sorted(directory.glob("*" + suffix))` -/
def Directory.glob (directory : Directory) (suffix : Bytes) : List FileName :=
  let names := (directory.entries.map Prod.fst).filter (suffix.isSuffixOf ·)
  names.mergeSort fun a b => decide (a ≤ b)

/-- The byte of a full stop. -/
def dot : UInt8 := 0x2e

/-- `path.stem`: what is before the last dot, if that is neither the first nor the
last byte of the name. -/
def stem (name : FileName) : FileName :=
  let front := ((name.reverse.dropWhile (· ≠ dot)).drop 1).reverse
  if front = [] ∨ name.getLast? = some dot then name else front

/-- Strict decoding. -/
def decodeUtf8 (payload : Bytes) : Option Text :=
  if encode (decode payload) = payload then some (decode payload) else none

/-- The line ends of a file that is opened as text. -/
def universalNewlines : Text → Text
  | [] => []
  | '\r' :: '\n' :: rest => '\n' :: universalNewlines rest
  | '\r' :: rest => '\n' :: universalNewlines rest
  | c :: rest => c :: universalNewlines rest

/-- `path.read_text(encoding="utf-8")` -/
def Directory.readText (directory : Directory) (name : FileName) : Option Text :=
  (directory.read name).bind fun payload => (decodeUtf8 payload).map universalNewlines

theorem mem_glob {directory : Directory} {suffix : Bytes} {name : FileName}
    (h : name ∈ directory.glob suffix) : suffix <:+ name := by
  rw [Directory.glob, List.mem_mergeSort, List.mem_filter] at h
  exact List.isSuffixOf_iff_suffix.1 h.2

theorem nodup_glob (directory : Directory) (suffix : Bytes) : (directory.glob suffix).Nodup :=
  (List.mergeSort_perm _ _).nodup_iff.2 (directory.nodup.filter _)

/-- A suffix `.ext` is cut off, if there is something before it. -/
theorem stem_append {front extension : Bytes} (hfront : front ≠ []) (hne : extension ≠ [])
    (h : dot ∉ extension) : stem (front ++ dot :: extension) = front := by
  have hreverse : (front ++ dot :: extension).reverse =
      extension.reverse ++ dot :: front.reverse := by
    rw [List.reverse_append, List.reverse_cons, List.append_assoc, List.singleton_append]
  have hdrop : (extension.reverse ++ dot :: front.reverse).dropWhile (· ≠ dot) =
      dot :: front.reverse := by
    rw [List.dropWhile_append_of_pos]
    · rw [List.dropWhile_cons_of_neg]
      simp
    · intro b hb
      have hmem : b ∈ extension := List.mem_reverse.1 hb
      simp only [ne_eq, decide_not, Bool.not_eq_true', decide_eq_false_iff_not]
      rintro rfl
      exact h hmem
  have hlast : (front ++ dot :: extension).getLast? ≠ some dot := by
    intro hlast
    rw [List.getLast?_append_cons, List.getLast?_cons_of_ne_nil hne] at hlast
    exact h (List.mem_of_getLast? hlast)
  rw [stem, hreverse, hdrop, List.drop_one, List.tail_cons, List.reverse_reverse]
  exact if_neg (not_or.2 ⟨hfront, hlast⟩)

/-! ### PyYAML and pydantic -/

/-- `yaml.YAMLError` -/
inductive YamlError
  /-- of the scanner, the parser, the composer or a constructor of PyYAML -/
  | pyYaml
  /-- "found an unhashable key" -/
  | unhashableKey
  /-- "found duplicate key" -/
  | duplicateKey

/-- A loader of PyYAML: its nodes, the objects it constructs, and its state. -/
structure PyYaml where
  Node : Type
  Object : Type
  State : Type
  /-- the pairs of a mapping, with its merge keys resolved -/
  flattenMapping : List (Node × Node) → State →
    Except (Raised YamlError) (List (Node × Node) × State)
  constructObject : Node → State → Except (Raised YamlError) (Object × State)
  hashable : Object → Bool
  /-- `a == b` -/
  same : Object → Object → Bool
  /-- whether an object has a `repr`: an integer with too many digits has none -/
  printable : Object → Bool
  isMapping : Object → Bool
  /-- `yaml.load(text)` with this constructor for mappings -/
  load :
    (List (Node × Node) → State → Except (Raised YamlError) (List (Object × Object) × State)) →
      Text → Except (Raised YamlError) Object

/-- The packages that the loader calls. -/
structure Libraries extends PyYaml where
  /-- `ProblemDefinitionV3.model_validate`, unless it raises `ValidationError` -/
  validateDefinition : Object → Option ProblemDefinitionV3
  /-- `ProblemManifestV1.model_validate`, unless it raises `ValidationError` -/
  validateManifest : Json.Value → Option ProblemManifestV1
  /-- whether a text is nested deeper than `json.loads` can go -/
  tooDeep : Text → Bool

variable (libraries : Libraries)

/-- The loop of `_construct_unique_mapping`. -/
def constructPairs (mapping : List (libraries.Object × libraries.Object)) :
    List (libraries.Node × libraries.Node) → libraries.State →
      Except (Raised YamlError) (List (libraries.Object × libraries.Object) × libraries.State)
  | [], state => .ok (mapping, state)
  | (keyNode, valueNode) :: rest, state =>
    match libraries.constructObject keyNode state with
    | .error error => .error error
    | .ok (key, state) =>
      if ¬ libraries.hashable key then .error (.documented .unhashableKey)
      else if mapping.any fun member => libraries.same key member.1 then
        -- the text of the error has the key in it
        if libraries.printable key then .error (.documented .duplicateKey)
        else .error (.stray .valueError)
      else
        match libraries.constructObject valueNode state with
        | .error error => .error error
        | .ok (value, state) => constructPairs (mapping ++ [(key, value)]) rest state

/-- `_construct_unique_mapping` -/
def constructUniqueMapping (pairs : List (libraries.Node × libraries.Node))
    (state : libraries.State) :
    Except (Raised YamlError) (List (libraries.Object × libraries.Object) × libraries.State) :=
  match libraries.flattenMapping pairs state with
  | .error error => .error error
  | .ok (pairs, state) => constructPairs libraries [] pairs state

/-- No later key is the same as an earlier one. -/
def DistinctKeys (mapping : List (libraries.Object × libraries.Object)) : Prop :=
  mapping.Pairwise fun a b => libraries.same b.1 a.1 = false

theorem constructPairs_distinct {mapping result : List (libraries.Object × libraries.Object)}
    {pairs : List (libraries.Node × libraries.Node)} {state state' : libraries.State}
    (hmapping : DistinctKeys libraries mapping)
    (h : constructPairs libraries mapping pairs state = .ok (result, state')) :
    DistinctKeys libraries result := by
  induction pairs generalizing mapping state with
  | nil =>
    cases h
    exact hmapping
  | cons pair rest ih =>
    obtain ⟨keyNode, valueNode⟩ := pair
    rw [constructPairs] at h
    split at h
    · cases h
    next key state₁ _ =>
    split at h
    · cases h
    split at h
    · split at h <;> cases h
    next hnew =>
    split at h
    · cases h
    next value state₂ _ =>
    refine ih ?_ h
    rw [DistinctKeys, List.pairwise_append]
    refine ⟨hmapping, List.pairwise_singleton _ _, ?_⟩
    intro member hmember added hadded
    rw [List.mem_singleton] at hadded
    subst hadded
    -- a key that is there already was refused
    by_contra hsame
    exact hnew (List.any_eq_true.2 ⟨member, hmember, by simpa using hsame⟩)

/-- What the constructor returns has no key twice. -/
theorem constructUniqueMapping_distinct {result : List (libraries.Object × libraries.Object)}
    {pairs : List (libraries.Node × libraries.Node)} {state state' : libraries.State}
    (h : constructUniqueMapping libraries pairs state = .ok (result, state')) :
    DistinctKeys libraries result := by
  rw [constructUniqueMapping] at h
  split at h
  · cases h
  · exact constructPairs_distinct libraries List.Pairwise.nil h

/-! ### Definitions -/

/-- `MAX_PROBLEM_SCHEMA_FILE_BYTES` -/
def maxProblemSchemaFileBytes : ℕ := 2_000_000

/-- `ProblemSchemaError`, by its messages -/
inductive ProblemSchemaError
  | unreadable (path : FileName)
  | tooLarge (source : FileName)
  | unparsable (source : FileName) (error : YamlError)
  | notMapping (source : FileName)
  | invalid (source : FileName)
  | idMismatch (path : FileName)

/-- `yaml.load(text, Loader=_UniqueKeyLoader)` -/
def yamlLoad (text : Text) : Except (Raised YamlError) libraries.Object :=
  libraries.load (constructUniqueMapping libraries) text

/-- `load_yaml_mapping` -/
def loadYamlMapping (text : Text) (source : FileName) :
    Except (Raised ProblemSchemaError) libraries.Object :=
  match yamlLoad libraries text with
  | .error error => .error (error.map (.unparsable source))
  | .ok data =>
    if libraries.isMapping data then .ok data else .error (.documented (.notMapping source))

/-- `parse_problem_definition` -/
def parseProblemDefinition (text : Text) (source : FileName) :
    Except (Raised ProblemSchemaError) ProblemDefinitionV3 :=
  if maxProblemSchemaFileBytes < (encode text).length then .error (.documented (.tooLarge source))
  else
    match loadYamlMapping libraries text source with
    | .error error => .error error
    | .ok data =>
      match libraries.validateDefinition data with
      | none => .error (.documented (.invalid source))
      | some definition => .ok definition

/-- `load_problem_definition` -/
def loadProblemDefinition (directory : Directory) (path : FileName) :
    Except (Raised ProblemSchemaError) ProblemDefinitionV3 :=
  match directory.readText path with
  | none => .error (.documented (.unreadable path))
  | some text =>
    match parseProblemDefinition libraries text path with
    | .error error => .error error
    | .ok definition =>
      if encode definition.id = stem path then .ok definition
      else .error (.documented (.idMismatch path))

variable {libraries} {directory : Directory} {path : FileName}

theorem loadProblemDefinition_ok {definition : ProblemDefinitionV3}
    (h : loadProblemDefinition libraries directory path = .ok definition) :
    encode definition.id = stem path := by
  rw [loadProblemDefinition] at h
  split at h
  · cases h
  split at h
  · cases h
  split at h
  · next hid =>
    cases h
    exact hid
  · cases h

/-- PyYAML raises a stray exception on the text of this file. -/
def StraysOn (libraries : Libraries) (directory : Directory) (path : FileName) (error : Stray) :
    Prop :=
  ∃ text, directory.readText path = some text ∧
    (encode text).length ≤ maxProblemSchemaFileBytes ∧
    yamlLoad libraries text = .error (.stray error)

theorem loadYamlMapping_stray {text : Text} {source : FileName} {error : Stray} :
    loadYamlMapping libraries text source = .error (.stray error) ↔
      yamlLoad libraries text = .error (.stray error) := by
  rw [loadYamlMapping]
  cases yamlLoad libraries text with
  | error raised =>
    rw [Except.error.injEq, Except.error.injEq]
    exact map_eq_stray
  | ok data =>
    by_cases hmapping : libraries.isMapping data
    · simp [hmapping]
    · simp [hmapping]

theorem parseProblemDefinition_stray {text : Text} {source : FileName} {error : Stray} :
    parseProblemDefinition libraries text source = .error (.stray error) ↔
      (encode text).length ≤ maxProblemSchemaFileBytes ∧
        yamlLoad libraries text = .error (.stray error) := by
  rw [parseProblemDefinition]
  by_cases hlarge : maxProblemSchemaFileBytes < (encode text).length
  · rw [if_pos hlarge]
    refine iff_of_false (by simp) ?_
    rintro ⟨hle, -⟩
    omega
  rw [if_neg hlarge, ← @loadYamlMapping_stray libraries text source]
  have hle : (encode text).length ≤ maxProblemSchemaFileBytes := by omega
  cases loadYamlMapping libraries text source with
  | error raised => simp [hle]
  | ok data =>
    cases hvalidate : libraries.validateDefinition data with
    | none => simp [hvalidate]
    | some definition => simp [hvalidate]

/-- A definition fails with a stray exception exactly when PyYAML raised it. -/
theorem loadProblemDefinition_stray {error : Stray} :
    loadProblemDefinition libraries directory path = .error (.stray error) ↔
      StraysOn libraries directory path error := by
  rw [loadProblemDefinition, StraysOn]
  cases directory.readText path with
  | none => simp
  | some text =>
    simp only [Option.some.injEq, exists_eq_left',
      ← @parseProblemDefinition_stray libraries _ path]
    cases parseProblemDefinition libraries text path with
    | error raised => simp
    | ok definition =>
      by_cases hid : encode definition.id = stem path
      · simp [hid]
      · simp [hid]

end ProblemSchema
