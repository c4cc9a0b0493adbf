/-
The size of the archive of an execution on its way into the sandbox
(`SandboxPreparer.prepare` of soj_runner/sandbox_executor.py).

The archive travels as the value of an environment variable, and Linux limits
the bytes of one environment string.  The schema limits the bytes of the
fixtures, to far more than what fits:

* `environment_length` — the bytes of the variable, from the size of the tar;
* `archive_fits_iff` — the variable is within the limit exactly when the fixtures
  and the command take at most 180 blocks of the tar.
-/
import Mathlib.Data.List.TakeDrop
import ShellgeiOnlineJudge.DockerExec

namespace ArchiveTransport

open Utf8 Problem ExecutionArchive DockerExec

/-- The most bytes that Linux takes in one argument or environment string
(`MAX_ARG_STRLEN`), its last NUL included. -/
def maxArgStrlen : ℕ := 131_072

/-- `BLOCKSIZE` and `RECORDSIZE` of tarfile -/
def blockSize : ℕ := 512

/-- `tarfile.RECORDSIZE` -/
def recordSize : ℕ := 10_240

/-- The blocks that `n` bytes take. -/
def blocksOf (n : ℕ) : ℕ := (n + (blockSize - 1)) / blockSize

/-- The blocks of an archive: for each member its header, the blocks of an
extended header if it has one, and its content; then two empty ones. -/
def archiveBlocks (extended : Member → ℕ) (archive : List Member) : ℕ :=
  (archive.map fun member => 1 + extended member + blocksOf member.size).sum + 2

/-- The bytes of a tar: its blocks, up to a multiple of the record. -/
def tarSize (extended : Member → ℕ) (archive : List Member) : ℕ :=
  (archiveBlocks extended archive * blockSize + (recordSize - 1)) / recordSize * recordSize

/-- The environment string of a variable, with the NUL behind it. -/
def environmentBytes (entry : Text × Text) : Bytes :=
  encode (entry.1 ++ '=' :: entry.2) ++ [0]

/-- The extraction command can be started: its environment strings are within
the limit. -/
def Startable (request : ExecRequest) : Prop :=
  ∀ entry ∈ request.environment, (environmentBytes entry).length ≤ maxArgStrlen

/-! ### The bytes of the variable -/

theorem length_encode_of_ascii {text : Text} (h : ∀ c ∈ text, c.utf8Size = 1) :
    (encode text).length = text.length := by
  induction text with
  | nil => rfl
  | cons c rest ih =>
    obtain ⟨hc, hrest⟩ := List.forall_mem_cons.mp h
    rw [encode_cons, List.length_append, String.length_utf8EncodeChar, hc, ih hrest,
      List.length_cons]
    omega

theorem utf8Size_of_le {c : Char} (h : c ≤ 'z') : c.utf8Size = 1 := by
  have hval : c.val ≤ UInt32.ofNatLT 0x7F (by decide) := UInt32.le_trans h (by decide)
  rw [Char.utf8Size, if_pos hval]

/-- Base64 is ASCII. -/
theorem utf8Size_of_mem_encode {bytes : Bytes} {c : Char} (h : c ∈ Base64.encode bytes) :
    c.utf8Size = 1 := by
  obtain ⟨⟨digits, pads, hdata, hdigits, -⟩, -⟩ :=
    Base64.decode_shape (Base64.decode_encode bytes)
  rw [hdata] at h
  rcases List.mem_append.mp h with h | h
  · have hdigit := hdigits c h
    unfold Base64.isDigit Base64.value at hdigit
    refine utf8Size_of_le ?_
    split_ifs at hdigit with hupper hlower hnumber hplus hslash
    · exact Char.le_trans hupper.2 (by decide)
    · exact hlower.2
    · exact Char.le_trans hnumber.2 (by decide)
    · rw [hplus]
      decide
    · rw [hslash]
      decide
    · cases hdigit
  · rw [List.eq_of_mem_replicate h]
    rfl

/-- The name of the variable, the sign and the NUL take 23 bytes. -/
theorem environment_length (bytes : Bytes) :
    (environmentBytes (executionArchiveEnvironment, Base64.encode bytes)).length =
      4 * ((bytes.length + 2) / 3) + 23 := by
  have hname : (encode (executionArchiveEnvironment ++ ['='])).length = 22 := by decide +kernel
  have hvalue := length_encode_of_ascii fun c hc => @utf8Size_of_mem_encode bytes c hc
  show (encode (executionArchiveEnvironment ++ '=' :: Base64.encode bytes) ++ [0]).length = _
  rw [List.length_append, List.append_cons, encode_append, List.length_append, hname, hvalue,
    Base64.length_encode, List.length_singleton]
  omega

/-! ### The limit in blocks -/

theorem base64_fits_iff (size : ℕ) :
    4 * ((size + 2) / 3) + 23 ≤ maxArgStrlen ↔ size ≤ 98_286 := by
  unfold maxArgStrlen
  omega

/-- Nine records fit, and they have 180 blocks. -/
theorem record_fits_iff (blocks : ℕ) :
    (blocks * blockSize + (recordSize - 1)) / recordSize * recordSize ≤ 98_286 ↔
      blocks ≤ 180 := by
  unfold blockSize recordSize
  omega

/-- The blocks of an archive, from the fixtures and the command. -/
theorem archiveBlocks_eq (extended : Member → ℕ) (shellgei : Text)
    (fixtures : List (Text × Text)) :
    archiveBlocks extended (buildExecutionArchive shellgei fixtures) =
      ((textFiles shellgei fixtures).map fun file =>
        1 + extended (textMember file) + blocksOf (encode file.2).length).sum + 2 := by
  rw [archiveBlocks, buildExecutionArchive_eq, List.map_map]
  rfl

/-- **The archive fits the transport** exactly when the fixtures and the command
take at most 180 blocks with their headers and the two last ones. -/
theorem archive_fits_iff (tarBytes : List Member → Bytes) (extended : Member → ℕ)
    (htar : ∀ archive, (tarBytes archive).length = tarSize extended archive)
    (spec : ExecutionSpecification) (data : ShellgeiData) :
    Startable (prepareRequest tarBytes data.shellgei spec.archiveFixtures) ↔
      ((textFiles data.shellgei spec.archiveFixtures).map fun file =>
        1 + extended (textMember file) + blocksOf (encode file.2).length).sum + 2 ≤ 180 := by
  have hstart : Startable (prepareRequest tarBytes data.shellgei spec.archiveFixtures) ↔
      (environmentBytes (executionArchiveEnvironment, Base64.encode
        (tarBytes (buildExecutionArchive data.shellgei spec.archiveFixtures)))).length ≤
        maxArgStrlen := by
    simp only [Startable, prepareRequest, List.forall_mem_singleton]
  rw [hstart, environment_length, htar, base64_fits_iff, tarSize, record_fits_iff,
    archiveBlocks_eq]

/-! ### A fixture that is too large -/

/-- The bytes of an archive, with its headers as names and without extended ones. -/
def plainTar (archive : List Member) : Bytes :=
  let blocks := archive.flatMap fun member =>
    (encode member.name).takeD blockSize 0 ++
      member.payload.takeD (blocksOf member.size * blockSize) 0
  blocks.takeD (tarSize (fun _ => 0) archive) 0

theorem length_plainTar (archive : List Member) :
    (plainTar archive).length = tarSize (fun _ => 0) archive := by
  rw [plainTar, List.takeD_length]

theorem archive_fits_iff_noCommand :
    Startable (prepareRequest plainTar noCommand.shellgei nestedFixtures.archiveFixtures) :=
  (archive_fits_iff plainTar (fun _ => 0) length_plainTar nestedFixtures noCommand).mpr (by decide)

theorem encode_replicate (n : ℕ) : (encode (List.replicate n 'x')).length = n := by
  have hascii : ∀ c ∈ List.replicate n 'x', c.utf8Size = 1 := by
    intro c hc
    rw [List.eq_of_mem_replicate hc]
    rfl
  rw [length_encode_of_ascii hascii, List.length_replicate]

section Large

variable {n : ℕ} (hpos : 0 < n) (hmax : n ≤ maxFixtureBytes)

/-- A fixture of `n` bytes. -/
def largeFixture : FixtureDefinition where
  path := "input.txt".toList
  content := List.replicate n 'x'
  path_valid := by rfl
  content_valid := by
    have hne : List.replicate n 'x' ≠ [] := by
      simpa using Nat.pos_iff_ne_zero.mp hpos
    have hnul : '\x00' ∉ List.replicate n 'x' := by
      intro h
      cases List.eq_of_mem_replicate h
    have hsize : ¬ maxFixtureBytes < (encode (List.replicate n 'x')).length := by
      rw [encode_replicate]
      omega
    rw [FixtureDefinition.validateContent, if_neg hne, validateTextBytes, if_neg hnul, if_neg hsize]

theorem length_largeFixture : (encode (largeFixture hpos hmax).content).length = n :=
  encode_replicate n

/-- An accepted specification with that fixture alone. -/
def largeFixtures : ExecutionSpecification where
  stdin := []
  fixtures := [largeFixture hpos hmax]
  exitCode := .ignore
  stderr := .ignore
  stdin_valid := nil_stdin_valid
  fixtures_length := Nat.le_of_ble_eq_true rfl
  fixtures_valid := by
    have hsize : ¬ maxTotalFixtureBytes <
        ([largeFixture hpos hmax].map fun f => (encode f.content).length).sum := by
      rw [List.map_singleton, List.sum_singleton, length_largeFixture]
      exact Nat.not_lt.mpr hmax
    have hpaths : ¬ ([largeFixture hpos hmax].map (·.path)).length ≠
        ([largeFixture hpos hmax].map (·.path)).dedup.length := by
      have hpath := List.dedup_eq_self.mpr (List.nodup_singleton (largeFixture hpos hmax).path)
      rw [List.map_singleton, hpath]
      exact not_not.mpr rfl
    simp only [ExecutionSpecification.validateFixtures, if_neg hpaths, if_neg hsize]

/-- With the command `:` there are five blocks besides the content. -/
theorem blocks_largeFixtures :
    ((textFiles noCommand.shellgei (largeFixtures hpos hmax).archiveFixtures).map fun file =>
      1 + 0 + blocksOf (encode file.2).length).sum + 2 = blocksOf n + 5 := by
  have hcommand : blocksOf (encode noCommand.shellgei).length = 1 := by decide
  have hfiles : textFiles noCommand.shellgei (largeFixtures hpos hmax).archiveFixtures =
      [((largeFixture hpos hmax).path, (largeFixture hpos hmax).content),
        (commandPath, noCommand.shellgei)] := rfl
  rw [hfiles]
  simp only [List.map_cons, List.map_nil, List.sum_cons, List.sum_nil, hcommand,
    length_largeFixture]
  omega

end Large

/-- A fixture of 90,000 bytes, a tenth of what the schema admits, takes 176 blocks. -/
theorem largeFixtures_not_startable :
    ¬ ∀ (spec : ExecutionSpecification) (data : ShellgeiData),
      Startable (prepareRequest plainTar data.shellgei spec.archiveFixtures) := by
  intro h
  have hpos : 0 < 90_000 := by decide
  have hmax : 90_000 ≤ maxFixtureBytes := by decide
  have hfits := (archive_fits_iff plainTar (fun _ => 0) length_plainTar (largeFixtures hpos hmax)
    noCommand).mp (h _ noCommand)
  rw [blocks_largeFixtures] at hfits
  have hblocks : blocksOf 90_000 = 176 := by decide
  omega

end ArchiveTransport
