/-
File trees and the extraction of regular files into them.

A tree is what stands at a place: nothing, a regular file, or a directory with
named entries, so a file never has anything under it.  `extract` writes a
regular file the way tar does: it creates the missing parents, and it fails
below a regular file and on a directory that is not empty.

* `extract_eq_none_iff` — when the extraction of one file fails;
* `find_extract_self`, `find_extract_of_incomparable` — what it writes and
  what it leaves alone;
* `extractAll_iff` — a list of files with distinct paths is extracted, each
  file with its content, iff no path runs through another.
-/
import Mathlib.Data.List.Nodup
import Mathlib.Data.List.Pairwise

namespace FileTree

variable {α β : Type} [DecidableEq α]

/-- What can stand in a directory under a name. -/
inductive Entry (α β : Type)
  | file (content : β)
  | dir (entries : List (α × Entry α β))

/-- What stands at a place, if anything does. -/
abbrev Place (α β : Type) := Option (Entry α β)

/-- The directory without entries. -/
def emptyDir : Entry α β := .dir []

/-- The entries of the directory at a place, which is created when nothing is
there; `none` when a file is. -/
def openDir : Place α β → Option (List (α × Entry α β))
  | none => some []
  | some (.dir entries) => some entries
  | some (.file _) => none

/-- The place that `path` leads to. -/
def find (place : Place α β) : List α → Place α β
  | [] => place
  | name :: rest =>
    match openDir place with
    | some entries => find (entries.lookup name) rest
    | none => none

/-- The entries with `entry` under `name`, in place of what was there. -/
def setEntry (name : α) (entry : Entry α β) (entries : List (α × Entry α β)) :
    List (α × Entry α β) :=
  (name, entry) :: entries.filter fun other => other.1 ≠ name

/-- Writes a regular file at `path` below the place; `none` when that fails. -/
def extract (place : Place α β) : List α → β → Option (Entry α β)
  | [], content =>
    match place with
    | some (.dir (_ :: _)) => none
    | _ => some (.file content)
  | name :: rest, content => do
    let entries ← openDir place
    let entry ← extract (entries.lookup name) rest content
    some (.dir (setEntry name entry entries))

/-- Writes the files in order; `none` as soon as one of them fails. -/
def extractAll (root : Entry α β) (files : List (List α × β)) : Option (Entry α β) :=
  files.foldlM (fun entry file => extract (some entry) file.1 file.2) root

/-! ### One file -/

section OneFile

variable {place : Place α β} {entry : Entry α β} {content : β}

@[simp] theorem find_nil (place : Place α β) : find place [] = place := rfl

theorem find_cons (place : Place α β) (name : α) (rest : List α) :
    find place (name :: rest) =
      (openDir place).bind fun entries => find (entries.lookup name) rest := by
  rw [find]
  cases openDir place <;> rfl

@[simp] theorem find_dir_cons (entries : List (α × Entry α β)) (name : α) (rest : List α) :
    find (some (.dir entries)) (name :: rest) = find (entries.lookup name) rest := rfl

/-- There is nothing below a file. -/
theorem find_file_cons (name : α) (rest : List α) :
    find (some (.file content)) (name :: rest) = none := rfl

@[simp] theorem find_none (path : List α) : find (none : Place α β) path = none := by
  induction path with
  | nil => rfl
  | cons name rest ih => exact ih

theorem find_append (place : Place α β) (p q : List α) :
    find place (p ++ q) = find (find place p) q := by
  induction p generalizing place with
  | nil => rfl
  | cons name rest ih =>
    rw [List.cons_append, find_cons, find_cons]
    cases openDir place with
    | none => simp
    | some entries => simpa using ih (entries.lookup name)

theorem lookup_cons_ne {name other : α} (h : other ≠ name) (entry : Entry α β)
    (entries : List (α × Entry α β)) :
    ((name, entry) :: entries).lookup other = entries.lookup other := by
  rw [List.lookup_cons, beq_eq_false_iff_ne.2 h]

theorem lookup_filter_ne {name other : α} (h : other ≠ name) (entries : List (α × Entry α β)) :
    (entries.filter fun e => e.1 ≠ name).lookup other = entries.lookup other := by
  induction entries with
  | nil => rfl
  | cons e rest ih =>
    by_cases he : e.1 = name
    · have hne : other ≠ e.1 := by rw [he]; exact h
      rw [List.filter_cons_of_neg (by simpa using he), ih, ← lookup_cons_ne hne e.2 rest]
    · rw [List.filter_cons_of_pos (by simpa using he), List.lookup_cons, List.lookup_cons, ih]

theorem lookup_setEntry (name other : α) (entry : Entry α β) (entries : List (α × Entry α β)) :
    (setEntry name entry entries).lookup other =
      if other = name then some entry else entries.lookup other := by
  by_cases h : other = name
  · rw [if_pos h, h]
    exact List.lookup_cons_self
  · rw [if_neg h, setEntry, lookup_cons_ne h, lookup_filter_ne h]

/-- A file is written further down exactly when its directory can be opened
and the rest of the path can be written in it. -/
theorem extract_cons_eq_some {name : α} {rest : List α} :
    extract place (name :: rest) content = some entry ↔
      ∃ entries sub, openDir place = some entries ∧
        extract (entries.lookup name) rest content = some sub ∧
        entry = .dir (setEntry name sub entries) := by
  simp only [extract, Option.bind_eq_bind, Option.bind_eq_some_iff, Option.some.injEq]
  constructor
  · rintro ⟨entries, hopen, sub, hsub, rfl⟩
    exact ⟨entries, sub, hopen, hsub, rfl⟩
  · rintro ⟨entries, sub, hopen, hsub, rfl⟩
    exact ⟨entries, hopen, sub, hsub, rfl⟩

/-- The file that was written is there, with its content. -/
theorem find_extract_self {path : List α} (h : extract place path content = some entry) :
    find (some entry) path = some (.file content) := by
  induction path generalizing place entry with
  | nil =>
    match place with
    | none => simp_all [extract]
    | some (.file _) => simp_all [extract]
    | some (.dir []) => simp_all [extract]
    | some (.dir (_ :: _)) => simp [extract] at h
  | cons name rest ih =>
    obtain ⟨entries, sub, -, hsub, rfl⟩ := extract_cons_eq_some.1 h
    rw [find_dir_cons, lookup_setEntry, if_pos rfl]
    exact ih hsub

/-- Above the file that was written there are directories with entries. -/
theorem find_above_file {above rest : List α} {name : α}
    (h : find place (above ++ name :: rest) = some (.file content)) :
    ∃ e entries, find place above = some (.dir (e :: entries)) := by
  rw [find_append] at h
  match hfind : find place above with
  | none => rw [hfind] at h; simp at h
  | some (.file _) => rw [hfind, find_file_cons] at h; simp at h
  | some (.dir []) => rw [hfind] at h; simp at h
  | some (.dir (e :: entries)) => exact ⟨e, entries, rfl⟩

/-- The extraction of a file fails exactly below a regular file and on a
directory that is not empty. -/
theorem extract_eq_none_iff {path : List α} :
    extract place path content = none ↔
      (∃ above name rest c, path = above ++ name :: rest ∧
        find place above = some (.file c)) ∨
      ∃ e entries, find place path = some (.dir (e :: entries)) := by
  induction path generalizing place with
  | nil =>
    match place with
    | none => simp [extract]
    | some (.file _) => simp [extract]
    | some (.dir []) => simp [extract]
    | some (.dir (_ :: _)) => simp [extract]
  | cons name rest ih =>
    match hopen : openDir place with
    | none =>
      -- only a file cannot be opened
      obtain ⟨c, rfl⟩ : ∃ c, place = some (.file c) := by
        match place with
        | none => simp [openDir] at hopen
        | some (.file c) => exact ⟨c, rfl⟩
        | some (.dir _) => simp [openDir] at hopen
      exact iff_of_true rfl (Or.inl ⟨[], name, rest, c, rfl, rfl⟩)
    | some entries =>
      have hbind : extract place (name :: rest) content = none ↔
          extract (entries.lookup name) rest content = none := by
        simp only [extract, hopen, Option.bind_eq_bind, Option.bind_some]
        cases extract (entries.lookup name) rest content <;> simp
      have hfind : ∀ q, find place (name :: q) = find (entries.lookup name) q := by
        intro q
        rw [find_cons, hopen, Option.bind_some]
      rw [hbind, ih, hfind]
      refine or_congr ⟨?_, ?_⟩ Iff.rfl
      · rintro ⟨above, n, r, c, hrest, hfile⟩
        exact ⟨name :: above, n, r, c, by rw [hrest]; rfl, by rw [hfind]; exact hfile⟩
      · rintro ⟨above, n, r, c, hpath, hfile⟩
        match above with
        | [] => rw [find_nil] at hfile; rw [hfile] at hopen; simp [openDir] at hopen
        | a :: above' =>
          obtain ⟨rfl, hrest⟩ := List.cons.inj hpath
          exact ⟨above', n, r, c, hrest, by rw [← hfind]; exact hfile⟩

end OneFile

/-- Neither path runs through the other. -/
def Incomparable (p q : List α) : Prop := ¬ p <+: q ∧ ¬ q <+: p

instance (p q : List α) : Decidable (Incomparable p q) := inferInstanceAs (Decidable (_ ∧ _))

omit [DecidableEq α] in
theorem Incomparable.symm {p q : List α} (h : Incomparable p q) : Incomparable q p :=
  ⟨h.2, h.1⟩

instance : Std.Symm (@Incomparable α) := ⟨fun _ _ => Incomparable.symm⟩

/-- What stands neither above nor below the file stays as it was. -/
theorem find_extract_of_incomparable {place : Place α β} {path other : List α} {content : β}
    {entry : Entry α β} (h : extract place path content = some entry)
    (hne : Incomparable path other) : find (some entry) other = find place other := by
  induction path generalizing place entry other with
  | nil => exact absurd List.nil_prefix hne.1
  | cons name rest ih =>
    match other with
    | [] => exact absurd List.nil_prefix hne.2
    | name' :: rest' =>
      obtain ⟨entries, sub, hopen, hsub, rfl⟩ := extract_cons_eq_some.1 h
      rw [find_dir_cons, lookup_setEntry, find_cons, hopen, Option.bind_some]
      by_cases hname : name' = name
      · subst hname
        rw [if_pos rfl]
        exact ih hsub (by simpa [Incomparable, List.cons_prefix_cons] using hne)
      · rw [if_neg hname]

/-! ### Many files -/

/-- No path of the files runs through another. -/
def Compatible (files : List (List α × β)) : Prop :=
  files.Pairwise fun f g => Incomparable f.1 g.1

omit [DecidableEq α] in
theorem compatible_iff {files : List (List α × β)} (hnodup : (files.map Prod.fst).Nodup) :
    Compatible files ↔ ∀ f ∈ files, ∀ g ∈ files, f.1 ≠ g.1 → ¬ f.1 <+: g.1 := by
  rw [Compatible, ← List.pairwise_map (f := Prod.fst) (R := Incomparable)]
  constructor
  · intro h f hf g hg hne
    exact (h.forall (List.mem_map_of_mem hf)
      (List.mem_map_of_mem hg) hne).1
  · intro h
    refine List.Nodup.pairwise_of_forall_ne hnodup ?_
    intro p hp q hq hne
    obtain ⟨f, hf, rfl⟩ := List.mem_map.1 hp
    obtain ⟨g, hg, rfl⟩ := List.mem_map.1 hq
    exact ⟨h f hf g hg hne, h g hg f hf hne.symm⟩

/-- The regular files below `root` are `files`, and what else is there are the
directories above them. -/
structure Holds (root : Entry α β) (files : List (List α × β)) : Prop where
  kept : ∀ f ∈ files, find (some root) f.1 = some (.file f.2)
  nothing_else : ∀ path content,
    find (some root) path = some (.file content) → (path, content) ∈ files
  above : ∀ path e entries, find (some root) path = some (.dir (e :: entries)) →
    ∃ f ∈ files, path <+: f.1

theorem holds_emptyDir : Holds (emptyDir : Entry α β) [] where
  kept := by simp
  nothing_else := by
    intro path content h
    cases path with
    | nil => simp [emptyDir] at h
    | cons name rest => simp [emptyDir] at h
  above := by
    intro path e entries h
    cases path with
    | nil => simp [emptyDir] at h
    | cons name rest => simp [emptyDir] at h

section ManyFiles

variable {root root' : Entry α β} {done files : List (List α × β)} {path : List α} {content : β}

/-- What stands at a place that is not above the new file was there before. -/
theorem find_extract_elsewhere {other : List α} {entry : Entry α β}
    (h : FileTree.extract (some root) path content = some root') (hother : ¬ other <+: path)
    (hfind : find (some root') other = some entry) : find (some root) other = some entry := by
  by_cases hbelow : path <+: other
  · -- nothing is below a file
    obtain ⟨rest, rfl⟩ := hbelow
    rw [find_append, find_extract_self h] at hfind
    cases rest with
    | nil => simp at hother
    | cons name rest => simp [find_file_cons] at hfind
  · rwa [find_extract_of_incomparable h ⟨hbelow, hother⟩] at hfind

/-- A path beside the paths so far can be extracted, and its file joins them. -/
theorem Holds.extract (content : β) (h : Holds root done)
    (hpath : ∀ f ∈ done, Incomparable f.1 path) :
    ∃ root', FileTree.extract (some root) path content = some root' ∧
      Holds root' (done ++ [(path, content)]) := by
  have hsome : FileTree.extract (some root) path content ≠ none := by
    intro hnone
    -- a file above the path, or a directory at it, would come from a comparable path
    rcases extract_eq_none_iff.1 hnone with ⟨above, name, rest, c, heq, hfile⟩ | ⟨e, entries, hdir⟩
    · exact (hpath _ (h.nothing_else _ _ hfile)).1 ⟨name :: rest, heq.symm⟩
    · obtain ⟨f, hf, hprefix⟩ := h.above _ _ _ hdir
      exact (hpath f hf).2 hprefix
  obtain ⟨root', hroot'⟩ := Option.ne_none_iff_exists'.1 hsome
  have hself := find_extract_self hroot'
  refine ⟨root', hroot', ⟨?_, ?_, ?_⟩⟩
  · intro f hf
    rcases List.mem_append.1 hf with hf | hf
    · rw [find_extract_of_incomparable hroot' (hpath f hf).symm]
      exact h.kept f hf
    · rw [List.mem_singleton.1 hf]
      exact hself
  · intro q c hq
    by_cases hqp : q <+: path
    · obtain ⟨rest, rfl⟩ := hqp
      cases rest with
      | nil => rw [List.append_nil] at *; simp_all
      | cons name rest =>
        -- above the new file there are directories only
        obtain ⟨e, entries, hdir⟩ := find_above_file hself
        rw [hq] at hdir
        simp at hdir
    · have hbefore := find_extract_elsewhere hroot' hqp hq
      exact List.mem_append_left _ (h.nothing_else q c hbefore)
  · intro q e entries hq
    by_cases hqp : q <+: path
    · exact ⟨(path, content), by simp, hqp⟩
    · have hbefore := find_extract_elsewhere hroot' hqp hq
      obtain ⟨f, hf, hprefix⟩ := h.above q e entries hbefore
      exact ⟨f, List.mem_append_left _ hf, hprefix⟩

/-- A new path that can be extracted stands beside the paths so far. -/
theorem Holds.incomparable (h : Holds root done)
    (hextract : FileTree.extract (some root) path content = some root')
    (hnew : ∀ f ∈ done, f.1 ≠ path) : ∀ f ∈ done, Incomparable f.1 path := by
  intro f hf
  have hsome : FileTree.extract (some root) path content ≠ none := by
    rw [hextract]
    exact Option.some_ne_none _
  refine ⟨?_, ?_⟩
  · rintro ⟨rest, hrest⟩
    cases rest with
    | nil => exact hnew f hf (by simpa using hrest)
    | cons name rest =>
      exact hsome (extract_eq_none_iff.2 (Or.inl ⟨f.1, name, rest, f.2, hrest.symm, h.kept f hf⟩))
  · rintro ⟨rest, hrest⟩
    cases rest with
    | nil => exact hnew f hf (by simpa using hrest.symm)
    | cons name rest =>
      have hkept := h.kept f hf
      rw [← hrest] at hkept
      exact hsome (extract_eq_none_iff.2 (Or.inr (find_above_file hkept)))

omit [DecidableEq α] in
theorem Compatible.append_cons_iff {f : List α × β} :
    Compatible (done ++ f :: files) ↔ Compatible ((done ++ [f]) ++ files) := by
  rw [List.append_assoc, List.singleton_append]

omit [DecidableEq α] in
theorem compatible_append_singleton {f : List α × β} :
    Compatible (done ++ [f]) ↔ Compatible done ∧ ∀ d ∈ done, Incomparable d.1 f.1 := by
  simp [Compatible, List.pairwise_append]

/-- Files beside each other and beside those so far are all extracted. -/
theorem Holds.extractAll (h : Holds root done) (hfiles : Compatible (done ++ files)) :
    ∃ root', FileTree.extractAll root files = some root' ∧ Holds root' (done ++ files) := by
  induction files generalizing root done with
  | nil => exact ⟨root, rfl, by rw [List.append_nil]; exact h⟩
  | cons f rest ih =>
    rw [Compatible.append_cons_iff] at hfiles
    have hf : Compatible (done ++ [f]) := (List.pairwise_append.1 hfiles).1
    obtain ⟨root₁, hroot₁, h₁⟩ := h.extract f.2 (compatible_append_singleton.1 hf).2
    obtain ⟨root', hroot', h'⟩ := ih h₁ hfiles
    refine ⟨root', ?_, ?_⟩
    · rw [FileTree.extractAll, List.foldlM_cons, hroot₁]
      exact hroot'
    · rwa [List.append_assoc, List.singleton_append] at h'

/-- If all the files are extracted, they stand beside each other. -/
theorem Holds.compatible_of_extractAll (h : Holds root done) (hdone : Compatible done)
    (hnodup : ((done ++ files).map Prod.fst).Nodup)
    (hall : FileTree.extractAll root files = some root') : Compatible (done ++ files) := by
  induction files generalizing root done with
  | nil => rwa [List.append_nil]
  | cons f rest ih =>
    rw [FileTree.extractAll, List.foldlM_cons] at hall
    obtain ⟨root₁, hroot₁, hrest⟩ := Option.bind_eq_some_iff.1 hall
    have hnew : ∀ d ∈ done, d.1 ≠ f.1 := by
      intro d hd heq
      rw [List.map_append, List.nodup_append] at hnodup
      exact hnodup.2.2 _ (List.mem_map_of_mem hd) _ (List.mem_map_of_mem List.mem_cons_self) heq
    have hf := h.incomparable hroot₁ hnew
    obtain ⟨root₂, hroot₂, h₂⟩ := h.extract f.2 hf
    obtain rfl : root₂ = root₁ := Option.some.inj (hroot₂.symm.trans hroot₁)
    rw [Compatible.append_cons_iff]
    refine ih h₂ (compatible_append_singleton.2 ⟨hdone, hf⟩) ?_ hrest
    rwa [List.append_assoc, List.singleton_append]

/-- Files with distinct paths are all extracted, each with its content, iff no
path runs through another. -/
theorem extractAll_iff (hnodup : (files.map Prod.fst).Nodup) :
    (∃ root, extractAll emptyDir files = some root ∧
      ∀ f ∈ files, find (some root) f.1 = some (.file f.2)) ↔ Compatible files := by
  constructor
  · rintro ⟨root, hall, -⟩
    have hnil : Compatible ([] : List (List α × β)) := List.Pairwise.nil
    exact holds_emptyDir.compatible_of_extractAll hnil hnodup hall
  · intro h
    have hcompatible : Compatible ([] ++ files) := h
    obtain ⟨root, hall, hholds⟩ := holds_emptyDir.extractAll hcompatible
    exact ⟨root, hall, hholds.kept⟩

end ManyFiles

end FileTree
