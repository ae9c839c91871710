import Traceability.Proofs.Live.Files

/-!
# The live index in canonical form

Files are read without the lock, so the changes that wait for it may come in any order and from any
number of threads; what holds the lock is one commit. In whatever order commits come, the maps that
are patched one file at a time are what the files of the index, read from the first to the last, say.
-/
namespace Traceability

/-- A change that is made in one piece. A build whose root is not found is abandoned in the piece in
which it starts. -/
inductive Commit where
  | start (config : Config) (root : Path)
  | abandon (config : Config)
  | finish (cs : List Contribution)
  | fail
  | update (c : Contribution)
  | remove (path : Text)

namespace Commit

/-- The index behind a commit. -/
def apply (i : LiveIndex) : Commit → LiveIndex
  | start config root => i.startBuild config root
  | abandon config => i.startBuild config i.root
  | finish cs => i.finishBuild cs
  | fail => i.failBuild
  | update c => i.commit c
  | remove path => i.remove path

/-- The files that an index of some files holds behind a commit, in the order in which they came. -/
def filesAfter (files : List Contribution) : Commit → List Contribution
  | start _ _ => files
  | abandon _ => files
  | finish cs => cs
  | fail => []
  | update c => files.filter (·.path ≠ c.path) ++ [c]
  | remove path => files.filter (·.path ≠ path)

end Commit

/-- Whether a file speaks only of itself, and only as a spec or only as code. -/
def Contribution.Sound (c : Contribution) : Prop :=
  c.Local ∧ (c.definitions = [] ∨ c.markers = [])

instance (c : Contribution) : Decidable c.Sound := inferInstanceAs (Decidable (_ ∧ _))

/-- Whether a commit brings sound contributions, and those of a build from different files. -/
def Commit.Sound : Commit → Prop
  | .finish cs => (∀ c ∈ cs, c.Sound) ∧ (cs.map (·.path)).Nodup
  | .update c => c.Sound
  | _ => True

instance : (c : Commit) → Decidable c.Sound
  | .start _ _ => inferInstanceAs (Decidable True)
  | .abandon _ => inferInstanceAs (Decidable True)
  | .finish _ => inferInstanceAs (Decidable (_ ∧ _))
  | .fail => inferInstanceAs (Decidable True)
  | .update c => inferInstanceAs (Decidable c.Sound)
  | .remove _ => inferInstanceAs (Decidable True)

/-- Whether a contribution is what some index takes a file for. Calls that wait may have looked at the
file with settings that are no longer those of the index. -/
def Contribution.Made (c : Contribution) : Prop :=
  ∃ (i : LiveIndex) (path : Path) (text? : Option Text), c = i.contribution path text?

/-- Whether all that a commit brings was made of files. -/
def Commit.Made : Commit → Prop
  | .finish cs => ∀ c ∈ cs, c.Made
  | .update c => c.Made
  | _ => True

namespace LiveIndex

theorem contribution_sound (i : LiveIndex) (path : Path) (text? : Option Text) :
    (i.contribution path text?).Sound :=
  ⟨i.contribution_local path text?, i.contribution_oneSort path text?⟩

theorem contributions_made (i : LiveIndex) (d : Disk) (paths : List Path) :
    ∀ c ∈ i.contributions d paths, c.Made := by
  intro c member
  obtain ⟨path, _, rfl⟩ := List.mem_map.mp member
  exact ⟨i, path, _, rfl⟩

theorem contributions_sound (i : LiveIndex) (d : Disk) (paths : List Path) :
    ∀ c ∈ i.contributions d paths, c.Sound := by
  intro c member
  obtain ⟨path, _, rfl⟩ := List.mem_map.mp member
  exact i.contribution_sound path _

/-- A build is a run of commits: its start, and then its end or its failure. What they bring was made of
files, and is sound where the disk is. -/
theorem exists_commits_rebuild (d : Disk) (config : Config) (root : Path) (i : LiveIndex) :
    ∃ commits : List Commit, (∀ c ∈ commits, c.Made) ∧ (d.Sound → ∀ c ∈ commits, c.Sound) ∧
      commits.foldl Commit.apply i = (i.rebuild d config root).1 := by
  have ended := i.rebuilt_rebuild d config root
  generalize i.rebuild d config root = result at ended ⊢
  cases ended with
  | lost => exact ⟨[.abandon config], by simp [Commit.Made], by simp [Commit.Sound], rfl⟩
  | @failed place =>
    exact ⟨[.start config place, .fail], by simp [Commit.Made], by simp [Commit.Sound], rfl⟩
  | @finished place paths resolved listed =>
    let started := i.startBuild config place
    refine ⟨[.start config place, .finish (started.contributions d paths)], ?_, ?_, rfl⟩
    · exact List.forall_mem_cons.mpr
        ⟨trivial, List.forall_mem_singleton.mpr (started.contributions_made d paths)⟩
    · intro sound
      have once := started.nodup_contributions d (nodup_filesOf listed)
        (proper_of_mem_filesOf sound (Disk.direct_of_resolve sound resolved) listed)
      exact List.forall_mem_cons.mpr
        ⟨trivial, List.forall_mem_singleton.mpr ⟨started.contributions_sound d paths, once⟩⟩

end LiveIndex

namespace IndexEntries

/-- The entries are what the files, read in their present order, say: an identifier has the last of
its definitions, and the places of an identifier are those of its markers, repetitions included. No
file has two entries, and none is both a spec and code. -/
structure Canonical (e : IndexEntries) : Prop where
  definition : ∀ id, e.definitions.get? id =
    Spec.lastDefinition? id e.definitionsByFile.values.flatten
  places : ∀ kind id, (e.places.get? (kind, id)).getD [] =
    placesAmong kind id e.markersByFile.values.flatten
  marked : ∀ kind id, (kind, id) ∈ e.places.keys ↔
    placesAmong kind id e.markersByFile.values.flatten ≠ []
  specFiles : e.definitionsByFile.keys.Nodup
  codeFiles : e.markersByFile.keys.Nodup
  apart : ∀ path ∈ e.definitionsByFile.keys, path ∉ e.markersByFile.keys

theorem Represents.canonical {files : List Contribution} {e : IndexEntries}
    (represents : Represents files e) (sound : ∀ c ∈ files, c.Sound) : e.Canonical := by
  refine ⟨fun id => ?_, fun kind id => ?_, fun kind id => ?_, ?_, ?_, ?_⟩
  · rw [represents.definition, represents.allDefinitions]
  · rw [represents.places, represents.allMarkers, getD_filled?]
  · rw [OrderedMap.mem_keys_iff, represents.places, represents.allMarkers, filled?]
    split
    · next unmarked => simp [unmarked]
    · next marked => simp [marked]
  · rw [represents.definitionsByFile]
    exact nodup_keys_shares _ represents.distinct
  · rw [represents.markersByFile]
    exact nodup_keys_shares _ represents.distinct
  · intro path spec code
    rw [represents.definitionsByFile, mem_keys_shares_iff] at spec
    rw [represents.markersByFile, mem_keys_shares_iff] at code
    obtain ⟨c, known, defines, rfl⟩ := spec
    obtain ⟨c', known', marks, same⟩ := code
    have one : c' = c := List.inj_on_of_nodup_map represents.distinct known' known same
    rw [one] at marks
    exact (sound c known).2.elim defines marks

end IndexEntries

namespace Commit

open IndexEntries

variable {files : List Contribution} {i : LiveIndex}

/-- Every commit does to the entries what it does to the list of files. -/
theorem apply_represents (represents : Represents files i.entries) {c : Commit} (sound : c.Sound) :
    Represents (c.filesAfter files) (c.apply i).entries := by
  cases c with
  | start config root => exact represents
  | abandon config => exact represents
  | finish cs => exact .ofContributions (fun c member => (sound.1 c member).1) sound.2
  | fail => exact .nil
  | update c => exact represents.update sound.1
  | remove path => exact represents.drop path

theorem filesAfter_sound (known : ∀ f ∈ files, f.Sound) {c : Commit} (sound : c.Sound) :
    ∀ f ∈ c.filesAfter files, f.Sound := by
  cases c with
  | start config root => exact known
  | abandon config => exact known
  | finish cs => exact sound.1
  | fail => simp [filesAfter]
  | update c =>
    intro f member
    rcases List.mem_append.mp member with old | new
    · exact known f (List.mem_of_mem_filter old)
    · rw [List.mem_singleton.mp new]
      exact sound
  | remove path => exact fun f member => known f (List.mem_of_mem_filter member)

theorem run_represents (represents : Represents files i.entries) (known : ∀ f ∈ files, f.Sound)
    {commits : List Commit} (sound : ∀ c ∈ commits, c.Sound) :
    Represents (commits.foldl filesAfter files) (commits.foldl apply i).entries ∧
      ∀ f ∈ commits.foldl filesAfter files, f.Sound := by
  induction commits generalizing files i with
  | nil => exact ⟨represents, known⟩
  | cons c rest ih =>
    have first : c.Sound := sound c List.mem_cons_self
    exact ih (apply_represents represents first) (filesAfter_sound known first)
      fun c' member => sound c' (List.mem_cons_of_mem _ member)

end Commit

/-- From the empty index on, every run of commits leaves the entries in canonical form, and the files
in the order of their last commits. -/
theorem LiveIndex.canonical_of_commits (config : Config) (root : Path) (commits : List Commit)
    (sound : ∀ c ∈ commits, c.Sound) :
    let e := (commits.foldl Commit.apply { config, root }).entries
    let files := commits.foldl Commit.filesAfter []
    e.Canonical ∧ e.definitionsByFile = IndexEntries.shares (·.definitions) files ∧
      e.markersByFile = IndexEntries.shares (·.markers) files := by
  have empty : IndexEntries.Represents [] ({ config, root } : LiveIndex).entries := .nil
  obtain ⟨represents, known⟩ := Commit.run_represents empty (by simp) sound
  exact ⟨represents.canonical known, represents.definitionsByFile, represents.markersByFile⟩

/-- Two specs define a requirement, one of them twice; a file of code names a criterion twice and then
no more; the second spec is emptied, comes back, and the first one goes. -/
def Commit.shadowing : List Commit :=
  let i : LiveIndex := { config := { specGlobs := ["*.md"] }, root := ⟨.root, ["p"]⟩ }
  let a := i.contribution (.ofText "/p/a.md") (some "### X-9: First\n### X-9: Second")
  let b := i.contribution (.ofText "/p/b.md") (some "### X-9: Third")
  let code := i.contribution (.ofText "/p/c.py") (some "# @spec-impl: X-9_AC-1, X-9_AC-1")
  [.start i.config i.root, .finish [a, b, code], .update { path := b.path },
    .update { path := code.path }, .update code, .update b, .remove a.path]

theorem LiveIndex.canonical_of_shadowing :
    (∀ c ∈ Commit.shadowing, c.Sound) ∧
      (let e := (Commit.shadowing.foldl Commit.apply { config := {}, root := ⟨.root, []⟩ }).entries
      let files := Commit.shadowing.foldl Commit.filesAfter []
      e.Canonical ∧ e.definitionsByFile = IndexEntries.shares (·.definitions) files ∧
        e.markersByFile = IndexEntries.shares (·.markers) files) := by
  have sound : ∀ c ∈ Commit.shadowing, c.Sound := by decide +kernel
  exact ⟨sound, LiveIndex.canonical_of_commits {} ⟨.root, []⟩ Commit.shadowing sound⟩

end Traceability
