import Traceability.Proofs.Glob.Collect
import Traceability.Proofs.Live.Contribution
import Traceability.Proofs.Live.Represents

/-!
# The files of an index

A build goes through the specs of a project and then its code, every file once; what comes of it
represents these files.
-/
namespace Traceability

namespace Project

variable {p : Project} {paths specs code : List Path}

theorem collect_eq_ok {globs ignored : List Text} (done : p.collect globs ignored = .ok paths) :
    Glob.collect p.disk p.root globs ignored = .ok paths := by
  unfold collect at done
  cases found : Glob.collect p.disk p.root globs ignored with
  | error fault =>
    rw [found] at done
    cases done
  | ok l =>
    rw [found] at done
    cases done
    rfl

theorem collect_eq_error {globs ignored : List Text} {f : Failure}
    (failed : p.collect globs ignored = .error f) : ∃ fault, f = .glob fault := by
  unfold collect at failed
  cases found : Glob.collect p.disk p.root globs ignored with
  | error fault =>
    rw [found] at failed
    cases failed
    exact ⟨fault, rfl⟩
  | ok l =>
    rw [found] at failed
    cases failed

theorem codePaths_eq_ok (done : p.codePaths = .ok code) :
    ∃ found, Glob.collect p.disk p.root p.config.codeGlobs p.config.codeIgnore = .ok found ∧
      code = found.filter fun path => !Glob.ignores p.config.ignoreMarkers p.root path := by
  obtain ⟨found, collected, done⟩ := bind_eq_ok_iff.mp done
  cases done
  exact ⟨found, collect_eq_ok collected, rfl⟩

theorem specPaths_isOk_iff :
    (∃ specs, p.specPaths = .ok specs) ↔
      ∃ specs, Glob.collect p.disk p.root p.config.specGlobs p.config.specIgnore = .ok specs := by
  unfold specPaths collect
  cases Glob.collect p.disk p.root p.config.specGlobs p.config.specIgnore with
  | error fault => simp [Except.mapError]
  | ok specs => simp [Except.mapError]

theorem codePaths_isOk_iff :
    (∃ code, p.codePaths = .ok code) ↔
      ∃ code, Glob.collect p.disk p.root p.config.codeGlobs p.config.codeIgnore = .ok code := by
  refine ⟨fun ⟨code, done⟩ => ?_, fun ⟨code, found⟩ => ?_⟩
  · obtain ⟨found, collected, _⟩ := codePaths_eq_ok done
    exact ⟨found, collected⟩
  · unfold codePaths collect
    rw [found]
    exact ⟨_, rfl⟩

/-- Whether the globs of a project go down from its root only. -/
def Plain (p : Project) : Prop :=
  Glob.Plain p.root p.config.specGlobs ∧ Glob.Plain p.root p.config.codeGlobs

instance (p : Project) : Decidable p.Plain := inferInstanceAs (Decidable (_ ∧ _))

/-- Whether a file of a path is a spec or code of a project. -/
def Selects (p : Project) (path : Path) : Prop :=
  Glob.Selects p.root p.config.specGlobs p.config.specIgnore path ∨
    Glob.Selects p.root p.config.codeGlobs p.config.codeIgnore path ∧
      Glob.ignores p.config.ignoreMarkers p.root path = false

theorem Selects.direct {path : Path} (selected : p.Selects path) : path.Direct := by
  rcases selected with spec | ⟨code, _⟩
  · exact spec.1
  · exact code.1

theorem Selects.anchor {path : Path} (plain : p.Plain) (selected : p.Selects path) :
    path.anchor = p.root.anchor := by
  rcases selected with spec | ⟨code, _⟩
  · exact Glob.anchor_of_selects plain.1 spec
  · exact Glob.anchor_of_selects plain.2 code

end Project

namespace LiveIndex

open IndexEntries

variable {p : Project} {paths : List Path}

theorem filesOf_eq_ok (done : filesOf p = .ok paths) :
    ∃ specs code, p.specPaths = .ok specs ∧ p.codePaths = .ok code ∧
      paths = specs ++ code.filter fun path => path ∉ specs := by
  obtain ⟨specs, specFiles, done⟩ := bind_eq_ok_iff.mp done
  obtain ⟨code, codeFiles, done⟩ := bind_eq_ok_iff.mp done
  cases done
  exact ⟨specs, code, specFiles, codeFiles, rfl⟩

/-- The files of a project are not found for its globs only. -/
theorem filesOf_eq_error {f : Failure} (failed : filesOf p = .error f) : ∃ fault, f = .glob fault := by
  rcases bind_eq_error_iff.mp failed with specs | ⟨specs, _, failed⟩
  · exact Project.collect_eq_error specs
  · rcases bind_eq_error_iff.mp failed with code | ⟨code, _, never⟩
    · rcases bind_eq_error_iff.mp code with found | ⟨found, _, never⟩
      · exact Project.collect_eq_error found
      · cases never
    · cases never

theorem nodup_filesOf (done : filesOf p = .ok paths) : paths.Nodup := by
  obtain ⟨specs, code, specFiles, codeFiles, rfl⟩ := filesOf_eq_ok done
  obtain ⟨found, codeFound, rfl⟩ := Project.codePaths_eq_ok codeFiles
  have specsOnce : specs.Nodup := Glob.nodup_collect (Project.collect_eq_ok specFiles)
  have codeOnce : found.Nodup := Glob.nodup_collect codeFound
  refine specsOnce.append ((codeOnce.filter _).filter _) ?_
  intro path spec member
  simp [spec] at member

theorem proper_of_mem_filesOf (sound : p.disk.Sound) (direct : p.root.Direct)
    (done : filesOf p = .ok paths) : ∀ path ∈ paths, path.Proper := by
  obtain ⟨specs, code, specFiles, codeFiles, rfl⟩ := filesOf_eq_ok done
  obtain ⟨found, codeFound, rfl⟩ := Project.codePaths_eq_ok codeFiles
  intro path member
  rcases List.mem_append.mp member with spec | code
  · exact Glob.proper_of_mem_collect sound direct (Project.collect_eq_ok specFiles) spec
  · exact Glob.proper_of_mem_collect sound direct codeFound
      (List.mem_of_mem_filter (List.mem_of_mem_filter code))

/-- Whether the files of a project can be listed does not depend on the disk. -/
theorem filesOf_isOk_iff :
    (∃ paths, filesOf p = .ok paths) ↔
      ∀ glob ∈ p.config.specGlobs.flatMap Glob.expand ++ p.config.codeGlobs.flatMap Glob.expand,
        ∃ steps, Glob.stepsOf glob = .ok steps := by
  have both : (∃ paths, filesOf p = .ok paths) ↔
      (∃ specs, p.specPaths = .ok specs) ∧ ∃ code, p.codePaths = .ok code := by
    constructor
    · intro listed
      obtain ⟨paths, done⟩ := listed
      obtain ⟨specs, code, specFiles, codeFiles, _⟩ := filesOf_eq_ok done
      exact ⟨⟨specs, specFiles⟩, code, codeFiles⟩
    · intro listed
      obtain ⟨⟨specs, specFiles⟩, code, codeFiles⟩ := listed
      unfold filesOf
      rw [specFiles, codeFiles]
      exact ⟨_, rfl⟩
  rw [both, Project.specPaths_isOk_iff, Project.codePaths_isOk_iff, Glob.collect_isOk_iff,
    Glob.collect_isOk_iff]
  simp only [List.mem_append, or_imp, forall_and]

/-- Where globs are plain, a file belongs to the project for its path alone. -/
theorem mem_filesOf_iff (sound : p.disk.Sound) (direct : p.root.Direct) (plain : p.Plain)
    (done : filesOf p = .ok paths) {path : Path} :
    path ∈ paths ↔ p.disk.isFile path = true ∧ p.Selects path := by
  obtain ⟨specs, code, specFiles, codeFiles, rfl⟩ := filesOf_eq_ok done
  obtain ⟨found, codeFound, rfl⟩ := Project.codePaths_eq_ok codeFiles
  have spec := Glob.mem_collect_iff (p := path) sound direct plain.1
    (Project.collect_eq_ok specFiles)
  have code := Glob.mem_collect_iff (p := path) sound direct plain.2 codeFound
  simp only [List.mem_append, List.mem_filter, decide_eq_true_eq, Bool.not_eq_true', code,
    Project.Selects]
  rw [spec]
  tauto

/-- What the files of some paths say. -/
def contributions (i : LiveIndex) (d : Disk) (paths : List Path) : List Contribution :=
  paths.map fun path => i.contribution path (d.text? path)

theorem nodup_contributions (i : LiveIndex) (d : Disk) (once : paths.Nodup)
    (proper : ∀ path ∈ paths, path.Proper) : ((i.contributions d paths).map (·.path)).Nodup := by
  have texts : (i.contributions d paths).map (·.path) = paths.map Path.toText := by
    rw [contributions, List.map_map]
    exact List.map_congr_left fun path _ => i.contribution_path path _
  rw [texts]
  refine once.map_on fun x memberX y memberY same => ?_
  exact Path.toText_injective (proper x memberX) (proper y memberY) same

theorem represents_contributions (i : LiveIndex) (d : Disk) (once : paths.Nodup)
    (proper : ∀ path ∈ paths, path.Proper) :
    Represents (i.contributions d paths) (.ofContributions (i.contributions d paths)) := by
  refine .ofContributions (fun c member => ?_) (i.nodup_contributions d once proper)
  obtain ⟨path, _, rfl⟩ := List.mem_map.mp member
  exact i.contribution_local path _

/-- How a build can end: its root is not found, its globs cannot be used, or it has read all files of
the project. -/
inductive Rebuilt (i : LiveIndex) (d : Disk) (config : Config) (root : Path) :
    LiveIndex × Option Failure → Prop
  | lost {fault : ResolveFault} (unresolved : d.resolve root = .error fault) :
      Rebuilt i d config root (i.startBuild config i.root, some (.root fault))
  | failed {place : Path} {fault : Glob.GlobFault} (resolved : d.resolve root = .ok place)
      (unlisted : filesOf ⟨d, place, config⟩ = .error (.glob fault)) :
      Rebuilt i d config root ((i.startBuild config place).failBuild, some (.glob fault))
  | finished {place : Path} {paths : List Path} (resolved : d.resolve root = .ok place)
      (listed : filesOf ⟨d, place, config⟩ = .ok paths) :
      Rebuilt i d config root
        ((i.startBuild config place).finishBuild ((i.startBuild config place).contributions d paths),
          none)

theorem rebuilt_rebuild (i : LiveIndex) (d : Disk) (config : Config) (root : Path) :
    Rebuilt i d config root (i.rebuild d config root) := by
  unfold rebuild
  split
  · next fault unresolved => exact .lost unresolved
  · next place resolved =>
    dsimp only
    split
    · next f unlisted =>
      obtain ⟨fault, rfl⟩ := filesOf_eq_error unlisted
      exact .failed resolved unlisted
    · next paths listed => exact .finished resolved listed

/-- A build that did not fail is of the files of the project. -/
theorem rebuild_eq_none {d : Disk} {config : Config} {root : Path} {i i' : LiveIndex}
    (built : i.rebuild d config root = (i', none)) :
    d.resolve root = .ok i'.root ∧ ∃ paths, filesOf ⟨d, i'.root, config⟩ = .ok paths ∧
      i'.state = .ready ∧ i'.config = config ∧
      i'.entries = .ofContributions (i'.contributions d paths) := by
  have ended := i.rebuilt_rebuild d config root
  rw [built] at ended
  cases ended with
  | finished resolved listed => exact ⟨resolved, _, listed, rfl, rfl, rfl⟩

/-- A build represents the files of the project in their order. -/
theorem represents_rebuild {d : Disk} (sound : d.Sound) {config : Config} {root : Path}
    {i i' : LiveIndex} (built : i.rebuild d config root = (i', none)) :
    ∃ paths, filesOf ⟨d, i'.root, config⟩ = .ok paths ∧
      Represents (i'.contributions d paths) i'.entries := by
  obtain ⟨resolved, paths, done, _, _, entries⟩ := rebuild_eq_none built
  have direct : i'.root.Direct := Disk.direct_of_resolve sound resolved
  refine ⟨paths, done, ?_⟩
  rw [entries]
  exact i'.represents_contributions d (nodup_filesOf done) (proper_of_mem_filesOf sound direct done)

/-! ## Answers of a representation -/

variable {i : LiveIndex} {files : List Contribution}

theorem visible_of_ready (ready : i.state = .ready) : i.visible = i.entries := by
  rw [visible, isReady, ready]
  rfl

theorem definition?_of_represents (ready : i.state = .ready) (represents : Represents files i.entries)
    (id : Text) : i.definition? id = Spec.lastDefinition? id (files.flatMap (·.definitions)) := by
  rw [definition?, visible_of_ready ready, represents.definition]

theorem placesOf_of_represents (ready : i.state = .ready) (represents : Represents files i.entries)
    (kind : MarkerKind) (id : Text) :
    i.placesOf kind id = placesAmong kind id (files.flatMap (·.markers)) := by
  rw [placesOf, visible_of_ready ready, represents.places, getD_filled?]

theorem markersIn_of_represents (ready : i.state = .ready) (represents : Represents files i.entries)
    (path : Text) :
    i.markersIn path = (files.flatMap (·.markers)).filter (·.path = path) := by
  rw [markersIn, visible_of_ready ready, represents.markersByFile,
    getD_shares _ represents.distinct]
  exact flatMap_filter_path (·.markers) (·.path) (· = path)
    fun c known => (represents.located c known).2

end LiveIndex

end Traceability
