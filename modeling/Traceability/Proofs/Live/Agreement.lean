import Traceability.Proofs.Live.Files
import Traceability.Proofs.Trace.Index

/-!
# The editor and the commands see one project

A live index is built from one list of files, each read for what the settings take it for; a command
collects specs and code apart. Where the settings keep the two apart, both know the same definitions,
markers and places.
-/
namespace Traceability

/-- Whether no file of a project is both a spec and code, and an index can tell them apart. -/
def Project.Separates (p : Project) (i : LiveIndex) : Prop :=
  ∀ specs code, p.specPaths = .ok specs → p.codePaths = .ok code →
    (∀ path ∈ specs, path ∉ code) ∧ ∀ path ∈ specs ++ code, i.isSpec path = true ↔ path ∈ specs

theorem Project.separates_of {p : Project} {i : LiveIndex} {specs code : List Path}
    (specFiles : p.specPaths = .ok specs) (codeFiles : p.codePaths = .ok code)
    (apart : ∀ path ∈ specs, path ∉ code)
    (told : ∀ path ∈ specs ++ code, i.isSpec path = true ↔ path ∈ specs) : p.Separates i := by
  intro specs' code' specFiles' codeFiles'
  cases specFiles.symm.trans specFiles'
  cases codeFiles.symm.trans codeFiles'
  exact ⟨apart, told⟩

namespace LiveIndex

open IndexEntries

variable {i : LiveIndex} {path : Path}

theorem contribution_of_isSpec (spec : i.isSpec path = true) (text? : Option Text) :
    (i.contribution path text?).definitions =
        (text?.map (Spec.Document.read i.config.crossRefKeywords path.toText)).toList.flatMap
          (·.definitions) ∧
      (i.contribution path text?).markers = [] := by
  unfold contribution
  cases text? with
  | none => exact ⟨rfl, rfl⟩
  | some t => simp [spec]

theorem contribution_of_code (code : i.isSpec path = false) (seen : i.isIgnoredCode path = false)
    (text? : Option Text) :
    (i.contribution path text?).definitions = [] ∧
      (i.contribution path text?).markers =
        ((text?.map (Marker.scan i.config.markers path.toText)).getD {}).markers := by
  unfold contribution
  cases text? with
  | none => exact ⟨rfl, rfl⟩
  | some t => simp [code, seen]

/-- Collected code is looked at. -/
theorem isIgnoredCode_of_mem_codePaths {p : Project} {code : List Path}
    (config : i.config = p.config) (root : i.root = p.root) (done : p.codePaths = .ok code)
    (member : path ∈ code) : i.isIgnoredCode path = false := by
  obtain ⟨found, codeFound, rfl⟩ := Project.codePaths_eq_ok done
  obtain ⟨collected, kept⟩ := List.mem_filter.mp member
  obtain ⟨_, unignored, _⟩ := (Glob.mem_collect codeFound).mp collected
  rw [isIgnoredCode, config, root, unignored, Bool.false_or]
  simpa using kept

/-- The files of an index define what the documents of the specs define, and mark what the scans of
the code mark. -/
theorem contributions_separate {p : Project} {specs code : List Path} (config : i.config = p.config)
    (root : i.root = p.root) (codeFiles : p.codePaths = .ok code)
    (apart : ∀ path ∈ specs, path ∉ code)
    (told : ∀ path ∈ specs ++ code, i.isSpec path = true ↔ path ∈ specs) :
    let files := i.contributions p.disk (specs ++ code)
    files.flatMap (·.definitions) = (specs.filterMap p.document?).flatMap (·.definitions) ∧
      files.flatMap (·.markers) = (MarkerScan.merge (code.map p.scanFile)).markers := by
  have ofSpec : ∀ path ∈ specs,
      (i.contribution path (p.disk.text? path)).definitions =
          (p.document? path).toList.flatMap (·.definitions) ∧
        (i.contribution path (p.disk.text? path)).markers = [] := by
    intro path member
    have spec := (told path (List.mem_append_left _ member)).mpr member
    rw [Project.document?, ← config]
    exact contribution_of_isSpec spec _
  have ofCode : ∀ path ∈ code,
      (i.contribution path (p.disk.text? path)).definitions = [] ∧
        (i.contribution path (p.disk.text? path)).markers = (p.scanFile path).markers := by
    intro path member
    have notSpec : i.isSpec path = false := by
      rw [Bool.eq_false_iff]
      intro spec
      exact apart path ((told path (List.mem_append_right _ member)).mp spec) member
    have seen := isIgnoredCode_of_mem_codePaths config root codeFiles member
    rw [Project.scanFile, ← config]
    exact contribution_of_code notSpec seen _
  intro files
  have split : ∀ {β : Type} (say : Contribution → List β), files.flatMap say =
      (specs.flatMap fun path => say (i.contribution path (p.disk.text? path))) ++
        code.flatMap fun path => say (i.contribution path (p.disk.text? path)) := by
    intro β say
    simp only [files, contributions, List.map_append, List.flatMap_append, List.flatMap_map]
  have silentSpecs : (specs.flatMap fun path =>
      (i.contribution path (p.disk.text? path)).markers) = [] :=
    List.flatMap_eq_nil_iff.mpr fun path member => (ofSpec path member).2
  have silentCode : (code.flatMap fun path =>
      (i.contribution path (p.disk.text? path)).definitions) = [] :=
    List.flatMap_eq_nil_iff.mpr fun path member => (ofCode path member).1
  constructor
  · rw [split, silentCode, List.append_nil, List.flatMap_congr fun path member =>
      (ofSpec path member).1, List.filterMap_eq_flatMap_toList, List.flatMap_assoc]
  · rw [split, silentSpecs, List.nil_append, List.flatMap_congr fun path member =>
      (ofCode path member).2, MarkerScan.merge, List.flatMap_map]

/-- Where specs and code are kept apart, a build represents files that define what the specs define and
mark what is marked in the code. -/
theorem exists_files_of_separates {p : Project} (sound : p.disk.Sound)
    (resolved : p.disk.resolve p.root = .ok p.root) {i i' : LiveIndex}
    (built : i.rebuild p.disk p.config p.root = (i', none)) (separates : p.Separates i') :
    ∃ documents scan files, p.catalogue = .ok (.ofDocuments documents) ∧ p.scan = .ok scan ∧
      (∀ d ∈ documents, d.Parsed) ∧ i'.state = .ready ∧ Represents files i'.entries ∧
      files.flatMap (·.definitions) = documents.flatMap (·.definitions) ∧
      files.flatMap (·.markers) = scan.markers := by
  obtain ⟨resolved', paths, done, ready, config, _⟩ := rebuild_eq_none built
  obtain ⟨paths', done', represents⟩ := represents_rebuild sound built
  have root : i'.root = p.root := Except.ok.inj (resolved'.symm.trans resolved)
  rw [root] at done done'
  obtain rfl : paths = paths' := Except.ok.inj (done.symm.trans done')
  obtain ⟨specs, code, specFiles, codeFiles, rfl⟩ := filesOf_eq_ok done
  obtain ⟨apart, told⟩ := separates specs code specFiles codeFiles
  have all : (code.filter fun path => path ∉ specs) = code := by
    rw [List.filter_eq_self]
    intro path member
    simpa using fun spec => apart path spec member
  rw [all] at represents
  refine ⟨specs.filterMap p.document?, .merge (code.map p.scanFile), _, ?_, ?_, fun d member => ?_,
    ready, represents, contributions_separate config root codeFiles apart told⟩
  · rw [Project.catalogue, specFiles]
    rfl
  · rw [Project.scan, codeFiles]
    rfl
  · obtain ⟨path, _, read⟩ := List.mem_filterMap.mp member
    obtain ⟨t, _, rfl⟩ := Option.map_eq_some_iff.mp read
    exact Spec.Document.parsed_read _ _ _

/-- Where specs and code are kept apart, a build knows what the commands find in the project. -/
theorem rebuild_agrees {p : Project} (sound : p.disk.Sound)
    (resolved : p.disk.resolve p.root = .ok p.root) {i i' : LiveIndex}
    (built : i.rebuild p.disk p.config p.root = (i', none)) (separates : p.Separates i') :
    ∃ specs scan, p.catalogue = .ok specs ∧ p.scan = .ok scan ∧
      (∀ id, i'.definition? id = specs.definitions.get? id) ∧
      (∀ path, i'.markersIn path = scan.markers.filter (·.path = path)) ∧
      (∀ id l, l ∈ i'.placesOf .implementation id ↔
        l ∈ (TraceIndex.build specs scan.markers).codeOf.get id) ∧
      ∀ id l, l ∈ i'.placesOf .test id ↔
        l ∈ (TraceIndex.build specs scan.markers).testsOf.get id ∨
          l ∈ (TraceIndex.build specs scan.markers).propertyTestsOf.get id := by
  obtain ⟨documents, scan, files, catalogue, scanned, _, ready, represents, defines, marks⟩ :=
    exists_files_of_separates sound resolved built separates
  refine ⟨.ofDocuments documents, scan, catalogue, scanned, ?_, ?_, ?_, ?_⟩
  · intro id
    rw [definition?_of_represents ready represents, defines, Spec.Catalogue.get?_ofDocuments]
  · intro path
    rw [markersIn_of_represents ready represents, marks]
  · intro id l
    rw [placesOf_of_represents ready represents, marks, mem_placesAmong, TraceIndex.mem_codeOf]
  · intro id l
    rw [placesOf_of_represents ready represents, marks, mem_placesAmong, TraceIndex.mem_tests_or]

end LiveIndex

/-- Two specs define a requirement; of three files of code one is looked at, one is ignored and one
cannot be read. -/
def Project.mixed : Project :=
  let file (directory name t : Text) (d : Disk) : Disk :=
    d.write ["p", directory, name] (Text.Utf8.encode t)
  let specs := file "specs" "b.md" "### X-1: Second" <|
    file "specs" "a.md" "### X-1: First\n- X-1_AC-1 Holds" (.blank ["p"])
  let code := file "src" "x.py" "# @spec-impl: X-1_AC-1\n# @spec-test: X_P-1, X-1_AC-1" <|
    file "src" "made.py" "# @spec-impl: X-1_AC-1" specs
  { disk := code.write ["p", "src", "bytes.py"] [0xFF]
    root := ⟨.root, ["p"]⟩
    config :=
      { specGlobs := ["specs/*.md"], codeGlobs := ["src/*.py"], ignoreMarkers := ["src/made.py"] } }

theorem LiveIndex.rebuild_agrees_mixed :
    let p := Project.mixed
    let i' := (({} : LiveIndex).rebuild p.disk p.config p.root).1
    p.disk.Sound ∧ p.disk.resolve p.root = .ok p.root ∧
      ({} : LiveIndex).rebuild p.disk p.config p.root = (i', none) ∧ p.Separates i' ∧
      ∃ specs scan, p.catalogue = .ok specs ∧ p.scan = .ok scan ∧
        (∀ id, i'.definition? id = specs.definitions.get? id) ∧
        (∀ path, i'.markersIn path = scan.markers.filter (·.path = path)) ∧
        (∀ id l, l ∈ i'.placesOf .implementation id ↔
          l ∈ (TraceIndex.build specs scan.markers).codeOf.get id) ∧
        ∀ id l, l ∈ i'.placesOf .test id ↔
          l ∈ (TraceIndex.build specs scan.markers).testsOf.get id ∨
            l ∈ (TraceIndex.build specs scan.markers).propertyTestsOf.get id := by
  intro p i'
  have sound : p.disk.Sound := by decide +kernel
  have resolved : p.disk.resolve p.root = .ok p.root := by decide +kernel
  have built : ({} : LiveIndex).rebuild p.disk p.config p.root = (i', none) :=
    Prod.ext rfl (by decide +kernel)
  have separates : p.Separates i' := by
    have specFiles : p.specPaths =
        .ok [⟨.root, ["p", "specs", "a.md"]⟩, ⟨.root, ["p", "specs", "b.md"]⟩] := by decide +kernel
    have codeFiles : p.codePaths =
        .ok [⟨.root, ["p", "src", "bytes.py"]⟩, ⟨.root, ["p", "src", "x.py"]⟩] := by decide +kernel
    intro specs code specs_eq code_eq
    cases specFiles.symm.trans specs_eq
    cases codeFiles.symm.trans code_eq
    decide +kernel
  exact ⟨sound, resolved, built, separates, LiveIndex.rebuild_agrees sound resolved built separates⟩

end Traceability
