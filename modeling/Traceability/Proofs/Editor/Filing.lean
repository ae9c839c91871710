import Traceability.Proofs.Editor.MarkerRename
import Traceability.Proofs.Live.Keyed
import Traceability.Proofs.Uri

/-!
# Edits under the URIs of their files

A path is read back from its URI, so no two files have the same one. A rename puts the edits of every
file under the URI of that file: those of its markers, then those of the text that defines the
identifier.
-/
namespace Traceability

namespace Editor

variable {d : Disk} {i : LiveIndex} {old new path uri : Text} {changes : Changes}

/-- The edits that rename an identifier in the text of the file that defines it. -/
def definitionEdits (d : Disk) (i : LiveIndex) (old new path : Text) : List Edit :=
  match i.definition? old with
  | none => []
  | some x =>
    if path = x.location.path then ((d.text? (.ofText path)).map (textEdits old new)).getD []
    else []

/-- All edits that rename an identifier in a file. -/
def fileEdits (d : Disk) (i : LiveIndex) (old new path : Text) : List Edit :=
  markerEdits old new (i.markersIn path) ++ definitionEdits d i old new path

/-! ## What is under a URI -/

theorem flatMap_editsAt (keyed : i.visible.Keyed) (located : i.Located) {p : Path}
    (proper : p.Proper) (old new : Text) :
    i.markerFiles.flatMap (editsAt old new (Uri.ofPath p.toText)) =
      markerEdits old new (i.markersIn p.toText) := by
  have own : ∀ file ∈ i.markerFiles, editsAt old new (Uri.ofPath p.toText) file =
      if p.toText = file.1 then markerEdits old new file.2 else [] := by
    intro file member
    obtain ⟨q, properQ, text⟩ := located.marked file member
    -- The URIs are compared, and that is to compare the paths.
    refine ite_congr (propext ⟨fun same => ?_, fun same => ?_⟩) (fun _ => rfl) fun _ => rfl
    · rw [← text] at same ⊢
      rw [Uri.ofPath_injective proper properQ same]
    · rw [same]
  rw [List.flatMap_congr own, LiveIndex.markerFiles,
    OrderedMap.flatMap_entries_eq keyed.marked, LiveIndex.markersIn]
  cases i.visible.markersByFile.get? p.toText with
  | none => rfl
  | some markers => rfl

/-- What a rename puts under a URI, whatever it is the URI of. -/
theorem getD_get?_changesFor (d : Disk) (i : LiveIndex) (old new uri : Text) :
    ((changesFor d i old new).get? uri).getD [] =
      i.markerFiles.flatMap (editsAt old new uri) ++
        (i.definition? old).toList.flatMap fun x =>
          if uri = Uri.ofPath x.location.path then definitionEdits d i old new x.location.path
          else [] := by
  have marked := getD_get?_foldl_addEdits .empty i.markerFiles old new uri
  rw [changesFor]
  cases defined : i.definition? old with
  | none => simpa using marked
  | some x =>
    cases text : d.text? (.ofText x.location.path) with
    | none => simpa [definitionEdits, defined, text] using marked
    | some t => simpa [definitionEdits, defined, text, getD_get?_addEdits] using marked

theorem definitionEdits_eq_nil {x : Spec.Definition} (defined : i.definition? old = some x)
    (elsewhere : path ≠ x.location.path) : definitionEdits d i old new path = [] := by
  simp [definitionEdits, defined, elsewhere]

theorem getD_get?_changesFor_ofPath (keyed : i.visible.Keyed) (located : i.Located) {p : Path}
    (proper : p.Proper) (d : Disk) (old new : Text) :
    ((changesFor d i old new).get? (Uri.ofPath p.toText)).getD [] =
      fileEdits d i old new p.toText := by
  rw [getD_get?_changesFor, flatMap_editsAt keyed located proper, fileEdits]
  congr 1
  cases defined : i.definition? old with
  | none => simp [definitionEdits, defined]
  | some x =>
    obtain ⟨q, properQ, text⟩ := located.defining old x defined
    rw [Option.toList_some, List.flatMap_singleton, ← text]
    split
    · next same => rw [Uri.ofPath_injective proper properQ same]
    · next other =>
      have elsewhere : p.toText ≠ x.location.path := fun same => other (by rw [same, text])
      rw [definitionEdits_eq_nil defined elsewhere]

/-! ## What URIs there are -/

/-- Whether there are edits under every URI. -/
def Filled (changes : Changes) : Prop := ∀ uri edits, changes.get? uri = some edits → edits ≠ []

theorem Filled.addEdits (filled : Filled changes) (path : Text) (edits : List Edit) :
    Filled (addEdits changes path edits) := by
  unfold Editor.addEdits
  dsimp only
  split
  · exact filled
  · next some =>
    intro uri made found
    rw [OrderedMap.get?_insert] at found
    split at found
    · cases found
      exact List.append_ne_nil_of_right_ne_nil _ some
    · exact filled uri made found

theorem filled_changesFor (d : Disk) (i : LiveIndex) (old new : Text) :
    Filled (changesFor d i old new) := by
  have marked : ∀ (files : List (Text × List Marker)) (changes : Changes), Filled changes →
      Filled (files.foldl (fun changes file =>
        addEdits changes file.1 (markerEdits old new file.2)) changes) := by
    intro files
    induction files with
    | nil => exact fun changes filled => filled
    | cons file files ih => exact fun changes filled => ih _ (filled.addEdits _ _)
  have markers := marked i.markerFiles .empty nofun
  rw [changesFor]
  split
  · exact markers
  · dsimp only
    split
    · exact markers
    · exact markers.addEdits _ _

theorem getD_get?_ne_nil_of_mem_keys (known : uri ∈ (changesFor d i old new).keys) :
    ((changesFor d i old new).get? uri).getD [] ≠ [] := by
  obtain ⟨edits, found⟩ := OrderedMap.mem_keys_iff.mp known
  rw [found]
  exact filled_changesFor d i old new uri edits found

/-- A URI is there for a file of the index. -/
theorem exists_file_of_mem_keys (located : i.Located)
    (known : uri ∈ (changesFor d i old new).keys) :
    ∃ p : Path, p.Proper ∧ uri = Uri.ofPath p.toText := by
  obtain ⟨e, member⟩ := List.exists_mem_of_ne_nil _ (getD_get?_ne_nil_of_mem_keys known)
  rw [getD_get?_changesFor, List.mem_append] at member
  rcases member with marked | defining
  · obtain ⟨file, among, inside⟩ := List.mem_flatMap.mp marked
    obtain ⟨p, proper, text⟩ := located.marked file among
    refine ⟨p, proper, ?_⟩
    rw [editsAt] at inside
    split at inside
    · next same => rw [same, text]
    · cases inside
  · obtain ⟨x, among, inside⟩ := List.mem_flatMap.mp defining
    obtain ⟨p, proper, text⟩ := located.defining old x (Option.mem_toList.mp among)
    refine ⟨p, proper, ?_⟩
    split at inside
    · next same => rw [same, text]
    · cases inside

theorem rename?_eq_some_iff {path : Path} {line character : Int} {newName : Text} :
    rename? d i path line character newName = some changes ↔
      ∃ m, i.markerAt? path.toText line character = some m ∧ Text.trim newName ≠ [] ∧
        Text.trim newName ≠ m.id ∧ (changesFor d i m.id (Text.trim newName)).entries ≠ [] ∧
          changes = changesFor d i m.id (Text.trim newName) := by
  unfold rename?
  cases i.markerAt? path.toText line character with
  | none => simp
  | some m =>
    by_cases given : Text.trim newName = []
    · simp [given]
    · by_cases same : Text.trim newName = m.id
      · simp [same]
      · by_cases changed : (changesFor d i m.id (Text.trim newName)).entries = []
        · simp [given, same, changed]
        · simpa [given, same, changed] using eq_comm

/-- A path from the root is read back from its URI, two paths have two URIs, and under the URI of a
file a rename puts the edits of that file and no others. -/
theorem filed_under_own_uri :
    (∀ p : Path, p.Proper → p.isAbsolute = true → Uri.toPath (Uri.ofPath p.toText) = .ok p) ∧
    (∀ p q : Path, p.Proper → q.Proper → p ≠ q → Uri.ofPath p.toText ≠ Uri.ofPath q.toText) ∧
    ∀ config root (calls : List IndexCall), (∀ c ∈ calls, c.Proper) →
      let i := calls.foldl IndexCall.apply { config, root }
      ∀ d path line character newName changes,
        rename? d i path line character newName = some changes →
        ∃ m, i.markerAt? path.toText line character = some m ∧
          (∀ p : Path, p.Proper → (changes.get? (Uri.ofPath p.toText)).getD [] =
            fileEdits d i m.id (Text.trim newName) p.toText) ∧
          ∀ uri ∈ changes.keys, ∃ p : Path, p.Proper ∧ uri = Uri.ofPath p.toText ∧
            fileEdits d i m.id (Text.trim newName) p.toText ≠ [] := by
  refine ⟨fun p => Uri.toPath_ofPath, fun p q properP properQ => ?_, ?_⟩
  · exact mt (Uri.ofPath_injective properP properQ)
  · intro config root calls proper i d path line character newName changes renamed
    have reachable : i.Reachable := (LiveIndex.Reachable.new config root).calls calls
    have located : i.Located := LiveIndex.located_of_calls config root proper
    obtain ⟨m, here, _, _, _, rfl⟩ := rename?_eq_some_iff.mp renamed
    have under := fun (p : Path) (proper : p.Proper) =>
      getD_get?_changesFor_ofPath reachable.keyed located proper d m.id (Text.trim newName)
    refine ⟨m, here, under, fun uri known => ?_⟩
    obtain ⟨p, proper, rfl⟩ := exists_file_of_mem_keys located known
    refine ⟨p, proper, rfl, ?_⟩
    rw [← under p proper]
    exact getD_get?_ne_nil_of_mem_keys known

def oddDisk : Disk := (Disk.blank []).write ["é.md"] (Text.Utf8.encode "### X-1: Of X-1")

/-- A build of a spec whose name is not in ASCII, and then two files of code that differ in a slash. -/
def oddCalls : List IndexCall :=
  [.rebuild oddDisk { specGlobs := ["*.md"] } ⟨.root, []⟩,
    .updateWith ⟨.doubleRoot, ["a b;%41#?.py"]⟩ "# @spec-impl: X-1",
    .updateWith ⟨.root, ["a b;%41#?.py"]⟩ "# @spec-test: X-1, X-1"]

/-- The edits of the two files and of the spec stand under three URIs. -/
theorem filed_under_own_uri_odd :
    let p : Path := ⟨.root, ["a b;%41#?.py"]⟩
    let q : Path := ⟨.doubleRoot, ["a b;%41#?.py"]⟩
    let spec : Path := ⟨.root, ["é.md"]⟩
    let i := oddCalls.foldl IndexCall.apply {}
    let changes := changesFor oddDisk i "X-1" "Y-2"
    (p.Proper ∧ q.Proper ∧ spec.Proper) ∧ (∀ c ∈ oddCalls, c.Proper) ∧
      rename? oddDisk i p 0 14 " Y-2" = some changes ∧
      Uri.toPath (Uri.ofPath p.toText) = .ok p ∧ Uri.toPath (Uri.ofPath q.toText) = .ok q ∧
      Uri.ofPath p.toText ≠ Uri.ofPath q.toText ∧
      ((changes.get? (Uri.ofPath p.toText)).getD []).length = 2 ∧
      ((changes.get? (Uri.ofPath q.toText)).getD []).length = 1 ∧
      ((changes.get? (Uri.ofPath spec.toText)).getD []).length = 2 ∧
      ∀ uri ∈ changes.keys, ∃ p : Path, p.Proper ∧ uri = Uri.ofPath p.toText ∧
        fileEdits oddDisk i "X-1" "Y-2" p.toText ≠ [] := by
  intro p q spec i changes
  obtain ⟨read, apart, filed⟩ := filed_under_own_uri
  obtain ⟨properP, properQ, properSpec⟩ : p.Proper ∧ q.Proper ∧ spec.Proper := by decide +kernel
  have proper : ∀ c ∈ oddCalls, c.Proper := by decide +kernel
  have here : i.markerAt? p.toText 0 14 = some ⟨.test, "X-1", p.toText, 1, 14, 17⟩ := by
    decide +kernel
  have renamed : rename? oddDisk i p 0 14 " Y-2" = some changes :=
    rename?_eq_some_iff.mpr ⟨_, here, by decide +kernel, by decide +kernel, by decide +kernel, rfl⟩
  obtain ⟨m, found, under, owned⟩ :=
    filed {} ⟨.root, []⟩ oddCalls proper oddDisk p 0 14 " Y-2" changes renamed
  cases here.symm.trans found
  refine ⟨⟨properP, properQ, properSpec⟩, proper, renamed, read p properP rfl, read q properQ rfl,
    apart p q properP properQ (by decide), ?_, ?_, ?_, owned⟩
  · rw [under p properP]
    decide +kernel
  · rw [under q properQ]
    decide +kernel
  · rw [under spec properSpec]
    decide +kernel

end Editor

end Traceability
