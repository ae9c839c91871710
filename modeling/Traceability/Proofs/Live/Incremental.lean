import Traceability.Editor.Session
import Traceability.Proofs.Live.Files

/-!
# Following the disk

An editor tells of every file that is saved or deleted, and the index follows, one file at a time. It
then holds what a build from the present disk would find; only the order of its files is that of the
last changes, and so is the choice between several definitions of one identifier.
-/
namespace Traceability

/-- A change of one file on disk. -/
inductive DiskChange where
  | saved (names : List Text) (bytes : List UInt8)
  | deleted (names : List Text)
deriving DecidableEq, Repr

namespace DiskChange

def names : DiskChange → List Text
  | saved names _ => names
  | deleted names => names

def onDisk (d : Disk) : DiskChange → Disk
  | saved names bytes => d.write names bytes
  | deleted names => d.delete names

def told : DiskChange → Editor.FileChange
  | saved _ _ => .changed
  | deleted _ => .deleted

/-- Whether a disk allows a change: a file is saved where one can be, and deleted where one is. -/
def Possible (d : Disk) : DiskChange → Prop
  | saved names _ => d.Writable names
  | deleted names => ∃ bytes, d.entries.get? names = some (.file bytes)

variable {d : Disk} {c : DiskChange}

theorem sound_onDisk (sound : d.Sound) (possible : c.Possible d) : (c.onDisk d).Sound := by
  cases c with
  | saved names bytes => exact sound.write possible bytes
  | deleted names => exact sound.delete names

theorem fileName_of_possible (sound : d.Sound) (possible : c.Possible d) :
    ∀ n ∈ c.names, Path.FileName n := by
  cases c with
  | saved names bytes => exact possible.1
  | deleted names =>
    obtain ⟨bytes, found⟩ := possible
    exact sound.named names (OrderedMap.mem_keys_iff.mpr ⟨_, found⟩)

/-- A change leaves all files but one as they were. -/
theorem entry?_onDisk (sound : d.Sound) (possible : c.Possible d) {q : Path} (direct : q.Direct)
    (apart : q.parts ≠ c.names) (file : d.isFile q = true ∨ (c.onDisk d).isFile q = true) :
    Disk.entry? (c.onDisk d) q = d.entry? q := by
  have sound' := sound_onDisk sound possible
  rw [Disk.isFile_iff sound direct, Disk.isFile_iff sound' direct] at file
  rw [Disk.entry?_direct sound' direct, Disk.entry?_direct sound direct]
  cases c with
  | deleted names =>
    obtain ⟨bytes, found⟩ := possible
    exact (Disk.get?_delete sound found q.parts).trans (if_neg apart)
  | saved names bytes =>
    have written := Disk.get?_write possible bytes q.parts
    rw [if_neg (show q.parts ≠ names from apart)] at written
    have free : q.parts ∉ Disk.above names := by
      intro above
      rw [if_pos above] at written
      rcases file with ⟨content, found⟩ | ⟨content, found⟩
      · cases possible.2.2.2 _ above _ found
      · cases written.symm.trans found
    exact written.trans (if_neg free)

/-- No change of a file moves a directory, so a path is resolved as before. -/
theorem isDirectoryAt_onDisk (sound : d.Sound) (possible : c.Possible d) {names : List Text}
    (directory : d.isDirectoryAt names = true) : (c.onDisk d).isDirectoryAt names = true := by
  rw [Disk.isDirectoryAt, decide_eq_true_iff] at directory ⊢
  cases c with
  | deleted file =>
    obtain ⟨bytes, found⟩ := possible
    have apart : names ≠ file := by
      rintro rfl
      cases found.symm.trans directory
    exact (Disk.get?_delete sound found names).trans ((if_neg apart).trans directory)
  | saved file bytes =>
    have apart : names ≠ file := by
      rintro rfl
      exact possible.2.2.1 directory
    refine (Disk.get?_write possible bytes names).trans ((if_neg apart).trans ?_)
    split
    · rfl
    · exact directory

theorem current_onDisk (d : Disk) (c : DiskChange) : (c.onDisk d).current = d.current := by
  cases c <;> rfl

theorem resolve_onDisk (sound : d.Sound) (possible : c.Possible d) {p q : Path}
    (found : d.resolve p = .ok q) : (c.onDisk d).resolve p = .ok q := by
  obtain ⟨named, placed, rfl⟩ := Disk.resolve_eq_ok_iff.mp found
  have same := current_onDisk d c
  refine Disk.resolve_eq_ok_iff.mpr ⟨named, fun relative => ?_, ?_⟩
  · rw [same]
    exact isDirectoryAt_onDisk sound possible (placed relative)
  · rw [Disk.fromRoot, Disk.fromRoot, same]

theorem isFile_saved (sound : d.Sound) {names : List Text} (bytes : List UInt8)
    (writable : d.Writable names) {q : Path} (direct : q.Direct) (here : q.parts = names) :
    (d.write names bytes).isFile q = true := by
  rw [Disk.isFile_iff (sound.write writable bytes) direct, here]
  exact ⟨bytes, (Disk.get?_write writable bytes names).trans (if_pos rfl)⟩

theorem not_isFile_deleted (sound : d.Sound) {names : List Text} {bytes : List UInt8}
    (found : d.entries.get? names = some (.file bytes)) {q : Path} (direct : q.Direct)
    (here : q.parts = names) : ¬ (d.delete names).isFile q = true := by
  rw [Disk.isFile_iff (sound.delete names) direct, here, Disk.get?_delete sound found, if_pos rfl]
  simp

end DiskChange

def Contribution.Silent (c : Contribution) : Prop := c.definitions = [] ∧ c.markers = []

instance (c : Contribution) : Decidable c.Silent := inferInstanceAs (Decidable (_ ∧ _))

structure Workspace where
  disk : Disk
  index : LiveIndex

namespace Workspace

open IndexEntries

def project (w : Workspace) : Project := ⟨w.disk, w.index.root, w.index.config⟩

/-- The path that the editor tells of a file by. -/
def path (w : Workspace) (names : List Text) : Path := ⟨w.index.root.anchor, names⟩

/-- The workspace behind a change that the editor tells of at once. -/
def after (w : Workspace) (c : DiskChange) : Workspace :=
  let disk := c.onDisk w.disk
  ⟨disk, Editor.Session.follow disk (w.path c.names) c.told w.index⟩

/-- The paths of the files in the index behind a change, in the order of their last changes. -/
def pathsAfter (anchor : Anchor) (paths : List Path) : DiskChange → List Path
  | .saved names _ => paths.filter (· ≠ ⟨anchor, names⟩) ++ [⟨anchor, names⟩]
  | .deleted names => paths.filter (· ≠ ⟨anchor, names⟩)

def contribution (w : Workspace) (path : Path) : Contribution :=
  w.index.contribution path (w.disk.text? path)

def Defines (w : Workspace) (path : Path) (id : Text) : Prop :=
  ∃ x ∈ (w.contribution path).definitions, x.id = id

/-- Whether a file that was saved is one of the project, or says nothing. -/
def Accounts (w : Workspace) : DiskChange → Prop
  | .saved names _ =>
    (∃ paths, LiveIndex.filesOf w.project = .ok paths ∧ w.path names ∈ paths) ∨
      (w.contribution (w.path names)).Silent
  | .deleted _ => True

/-- Whether changes may come one after the other. -/
def Allows : Workspace → List DiskChange → Prop
  | _, [] => True
  | w, c :: rest => c.Possible w.disk ∧ (w.after c).Accounts c ∧ (w.after c).Allows rest

/-- The index holds the files of the project as they are on disk, and silent ones beside them. -/
structure Follows (w : Workspace) (paths : List Path) : Prop where
  sound : w.disk.Sound
  direct : w.index.root.Direct
  plain : w.project.Plain
  usable : ∃ found, LiveIndex.filesOf w.project = .ok found
  ready : w.index.state = .ready
  once : paths.Nodup
  placed : ∀ p ∈ paths, p.Direct ∧ p.anchor = w.index.root.anchor
  present : ∀ p ∈ paths, w.disk.isFile p = true
  accounted : ∀ p ∈ paths, w.project.Selects p ∨ (w.contribution p).Silent
  complete : ∀ p, w.disk.isFile p = true → w.project.Selects p → p ∈ paths
  represents : Represents (paths.map w.contribution) w.index.entries

/-- An index answers as another one does that was built for some files: an identifier has the same
places, in some order, and the same definition, if only one of the files defines it. Of several
definitions it has the last one in an order of its own. -/
structure Agrees (w : Workspace) (order : List Path) (fresh : LiveIndex) (found : List Path) :
    Prop where
  places : ∀ kind id, (w.index.placesOf kind id).Perm (fresh.placesOf kind id)
  last : ∀ id, w.index.definition? id =
    Spec.lastDefinition? id (order.flatMap fun p => (w.contribution p).definitions)
  defined : ∀ id, (w.index.definition? id).isSome = (fresh.definition? id).isSome
  sole : ∀ id, (∀ p ∈ found, ∀ q ∈ found, w.Defines p id → w.Defines q id → p = q) →
    w.index.definition? id = fresh.definition? id

/-! ## One change -/

variable {w : Workspace} {paths : List Path} {c : DiskChange}

theorem after_index (w : Workspace) (c : DiskChange) :
    (w.after c).index.config = w.index.config ∧ (w.after c).index.root = w.index.root ∧
      (w.after c).index.state = w.index.state := by
  cases c with
  | saved names bytes => exact ⟨rfl, rfl, rfl⟩
  | deleted names => exact ⟨rfl, rfl, rfl⟩

theorem contribution_after (w : Workspace) (c : DiskChange) (path : Path) :
    (w.after c).contribution path =
      w.index.contribution path (Disk.text? (c.onDisk w.disk) path) := by
  cases c with
  | saved names bytes => rfl
  | deleted names => rfl

theorem usable_after (c : DiskChange) (usable : ∃ found, LiveIndex.filesOf w.project = .ok found) :
    ∃ found, LiveIndex.filesOf (w.after c).project = .ok found := by
  rw [LiveIndex.filesOf_isOk_iff] at usable ⊢
  cases c with
  | saved names bytes => exact usable
  | deleted names => exact usable

theorem entries_saved (w : Workspace) (names : List Text) (bytes : List UInt8) :
    (w.after (.saved names bytes)).index.entries =
      (w.index.entries.drop (w.path names).toText).insert
        ((w.after (.saved names bytes)).contribution (w.path names)) := by
  change w.index.entries.update (w.index.contribution (w.path names) _) = _
  rw [IndexEntries.update, LiveIndex.contribution_path]
  rfl

theorem parts_ne_of_ne_path {q : Path} {names : List Text}
    (anchor : q.anchor = w.index.root.anchor) (other : q ≠ w.path names) : q.parts ≠ names := by
  intro same
  apply other
  rw [path, ← anchor, ← same]

/-- Dropping a file from the index is dropping its path. -/
theorem filter_contributions (proper : ∀ p ∈ paths, p.Proper) {path : Path}
    (properPath : path.Proper) :
    (paths.map w.contribution).filter (·.path ≠ path.toText) =
      (paths.filter (· ≠ path)).map w.contribution := by
  rw [List.filter_map]
  congr 1
  apply List.filter_congr
  intro q member
  have texts : (w.contribution q).path = q.toText := w.index.contribution_path q _
  simp only [Function.comp_apply, texts]
  have same : q.toText = path.toText ↔ q = path :=
    ⟨Path.toText_injective (proper q member) properPath, congrArg Path.toText⟩
  simp only [ne_eq, same]

namespace Follows

theorem proper (follows : w.Follows paths) : ∀ p ∈ paths, p.Proper := fun p member =>
  Disk.proper_of_isFile follows.sound (follows.placed p member).1 (follows.present p member)

theorem direct_path (follows : w.Follows paths) (possible : c.Possible w.disk) :
    (w.path c.names).Direct ∧ (w.path c.names).Proper := by
  have named := DiskChange.fileName_of_possible follows.sound possible
  exact ⟨⟨follows.direct.1, fun n part => (named n part).2⟩, fun n part => (named n part).1⟩

/-- Only the changed file of the index has another entry on disk. -/
theorem entry?_kept (follows : w.Follows paths) (possible : c.Possible w.disk) {q : Path}
    (member : q ∈ paths) (other : q ≠ w.path c.names) :
    Disk.entry? (c.onDisk w.disk) q = w.disk.entry? q := by
  obtain ⟨direct, anchor⟩ := follows.placed q member
  have apart : q.parts ≠ c.names := parts_ne_of_ne_path anchor other
  exact DiskChange.entry?_onDisk follows.sound possible direct apart
    (Or.inl (follows.present q member))

theorem contribution_after_of_ne (follows : w.Follows paths) (possible : c.Possible w.disk) {q : Path}
    (member : q ∈ paths) (other : q ≠ w.path c.names) :
    (w.after c).contribution q = w.contribution q := by
  have entry := follows.entry?_kept possible member other
  rw [contribution_after, contribution, Disk.text?_congr entry]

theorem present_kept (follows : w.Follows paths) (possible : c.Possible w.disk) :
    ∀ q ∈ paths.filter (· ≠ w.path c.names), (w.after c).disk.isFile q = true := by
  intro q member
  obtain ⟨member, other⟩ := List.mem_filter.mp member
  have entry := follows.entry?_kept possible member (of_decide_eq_true other)
  exact (Disk.isFile_congr entry).trans (follows.present q member)

theorem complete_kept (follows : w.Follows paths) (possible : c.Possible w.disk) {q : Path}
    (file : (w.after c).disk.isFile q = true) (selected : w.project.Selects q)
    (other : q ≠ w.path c.names) : q ∈ paths.filter (· ≠ w.path c.names) := by
  have apart : q.parts ≠ c.names := parts_ne_of_ne_path (selected.anchor follows.plain) other
  have entry := DiskChange.entry?_onDisk follows.sound possible selected.direct apart
    (Or.inr file)
  have before : w.disk.isFile q = true := (Disk.isFile_congr entry).symm.trans file
  exact List.mem_filter.mpr ⟨follows.complete q before selected, decide_eq_true other⟩

theorem represents_kept (follows : w.Follows paths) (possible : c.Possible w.disk) :
    Represents ((paths.filter (· ≠ w.path c.names)).map (w.after c).contribution)
      (w.index.entries.drop (w.path c.names).toText) := by
  have dropped := follows.represents.drop (w.path c.names).toText
  rw [filter_contributions follows.proper (follows.direct_path possible).2] at dropped
  have same : (paths.filter (· ≠ w.path c.names)).map (w.after c).contribution =
      (paths.filter (· ≠ w.path c.names)).map w.contribution := by
    apply List.map_congr_left
    intro q member
    obtain ⟨member, other⟩ := List.mem_filter.mp member
    exact follows.contribution_after_of_ne possible member (of_decide_eq_true other)
  rw [same]
  exact dropped

theorem represents_saved (follows : w.Follows paths) {names : List Text} {bytes : List UInt8}
    (possible : (DiskChange.saved names bytes).Possible w.disk) :
    Represents ((pathsAfter w.index.root.anchor paths (.saved names bytes)).map
        (w.after (.saved names bytes)).contribution)
      (w.after (.saved names bytes)).index.entries := by
  rw [entries_saved, pathsAfter, List.map_append]
  refine (follows.represents_kept possible).insert (w.index.contribution_local _ _) ?_
  rw [contribution, LiveIndex.contribution_path, List.map_map]
  intro member
  obtain ⟨q, old, same⟩ := List.mem_map.mp member
  obtain ⟨known, other⟩ := List.mem_filter.mp old
  have texts : q.toText = (w.path names).toText :=
    (w.index.contribution_path q _).symm.trans same
  have one : q = w.path names :=
    Path.toText_injective (follows.proper q known) (follows.direct_path possible).2 texts
  exact of_decide_eq_true other one

theorem accounted_kept (follows : w.Follows paths) (possible : c.Possible w.disk) :
    ∀ q ∈ paths.filter (· ≠ w.path c.names),
      w.project.Selects q ∨ ((w.after c).contribution q).Silent := by
  intro q member
  obtain ⟨member, other⟩ := List.mem_filter.mp member
  rw [follows.contribution_after_of_ne possible member (of_decide_eq_true other)]
  exact follows.accounted q member

theorem after_deleted (follows : w.Follows paths) {names : List Text}
    (possible : (DiskChange.deleted names).Possible w.disk) :
    (w.after (.deleted names)).Follows
      (pathsAfter w.index.root.anchor paths (.deleted names)) where
  sound := DiskChange.sound_onDisk follows.sound possible
  direct := follows.direct
  plain := follows.plain
  usable := usable_after _ follows.usable
  ready := follows.ready
  once := follows.once.filter _
  placed := fun q member => follows.placed q (List.mem_of_mem_filter member)
  present := follows.present_kept possible
  accounted := follows.accounted_kept possible
  complete := by
    intro q file selected
    refine follows.complete_kept possible file selected ?_
    intro same
    subst same
    obtain ⟨bytes, found⟩ := possible
    exact DiskChange.not_isFile_deleted follows.sound found selected.direct rfl file
  represents := follows.represents_kept possible

theorem after_saved (follows : w.Follows paths) {names : List Text} {bytes : List UInt8}
    (possible : (DiskChange.saved names bytes).Possible w.disk)
    (accounts : (w.after (.saved names bytes)).Accounts (.saved names bytes)) :
    (w.after (.saved names bytes)).Follows
      (pathsAfter w.index.root.anchor paths (.saved names bytes)) := by
  have direct := (follows.direct_path possible).1
  have sound := DiskChange.sound_onDisk follows.sound possible
  have plain : (w.after (.saved names bytes)).project.Plain := follows.plain
  have fresh : w.path names ∉ paths.filter (· ≠ w.path names) := by simp
  have memberAfter : ∀ q ∈ pathsAfter w.index.root.anchor paths (.saved names bytes),
      q ∈ paths.filter (· ≠ w.path names) ∨ q = w.path names := by
    intro q member
    exact (List.mem_append.mp member).imp_right List.mem_singleton.mp
  refine ⟨sound, follows.direct, plain, usable_after _ follows.usable, follows.ready, ?_, ?_, ?_,
    ?_, ?_, follows.represents_saved possible⟩
  · refine (follows.once.filter _).append (List.nodup_singleton _) ?_
    exact List.disjoint_singleton.mpr fresh
  · intro q member
    rcases memberAfter q member with old | rfl
    · exact follows.placed q (List.mem_of_mem_filter old)
    · exact ⟨direct, rfl⟩
  · intro q member
    rcases memberAfter q member with old | rfl
    · exact follows.present_kept possible q old
    · exact DiskChange.isFile_saved follows.sound bytes possible direct rfl
  · intro q member
    rcases memberAfter q member with old | rfl
    · exact follows.accounted_kept possible q old
    · refine accounts.imp_left ?_
      intro known
      obtain ⟨found, done, member⟩ := known
      have listed : w.path names ∈ found ↔ _ := LiveIndex.mem_filesOf_iff
        (p := (w.after (.saved names bytes)).project) sound follows.direct plain done
      exact (listed.mp member).2
  · intro q file selected
    by_cases here : q = w.path names
    · exact List.mem_append_right _ (List.mem_singleton.mpr here)
    · exact List.mem_append_left _ (follows.complete_kept possible file selected here)

/-- Every change keeps the index in step with the disk. -/
theorem after (follows : w.Follows paths) (possible : c.Possible w.disk)
    (accounts : (w.after c).Accounts c) :
    (w.after c).Follows (pathsAfter w.index.root.anchor paths c) := by
  cases c with
  | saved names bytes => exact follows.after_saved possible accounts
  | deleted names => exact follows.after_deleted possible

/-! ## Runs of changes -/

theorem run (follows : w.Follows paths) {changes : List DiskChange} (allowed : w.Allows changes) :
    (changes.foldl Workspace.after w).Follows
      (changes.foldl (pathsAfter w.index.root.anchor) paths) := by
  induction changes generalizing w paths with
  | nil => exact follows
  | cons c rest ih =>
    obtain ⟨possible, accounts, later⟩ := allowed
    have next := ih (follows.after possible accounts) later
    rw [(after_index w c).2.1] at next
    exact next

theorem resolve_run (follows : w.Follows paths) {changes : List DiskChange}
    (allowed : w.Allows changes) {p q : Path} (found : w.disk.resolve p = .ok q) :
    (changes.foldl Workspace.after w).disk.resolve p = .ok q := by
  induction changes generalizing w paths with
  | nil => exact found
  | cons c rest ih =>
    obtain ⟨possible, accounts, later⟩ := allowed
    have kept := DiskChange.resolve_onDisk follows.sound possible found
    exact ih (follows.after possible accounts) later kept

/-! ## A build and a run -/

/-- A build from scratch is in step with the disk. -/
theorem of_rebuild {d : Disk} (sound : d.Sound) {config : Config} {root : Path} {i₀ i : LiveIndex}
    (built : i₀.rebuild d config root = (i, none)) (plain : Project.Plain ⟨d, i.root, config⟩) :
    ∃ paths, LiveIndex.filesOf ⟨d, i.root, config⟩ = .ok paths ∧
      (Workspace.mk d i).Follows paths := by
  obtain ⟨resolved, paths, done, ready, rfl, _⟩ := LiveIndex.rebuild_eq_none built
  obtain ⟨paths', done', represents⟩ := LiveIndex.represents_rebuild sound built
  obtain rfl : paths = paths' := Except.ok.inj (done.symm.trans done')
  have direct : i.root.Direct := Disk.direct_of_resolve sound resolved
  have listed : ∀ {p}, p ∈ paths ↔ d.isFile p = true ∧ Project.Selects ⟨d, i.root, i.config⟩ p :=
    LiveIndex.mem_filesOf_iff sound direct plain done
  refine ⟨paths, done, ?_⟩
  exact
    { sound
      direct
      plain
      usable := ⟨paths, done⟩
      ready
      once := LiveIndex.nodup_filesOf done
      placed := by
        intro p member
        obtain ⟨_, selected⟩ := listed.mp member
        exact ⟨selected.direct, selected.anchor plain⟩
      present := fun p member => (listed.mp member).1
      accounted := fun p member => Or.inl (listed.mp member).2
      complete := fun p file selected => listed.mpr ⟨file, selected⟩
      represents }

variable {found : List Path}

theorem mem_iff_of_filesOf (follows : w.Follows paths)
    (done : LiveIndex.filesOf w.project = .ok found) {p : Path} :
    p ∈ found ↔ p ∈ paths ∧ w.project.Selects p := by
  rw [LiveIndex.mem_filesOf_iff (p := w.project) follows.sound follows.direct follows.plain done]
  constructor
  · intro known
    obtain ⟨file, selected⟩ := known
    exact ⟨follows.complete p file selected, selected⟩
  · intro known
    obtain ⟨member, selected⟩ := known
    exact ⟨follows.present p member, selected⟩

/-- An index in step with the disk says what the files of the project say, in another order. -/
theorem perm_of_filesOf (follows : w.Follows paths)
    (done : LiveIndex.filesOf w.project = .ok found) {β : Type} (say : Contribution → List β)
    (silent : ∀ c : Contribution, c.Silent → say c = []) :
    (paths.flatMap fun p => say (w.contribution p)).Perm
      (found.flatMap fun p => say (w.contribution p)) := by
  -- The files beside those of the project are silent; without them the lists have the same files.
  have kept : (paths.filter (· ∈ found)).Perm found := by
    rw [List.perm_ext_iff_of_nodup (follows.once.filter _) (LiveIndex.nodup_filesOf done)]
    intro p
    rw [List.mem_filter, decide_eq_true_iff]
    refine and_iff_right_of_imp fun member => ?_
    exact ((follows.mem_iff_of_filesOf done).mp member).1
  have speaking : ∀ l : List Path, (∀ p ∈ l, p ∈ paths) →
      (l.filter (· ∈ found)).flatMap (fun p => say (w.contribution p)) =
        l.flatMap fun p => say (w.contribution p) := by
    intro l among
    induction l with
    | nil => rfl
    | cons p rest ih =>
      have later := ih fun q member => among q (List.mem_cons_of_mem _ member)
      by_cases here : p ∈ found
      · rw [List.filter_cons_of_pos (by simpa using here), List.flatMap_cons, List.flatMap_cons,
          later]
      · have member := among p List.mem_cons_self
        have quiet : (w.contribution p).Silent := (follows.accounted p member).resolve_left
          fun selected => here ((follows.mem_iff_of_filesOf done).mpr ⟨member, selected⟩)
        rw [List.filter_cons_of_neg (by simpa using here), List.flatMap_cons, silent _ quiet,
          List.nil_append, later]
  rw [← speaking paths fun p member => member]
  exact kept.flatMap_right _

theorem definition?_eq (follows : w.Follows paths) (id : Text) :
    w.index.definition? id =
      Spec.lastDefinition? id (paths.flatMap fun p => (w.contribution p).definitions) := by
  rw [LiveIndex.definition?_of_represents follows.ready follows.represents, List.flatMap_map]

theorem placesOf_eq (follows : w.Follows paths) (kind : MarkerKind) (id : Text) :
    w.index.placesOf kind id =
      placesAmong kind id (paths.flatMap fun p => (w.contribution p).markers) := by
  rw [LiveIndex.placesOf_of_represents follows.ready follows.represents, List.flatMap_map]

/-- Only one file defines an identifier, so the order of the files does not matter. -/
theorem lastDefinition?_eq (follows : w.Follows paths)
    (done : LiveIndex.filesOf w.project = .ok found) {id : Text}
    (sole : ∀ p ∈ found, ∀ q ∈ found, w.Defines p id → w.Defines q id → p = q) :
    Spec.lastDefinition? id (paths.flatMap fun p => (w.contribution p).definitions) =
      Spec.lastDefinition? id (found.flatMap fun p => (w.contribution p).definitions) := by
  have known : ∀ q ∈ paths, w.Defines q id → q ∈ found := by
    intro q member defines
    obtain ⟨x, defined, _⟩ := defines
    refine (follows.mem_iff_of_filesOf done).mpr ⟨member, ?_⟩
    refine (follows.accounted q member).resolve_right fun silent => ?_
    rw [silent.1] at defined
    cases defined
  by_cases defined : ∃ p ∈ found, w.Defines p id
  · obtain ⟨p, member, defines⟩ := defined
    have others : ∀ q ∈ found, q ≠ p → ¬ w.Defines q id := fun q other apart defines' =>
      apart (sole q other p member defines' defines)
    have inPaths : Spec.lastDefinition? id (paths.flatMap fun p => (w.contribution p).definitions) =
        Spec.lastDefinition? id (w.contribution p).definitions := by
      refine Spec.lastDefinition?_flatMap follows.once ((follows.mem_iff_of_filesOf done).mp member).1
        fun q among apart x stated same => ?_
      have defines' : w.Defines q id := ⟨x, stated, same⟩
      exact others q (known q among defines') apart defines'
    have inFound : Spec.lastDefinition? id (found.flatMap fun p => (w.contribution p).definitions) =
        Spec.lastDefinition? id (w.contribution p).definitions :=
      Spec.lastDefinition?_flatMap (LiveIndex.nodup_filesOf done) member
        fun q among apart x stated same => others q among apart ⟨x, stated, same⟩
    rw [inPaths, inFound]
  · have undefined : ∀ l : List Path, (∀ q ∈ l, w.Defines q id → q ∈ found) →
        Spec.lastDefinition? id (l.flatMap fun p => (w.contribution p).definitions) = none := by
      intro l among
      rw [Spec.lastDefinition?_eq_none_iff]
      intro x stated same
      obtain ⟨q, member, inside⟩ := List.mem_flatMap.mp stated
      have defines : w.Defines q id := ⟨x, inside, same⟩
      exact defined ⟨q, among q member defines, defines⟩
    rw [undefined paths known, undefined found fun q member _ => member]

/-- A build from the present disk answers as an index does that is in step with it, but for the order
of the files. -/
theorem agrees (follows : w.Follows paths) (done : LiveIndex.filesOf w.project = .ok found)
    {fresh : LiveIndex} (ready : fresh.state = .ready)
    (represents : Represents (found.map w.contribution) fresh.entries) :
    w.Agrees paths fresh found := by
  have definitions := LiveIndex.definition?_of_represents ready represents
  have places := LiveIndex.placesOf_of_represents ready represents
  rw [List.flatMap_map] at definitions places
  refine ⟨fun kind id => ?_, follows.definition?_eq, fun id => ?_, fun id sole => ?_⟩
  · have marks := follows.perm_of_filesOf done (·.markers) fun c silent => silent.2
    rw [follows.placesOf_eq, places]
    exact (marks.filter _).map _
  · have defines := follows.perm_of_filesOf done (·.definitions) fun c silent => silent.1
    rw [follows.definition?_eq, definitions, Bool.eq_iff_iff, Spec.isSome_lastDefinition?,
      Spec.isSome_lastDefinition?]
    exact exists_congr fun x => and_congr_left' defines.mem_iff
  · rw [follows.definition?_eq, definitions, follows.lastDefinition?_eq done sole]

end Follows

end Workspace

theorem Workspace.run_index (w : Workspace) (changes : List DiskChange) :
    (changes.foldl after w).index.config = w.index.config ∧
      (changes.foldl after w).index.root = w.index.root := by
  induction changes generalizing w with
  | nil => exact ⟨rfl, rfl⟩
  | cons c rest ih =>
    obtain ⟨config, root⟩ := ih (w.after c)
    obtain ⟨config', root', _⟩ := after_index w c
    exact ⟨config.trans config', root.trans root'⟩

/-- After any changes of single files a build from the present disk succeeds, and the index, whose
files stand in the order of their last changes, agrees with it. -/
theorem LiveIndex.incremental_agrees {d : Disk} (sound : d.Sound) {config : Config} {root : Path}
    {i₀ i : LiveIndex} (built : i₀.rebuild d config root = (i, none))
    (plain : Project.Plain ⟨d, i.root, config⟩) {changes : List DiskChange}
    (allowed : (Workspace.mk d i).Allows changes) :
    let w := changes.foldl Workspace.after ⟨d, i⟩
    ∃ before now fresh, filesOf ⟨d, i.root, config⟩ = .ok before ∧
      filesOf ⟨w.disk, i.root, config⟩ = .ok now ∧
      ({} : LiveIndex).rebuild w.disk config root = (fresh, none) ∧
      w.Agrees (changes.foldl (Workspace.pathsAfter i.root.anchor) before) fresh now := by
  intro w
  obtain ⟨resolved, _, _, _, sameConfig, _⟩ := rebuild_eq_none built
  obtain ⟨before, done, follows⟩ := Workspace.Follows.of_rebuild sound built plain
  have follows' := follows.run allowed
  have resolved' : w.disk.resolve root = .ok i.root := follows.resolve_run allowed resolved
  obtain ⟨keptConfig, keptRoot⟩ := Workspace.run_index ⟨d, i⟩ changes
  have project : w.project = ⟨w.disk, i.root, config⟩ := by
    rw [Workspace.project, keptConfig, sameConfig, keptRoot]
  obtain ⟨now, done'⟩ := follows'.usable
  have listed : filesOf ⟨w.disk, i.root, config⟩ = .ok now := by
    rw [← project]
    exact done'
  have rebuilt : ∃ fresh, ({} : LiveIndex).rebuild w.disk config root = (fresh, none) := by
    unfold rebuild
    rw [resolved']
    dsimp only
    rw [listed]
    exact ⟨_, rfl⟩
  obtain ⟨fresh, rebuilt⟩ := rebuilt
  obtain ⟨freshResolved, _, _, ready, freshConfig, _⟩ := rebuild_eq_none rebuilt
  have freshRoot : fresh.root = i.root := Except.ok.inj (freshResolved.symm.trans resolved')
  obtain ⟨now', listed', represents⟩ := represents_rebuild follows'.sound rebuilt
  rw [freshRoot] at listed'
  obtain rfl : now = now' := Except.ok.inj (listed.symm.trans listed')
  have same : fresh.contributions w.disk now = now.map w.contribution := by
    have settings : fresh.contribution = w.index.contribution :=
      contribution_congr (freshConfig.trans (keptConfig.trans sameConfig).symm)
        (freshRoot.trans keptRoot.symm)
    rw [contributions, settings]
    rfl
  rw [same] at represents
  exact ⟨before, now, fresh, done, listed, rebuilt, follows'.agrees done' ready represents⟩

namespace Workspace

/-- A disk with some files in the current directory, and the index built for them. -/
def ofFiles (config : Config) (files : List (List Text × Text)) : Workspace :=
  let disk := files.foldl (fun d f => d.write ("p" :: f.1) (Text.Utf8.encode f.2)) (.blank ["p"])
  ⟨disk, (({} : LiveIndex).rebuild disk config ⟨.root, ["p"]⟩).1⟩

def shadowed : Workspace :=
  ofFiles { specGlobs := ["*.md"], codeGlobs := [] }
    [(["a.md"], "### X-1: First"), (["b.md"], "### X-1: Second")]

/-- A third spec defines the requirement, and the first one goes. -/
def shadowedChanges : List DiskChange :=
  [.saved ["p", "c.md"] (Text.Utf8.encode "### X-1: Third"), .deleted ["p", "a.md"]]

end Workspace

theorem LiveIndex.incremental_agrees_shadowed :
    let d := Workspace.shadowed.disk
    let i := Workspace.shadowed.index
    let root : Path := ⟨.root, ["p"]⟩
    let changes := Workspace.shadowedChanges
    d.Sound ∧ ({} : LiveIndex).rebuild d i.config root = (i, none) ∧
      Project.Plain ⟨d, i.root, i.config⟩ ∧ (Workspace.mk d i).Allows changes ∧
      (let w := changes.foldl Workspace.after ⟨d, i⟩
      ∃ before now fresh, filesOf ⟨d, i.root, i.config⟩ = .ok before ∧
        filesOf ⟨w.disk, i.root, i.config⟩ = .ok now ∧
        ({} : LiveIndex).rebuild w.disk i.config root = (fresh, none) ∧
        w.Agrees (changes.foldl (Workspace.pathsAfter i.root.anchor) before) fresh now) := by
  intro d i root changes
  have sound : d.Sound := by decide +kernel
  have built : ({} : LiveIndex).rebuild d i.config root = (i, none) :=
    Prod.ext rfl (by decide +kernel)
  have plain : Project.Plain ⟨d, i.root, i.config⟩ := by decide +kernel
  have allowed : (Workspace.mk d i).Allows changes := by
    refine ⟨?_, ?_, ?_, trivial, trivial⟩
    · change d.Writable ["p", "c.md"]
      decide +kernel
    · refine Or.inl ⟨[⟨.root, ["p", "a.md"]⟩, ⟨.root, ["p", "b.md"]⟩, ⟨.root, ["p", "c.md"]⟩], ?_, ?_⟩
      · decide +kernel
      · decide +kernel
    · refine ⟨Text.Utf8.encode "### X-1: First", ?_⟩
      decide +kernel
  exact ⟨sound, built, plain, allowed, LiveIndex.incremental_agrees sound built plain allowed⟩

namespace Workspace

/-- Code that is found by way of a directory that is not there. -/
def detour : Workspace :=
  ofFiles { specGlobs := [], codeGlobs := ["src/../lib/*.py"] } [(["lib", "a.py"], "# @spec-impl: X-1")]

/-- Whether the index answers as a build from the present disk does. -/
def MatchesRebuild (w : Workspace) : Prop :=
  let fresh := (({} : LiveIndex).rebuild w.disk w.index.config w.index.root).1
  (∀ id, w.index.definition? id = fresh.definition? id) ∧
    ∀ kind id, (w.index.placesOf kind id).Perm (fresh.placesOf kind id)

end Workspace

/-- Saving a spec as it is makes its definitions the last ones; a file that no glob leads to is read as
code; and a glob that goes up may find other files than the one that was saved. -/
theorem LiveIndex.incremental_differs :
    (Workspace.shadowed.index.state = .ready ∧ Workspace.detour.index.state = .ready) ∧
      ¬ (Workspace.shadowed.after
        (.saved ["p", "a.md"] (Text.Utf8.encode "### X-1: First"))).MatchesRebuild ∧
      ¬ (Workspace.shadowed.after
        (.saved ["p", "x.py"] (Text.Utf8.encode "# @spec-impl: X-1"))).MatchesRebuild ∧
      ¬ (Workspace.detour.after (.saved ["p", "src", "x.txt"] [])).MatchesRebuild := by
  refine ⟨by decide +kernel, ?_, ?_, ?_⟩
  · intro known
    obtain ⟨definitions, _⟩ := known
    have answer := definitions "X-1"
    revert answer
    decide +kernel
  · intro known
    obtain ⟨_, places⟩ := known
    have answer := (places .implementation "X-1").length_eq
    revert answer
    decide +kernel
  · intro known
    obtain ⟨_, places⟩ := known
    have answer := (places .implementation "X-1").length_eq
    revert answer
    decide +kernel

end Traceability
