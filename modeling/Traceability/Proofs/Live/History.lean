import Mathlib.Data.List.Induction
import Traceability.Proofs.Live.Canonical

/-!
# Histories of the live index

A build says what the state is until the next one, and what is said of single files in between does
not touch the state. A build whose root is not found ends while the state still says that it runs. An
index that is not ready shows nothing of what it holds, and a build whose root is found forgets all that
came before it.
-/
namespace Traceability

/-! ## The state behind a run of commits -/

namespace Commit

variable {i : LiveIndex}

/-- The number of builds that are running behind a commit. -/
def runningAfter (running : Nat) : Commit → Nat
  | start _ _ => running + 1
  | abandon _ => running
  | finish _ => running - 1
  | fail => running - 1
  | update _ => running
  | remove _ => running

/-- The state that the end of a build leaves. -/
def outcome? : Commit → Option IndexState
  | abandon _ => some .building
  | finish _ => some .ready
  | fail => some .failed
  | _ => none

/-- Whenever no build is running, the state is that of the build that ended last. -/
theorem state_of_idle {commits : List Commit} (idle : commits.foldl runningAfter 0 = 0) :
    (commits.foldl apply i).state =
      ((commits.filterMap outcome?).getLast?).getD i.state := by
  induction commits using List.reverseRecOn with
  | nil => rfl
  | append_singleton commits c ih =>
    rw [List.foldl_append] at idle
    rw [List.foldl_append, List.filterMap_append]
    cases c with
    -- Behind its start a build is running, whatever ran before.
    | start config root => exact absurd idle (Nat.succ_ne_zero _)
    | abandon config => simp [outcome?, apply, LiveIndex.startBuild]
    | finish cs => simp [outcome?, apply, LiveIndex.finishBuild]
    | fail => simp [outcome?, apply, LiveIndex.failBuild]
    | update c =>
      rw [show List.filterMap outcome? [update c] = [] from rfl, List.append_nil]
      exact ih idle
    | remove path =>
      rw [show List.filterMap outcome? [remove path] = [] from rfl, List.append_nil]
      exact ih idle

end Commit

/-! ## Calls -/

/-- A call of an index: a build, a file that is read from a disk, a file with its text, or a file that
is gone. -/
inductive IndexCall where
  | rebuild (d : Disk) (config : Config) (root : Path)
  | updateFrom (d : Disk) (path : Path)
  | updateWith (path : Path) (t : Text)
  | remove (path : Path)

namespace IndexCall

/-- The index behind a call. -/
def apply (i : LiveIndex) : IndexCall → LiveIndex
  | rebuild d config root => (i.rebuild d config root).1
  | updateFrom d path => i.updateFrom d path
  | updateWith path t => i.updateWith path t
  | remove path => i.remove path.toText

def builds : IndexCall → Bool
  | rebuild _ _ _ => true
  | _ => false

variable {i : LiveIndex} {calls : List IndexCall}

/-- Only a build changes the state. -/
theorem state_apply {c : IndexCall} (other : c.builds = false) : (c.apply i).state = i.state := by
  cases c with
  | rebuild d config root => cases other
  | updateFrom d path => rfl
  | updateWith path t => rfl
  | remove path => rfl

theorem state_run (others : ∀ c ∈ calls, c.builds = false) :
    (calls.foldl apply i).state = i.state := by
  induction calls generalizing i with
  | nil => rfl
  | cons c rest ih =>
    obtain ⟨first, later⟩ := List.forall_mem_cons.mp others
    rw [List.foldl_cons, ih later, state_apply first]

end IndexCall

namespace LiveIndex

/-- What comes of a build whose root is found, and whether it fails, does not depend on what the index
was before. -/
theorem rebuild_eq {d : Disk} {root place : Path} (found : d.resolve root = .ok place)
    (i j : LiveIndex) (config : Config) : i.rebuild d config root = j.rebuild d config root := by
  unfold rebuild
  rw [found]
  dsimp only
  have same : (i.startBuild config place).contribution = (j.startBuild config place).contribution :=
    contribution_congr rfl rfl
  rw [same]
  split <;> rfl

/-- The state that a build with such an end leaves. -/
def stateOf : Option Failure → IndexState
  | none => .ready
  | some (.root _) => .building
  | some _ => .failed

/-- A build fails for its root just where this is not found. -/
theorem rebuild_eq_root_iff {i : LiveIndex} {d : Disk} {config : Config} {root : Path}
    {fault : ResolveFault} :
    (i.rebuild d config root).2 = some (.root fault) ↔ d.resolve root = .error fault := by
  have ended := i.rebuilt_rebuild d config root
  generalize i.rebuild d config root = result at ended ⊢
  cases ended with
  | lost unresolved => simp [unresolved]
  | failed resolved => simp [resolved]
  | finished resolved => simp [resolved]

theorem state_rebuild (i : LiveIndex) (d : Disk) (config : Config) (root : Path) :
    (i.rebuild d config root).1.state = stateOf (i.rebuild d config root).2 := by
  have ended := i.rebuilt_rebuild d config root
  generalize i.rebuild d config root = result at ended ⊢
  cases ended with
  | lost => rfl
  | failed => rfl
  | finished => rfl

/-- Whether an index answers every question as if it knew of no file. -/
structure Silent (i : LiveIndex) : Prop where
  idCount : i.idCount = 0
  definition : ∀ id, i.definition? id = none
  definitions : ∀ kinds, i.definitionsOf kinds = []
  markers : ∀ path, i.markersIn path = []
  files : i.markerFiles = []
  marker : ∀ path line character, i.markerAt? path line character = none
  places : ∀ kind id, i.placesOf kind id = []

/-- Nothing can be seen of an index that is not ready. -/
theorem silent_of_ne_ready {i : LiveIndex} (other : i.state ≠ .ready) : i.Silent := by
  have blank : i.visible = {} := if_neg (by simpa [isReady] using other)
  have none (path : Text) : i.markersIn path = [] := by
    rw [markersIn, blank]
    rfl
  refine ⟨?_, fun id => ?_, fun kinds => ?_, none, ?_, fun path line character => ?_,
    fun kind id => ?_⟩
  · rw [idCount, blank]
    rfl
  · rw [definition?, blank]
    rfl
  · rw [definitionsOf, blank]
    rfl
  · rw [markerFiles, blank]
    rfl
  · rw [markerAt?, none path]
    rfl
  · rw [placesOf, blank]
    rfl

/-- The state is that of the last build, also where calls overlap and some build is the last one to
end: a failed build leaves it failed, but for one whose root is not found. An index that is not ready is
silent, whatever it holds; and behind a build whose root is found the index is the one that any other
index, new ones among them, would be behind it. -/
theorem forgets_past (config : Config) (root : Path) (calls : List IndexCall) :
    let new : LiveIndex := { config, root }
    let i := calls.foldl IndexCall.apply new
    ((∀ c ∈ calls, c.builds = false) → i.state = .empty) ∧
      (∀ before d config' root' after, calls = before ++ .rebuild d config' root' :: after →
        (∀ c ∈ after, c.builds = false) →
        let outcome := ((before.foldl IndexCall.apply new).rebuild d config' root').2
        i.state = stateOf outcome ∧
          ∀ fault, outcome = some (.root fault) ↔ d.resolve root' = .error fault) ∧
      (∀ commits : List Commit, commits.foldl Commit.runningAfter 0 = 0 →
        (commits.foldl Commit.apply new).state =
          ((commits.filterMap Commit.outcome?).getLast?).getD .empty) ∧
      (∀ j : LiveIndex, j.state ≠ .ready → j.Silent) ∧
      ∀ d config' root', (∃ place, d.resolve root' = .ok place) → ∀ other : LiveIndex,
        i.rebuild d config' root' = other.rebuild d config' root' := by
  intro new i
  refine ⟨fun others => ?_, ?_, fun commits => Commit.state_of_idle, fun j => silent_of_ne_ready,
    fun d config' root' ⟨place, found⟩ other => rebuild_eq found i other config'⟩
  · exact IndexCall.state_run others
  · rintro before d config' root' after rfl others
    refine ⟨?_, fun fault => rebuild_eq_root_iff⟩
    have split : i = after.foldl IndexCall.apply
        ((before.foldl IndexCall.apply new).rebuild d config' root').1 := by
      rw [show i = _ from List.foldl_append, List.foldl_cons]
      rfl
    rw [split, IndexCall.state_run others, state_rebuild]

/-- A project with one spec and one file of code. -/
def forgettingDisk : Disk :=
  let spec := (Disk.blank ["p"]).write ["p", "a.md"] (Text.Utf8.encode "### X-1: New")
  spec.write ["p", "x.py"] (Text.Utf8.encode "# @spec-impl: X-1")

def forgettingConfig : Config := { specGlobs := ["*.md"], codeGlobs := ["*.py"] }

/-- A file is told of before there is any build; a build fails for its globs; a spec and code are told
of, neither of which is on the disk. -/
def forgettingCalls : List IndexCall :=
  [.updateWith (.ofText "/p/x.py") "# @spec-test: X-1",
    .rebuild forgettingDisk { forgettingConfig with specGlobs := ["**.md"] } ⟨.root, ["p"]⟩,
    .updateWith (.ofText "/p/old.md") "### X-9: Old",
    .updateWith (.ofText "/p/old.py") "# @spec-impl: X-9"]

/-- What was told of is held and not shown, and gone behind a build that does not fail. -/
theorem forgets_past_failed :
    let i := forgettingCalls.foldl IndexCall.apply {}
    let built := i.rebuild forgettingDisk forgettingConfig ⟨.root, ["p"]⟩
    i.entries.definitions.keys = ["X-9".toList] ∧ i.entries.markersByFile.keys = ["/p/old.py".toList] ∧
      i.state = .failed ∧ i.Silent ∧
      built.2 = none ∧ built.1.placesOf .implementation "X-1" = [⟨"/p/x.py", 1⟩] ∧
      built = ({} : LiveIndex).rebuild forgettingDisk forgettingConfig ⟨.root, ["p"]⟩ := by
  intro i built
  obtain ⟨_, last, _, silent, forgets⟩ := forgets_past {} ⟨.root, []⟩ forgettingCalls
  have failed : i.state = .failed := by
    refine (last [_] _ _ _ [_, _] rfl (by decide)).1.trans ?_
    decide +kernel
  have other : i.state ≠ .ready := by
    rw [failed]
    decide
  exact ⟨by decide +kernel, by decide +kernel, failed, silent i other, by decide +kernel, by decide +kernel,
    forgets _ _ _ ⟨⟨.root, ["p"]⟩, by decide +kernel⟩ {}⟩

/-- A build behind another one, whose root no file can have, has failed and leaves a state that says
that it runs. -/
theorem building_without_build :
    let i := (({} : LiveIndex).rebuild forgettingDisk forgettingConfig ⟨.root, ["p"]⟩).1
    let failed := i.rebuild forgettingDisk forgettingConfig (.ofText "a\x00b")
    i.state = .ready ∧ failed.2 = some (.root .nullCharacter) ∧ failed.1.state = .building := by
  decide +kernel

end LiveIndex

end Traceability
