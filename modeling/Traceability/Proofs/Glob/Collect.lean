import Traceability.Proofs.Glob.Select

/-!
# What is collected

Files are collected once each. Where no glob leaves the root, whether a file is collected is told by
its path: globs lead to it, and it is not ignored. Whether globs can be used at all does not depend on
the disk.
-/
namespace Traceability.Glob

/-- Where a glob starts. -/
def start (root : Path) (glob : Text) : Path :=
  if (Path.ofText glob).isAbsolute then ⟨(Path.ofText glob).anchor, []⟩ else root

/-- Whether globs lead to a path, should a file be there, and it is not ignored. -/
def Selects (root : Path) (globs ignored : List Text) (p : Path) : Prop :=
  p.Direct ∧ ignores ignored root p = false ∧ ∃ glob ∈ globs.flatMap expand, ∃ steps,
    stepsOf glob = .ok steps ∧ ∃ names, p = descendant (start root glob) names ∧ leads steps names

/-- Whether globs name no directory above another, and none from another root. -/
def Plain (root : Path) (globs : List Text) : Prop :=
  ∀ glob ∈ globs.flatMap expand, ['.', '.'] ∉ (Path.ofText glob).parts ∧
    ((Path.ofText glob).isAbsolute = true → (Path.ofText glob).anchor = root.anchor)

instance (root : Path) (globs : List Text) : Decidable (Plain root globs) :=
  inferInstanceAs (Decidable (∀ glob ∈ globs.flatMap expand, _ ∧ (_ → _)))

variable {d : Disk} {root base p : Path} {globs ignored : List Text} {found : List Path}

theorem eq_of_stepOf_eq_name {name n : Text} (step : stepOf name = .ok (.name n)) : n = name := by
  unfold stepOf at step
  split at step
  · cases step
  · split at step
    · cases step
    · split at step
      · cases step
      · cases step
        rfl

theorem stepsOf_eq_ok {glob : Text} {steps : List GlobStep} (spelled : stepsOf glob = .ok steps) :
    steps ≠ [] ∧ ∀ n, GlobStep.name n ∈ steps → n ∈ (Path.ofText glob).parts := by
  unfold stepsOf at spelled
  dsimp only at spelled
  split at spelled
  · cases spelled
  · split at spelled
    · cases spelled
    · next filled =>
      obtain ⟨l, read, spelled⟩ := bind_eq_ok_iff.mp spelled
      have among : ∀ n, GlobStep.name n ∈ l → n ∈ (Path.ofText glob).parts := by
        intro n member
        obtain ⟨name, part, step⟩ := (mem_of_mapM read).mp member
        rwa [eq_of_stepOf_eq_name step]
      have more : l ≠ [] := by
        intro none
        have all := mapM_eq_ok_iff.mp read
        rw [none, List.forall₂_nil_right_iff] at all
        exact filled all
      cases spelled
      split
      · refine ⟨by simp [more], fun n member => among n ?_⟩
        simpa using member
      · exact ⟨more, among⟩

/-! ## Single globs -/

theorem paths_isOk_iff {glob : Text} :
    (∃ found, paths d root glob = .ok found) ↔ ∃ steps, stepsOf glob = .ok steps := by
  unfold paths
  simp only [bind_eq_ok_iff]
  constructor
  · intro done
    obtain ⟨found, steps, spelled, _⟩ := done
    exact ⟨steps, spelled⟩
  · intro read
    obtain ⟨steps, spelled⟩ := read
    exact ⟨_, steps, spelled, rfl⟩

theorem mem_paths {glob : Text} (done : paths d root glob = .ok found) :
    p ∈ found ↔ ∃ steps, stepsOf glob = .ok steps ∧ d.isDirectory (start root glob) = true ∧
      p ∈ select d steps (start root glob) := by
  obtain ⟨steps, spelled, done⟩ := bind_eq_ok_iff.mp done
  cases done
  by_cases directory : d.isDirectory (start root glob) = true
  · unfold start at directory ⊢
    simp [spelled, directory]
  · unfold start at directory ⊢
    simp [directory]

/-! ## Several globs -/

theorem collect_eq_ok (done : collect d root globs ignored = .ok found) :
    ∃ led, (globs.flatMap expand).mapM (paths d root) = .ok led ∧
      found = sortBy (fun p q => Text.le p.toText q.toText)
        (distinct (led.flatten.filter fun p => d.isFile p && !ignores ignored root p)) := by
  obtain ⟨led, used, done⟩ := bind_eq_ok_iff.mp done
  cases done
  exact ⟨led, used, rfl⟩

/-- Globs fail for what they spell, whatever is on the disk. -/
theorem collect_isOk_iff :
    (∃ found, collect d root globs ignored = .ok found) ↔
      ∀ glob ∈ globs.flatMap expand, ∃ steps, stepsOf glob = .ok steps := by
  have each : (∃ led, (globs.flatMap expand).mapM (paths d root) = .ok led) ↔
      ∀ glob ∈ globs.flatMap expand, ∃ steps, stepsOf glob = .ok steps :=
    mapM_isOk_iff.trans (forall₂_congr fun _ _ => paths_isOk_iff)
  rw [← each]
  constructor
  · intro done
    obtain ⟨found, done⟩ := done
    obtain ⟨led, used, _⟩ := collect_eq_ok done
    exact ⟨led, used⟩
  · intro done
    obtain ⟨led, used⟩ := done
    exact ⟨_, bind_eq_ok_iff.mpr ⟨led, used, rfl⟩⟩

theorem mem_distinct {l : List Path} : p ∈ distinct l ↔ p ∈ l := by
  rw [distinct, OrderedMap.mem_keys_ofList]
  simp

/-- No file is collected twice. -/
theorem nodup_collect (done : collect d root globs ignored = .ok found) : found.Nodup := by
  obtain ⟨led, _, rfl⟩ := collect_eq_ok done
  rw [(sortBy_perm _ _).nodup_iff]
  exact OrderedMap.nodup_keys_ofList _

/-- What is collected are the files that single globs lead to, less the ignored ones. -/
theorem mem_collect_iff_paths (done : collect d root globs ignored = .ok found) :
    p ∈ found ↔ d.isFile p = true ∧ ignores ignored root p = false ∧
      ∃ glob ∈ globs.flatMap expand, ∃ led, paths d root glob = .ok led ∧ p ∈ led := by
  obtain ⟨all, used, rfl⟩ := collect_eq_ok done
  have among : p ∈ all.flatten ↔
      ∃ glob ∈ globs.flatMap expand, ∃ led, paths d root glob = .ok led ∧ p ∈ led := by
    rw [List.mem_flatten]
    constructor
    · rintro ⟨led, member, inside⟩
      obtain ⟨glob, given, path⟩ := (mem_of_mapM used).mp member
      exact ⟨glob, given, led, path, inside⟩
    · rintro ⟨glob, given, led, path, inside⟩
      exact ⟨led, (mem_of_mapM used).mpr ⟨glob, given, path⟩, inside⟩
  rw [mem_sortBy, mem_distinct, List.mem_filter, among]
  simp only [Bool.and_eq_true, Bool.not_eq_true']
  tauto

theorem mem_collect (done : collect d root globs ignored = .ok found) :
    p ∈ found ↔ d.isFile p = true ∧ ignores ignored root p = false ∧
      ∃ glob ∈ globs.flatMap expand, ∃ steps, stepsOf glob = .ok steps ∧
        d.isDirectory (start root glob) = true ∧ p ∈ select d steps (start root glob) := by
  rw [mem_collect_iff_paths done]
  refine and_congr_right fun _ => and_congr_right fun _ => exists_congr fun glob =>
    and_congr_right fun _ => ⟨?_, ?_⟩
  · rintro ⟨led, path, inside⟩
    exact (mem_paths path).mp inside
  · rintro ⟨steps, spelled, reached⟩
    obtain ⟨led, path⟩ := paths_isOk_iff.mpr ⟨steps, spelled⟩
    exact ⟨led, path, (mem_paths path).mpr ⟨steps, spelled, reached⟩⟩

theorem direct_start (direct : root.Direct) (glob : Text) : (start root glob).Direct := by
  unfold start
  split
  · next absolute => exact ⟨absolute, by simp⟩
  · exact direct

theorem proper_start (proper : root.Proper) (glob : Text) : (start root glob).Proper := by
  unfold start
  split
  · exact List.forall_mem_nil _
  · exact proper

/-- The names below the start of a glob are names of entries or come from the glob. -/
theorem proper_of_mem_select (sound : d.Sound) {glob : Text} {steps : List GlobStep}
    (spelled : stepsOf glob = .ok steps) (proper : base.Proper) (member : p ∈ select d steps base) :
    p.Proper := by
  obtain ⟨names, rfl, named⟩ := descendant_of_mem_select sound member
  intro n part
  rcases List.mem_append.mp part with above | below
  · exact proper n above
  · rcases named n below with entry | step
    · exact entry.1
    · exact Path.proper_ofText glob n ((stepsOf_eq_ok spelled).2 n step)

theorem proper_of_mem_collect (sound : d.Sound) (direct : root.Direct)
    (done : collect d root globs ignored = .ok found) (member : p ∈ found) : p.Proper := by
  obtain ⟨_, _, glob, _, steps, spelled, directory, inside⟩ := (mem_collect done).mp member
  rw [Disk.isDirectory_iff sound (direct_start direct glob)] at directory
  have proper : (start root glob).Proper := fun n part =>
    (sound.named _ (OrderedMap.mem_keys_iff.mpr ⟨_, directory⟩) n part).1
  exact proper_of_mem_select sound spelled proper inside

/-- Where globs are plain, a file is collected for its path alone. -/
theorem mem_collect_iff (sound : d.Sound) (direct : root.Direct) (plain : Plain root globs)
    (done : collect d root globs ignored = .ok found) :
    p ∈ found ↔ d.isFile p = true ∧ Selects root globs ignored p := by
  have down : ∀ glob ∈ globs.flatMap expand, ∀ steps, stepsOf glob = .ok steps →
      GlobStep.name ['.', '.'] ∉ steps := fun glob given steps spelled member =>
    (plain glob given).1 ((stepsOf_eq_ok spelled).2 _ member)
  rw [mem_collect done]
  constructor
  · intro collected
    obtain ⟨file, kept, glob, given, steps, spelled, directory, inside⟩ := collected
    have direct' : p.Direct := by
      obtain ⟨names, rfl, named⟩ := descendant_of_mem_select sound inside
      apply direct_descendant (direct_start direct glob)
      intro n below up
      subst up
      rcases named _ below with entry | step
      · exact entry.2 rfl
      · exact down glob given steps spelled step
    exact ⟨file, direct', kept, glob, given, steps, spelled,
      leads_of_mem_select sound file (fun _ => directory) inside⟩
  · intro collected
    obtain ⟨file, direct', kept, glob, given, steps, spelled, names, split, taken⟩ := collected
    have directory : d.isDirectory (start root glob) = true :=
      isDirectory_of_isFile sound direct' file split
        (ne_nil_of_leads (stepsOf_eq_ok spelled).1 taken)
    exact ⟨file, kept, glob, given, steps, spelled, directory,
      mem_select_of_leads sound direct' file split taken⟩

theorem anchor_of_selects (plain : Plain root globs) (selected : Selects root globs ignored p) :
    p.anchor = root.anchor := by
  obtain ⟨_, _, glob, given, _, _, names, rfl, _⟩ := selected
  change (start root glob).anchor = root.anchor
  unfold start
  split
  · next absolute => exact (plain glob given).2 absolute
  · rfl

end Traceability.Glob
