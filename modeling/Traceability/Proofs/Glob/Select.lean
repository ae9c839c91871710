import Traceability.Glob.Select
import Traceability.Proofs.Disk
import Traceability.Proofs.Results

/-!
# What globs lead to

The steps of a glob lead from a directory to a file just when the names of the file below the
directory can be cut into what each step takes. Other files neither add it nor take it away.
-/
namespace Traceability.Glob

/-- Whether steps take names from the first to the last, so that a file may stand there. -/
def leads : List GlobStep → List Text → Prop
  | [], names => names = []
  | .stop :: _, _ => False
  | .directories :: rest, names =>
    ∃ before after, names = before ++ after ∧ after ≠ [] ∧ leads rest after
  | .name n :: rest, names => ∃ after, names = n :: after ∧ leads rest after
  | .pattern q :: rest, names => ∃ n after, names = n :: after ∧ q.fits n = true ∧ leads rest after

variable {d : Disk} {base p : Path}

@[simp] theorem descendant_nil (base : Path) : descendant base [] = base := by
  simp [descendant]

theorem descendant_append (base : Path) (before after : List Text) :
    descendant base (before ++ after) = descendant (descendant base before) after := by
  simp [descendant]

theorem descendant_cons (base : Path) (n : Text) (after : List Text) :
    descendant base (n :: after) = descendant (child base n) after := by
  simp [descendant, child]

theorem ne_nil_of_leads {steps : List GlobStep} {names : List Text} (more : steps ≠ [])
    (taken : leads steps names) : names ≠ [] := by
  cases steps with
  | nil => exact absurd rfl more
  | cons step rest =>
    cases step with
    | stop => exact taken.elim
    | directories =>
      obtain ⟨before, after, rfl, filled, _⟩ := taken
      simp [filled]
    | name n =>
      obtain ⟨after, rfl, _⟩ := taken
      simp
    | pattern q =>
      obtain ⟨n, after, rfl, _⟩ := taken
      simp

/-! ## Entries below a directory -/

theorem mem_below (distinct : d.entries.keys.Nodup) {here names : List Text} {e : DiskEntry} :
    (names, e) ∈ d.below here ↔ names ≠ [] ∧ d.entries.get? (here ++ names) = some e := by
  simp only [Disk.below, List.mem_filterMap, Prod.exists]
  constructor
  · intro reached
    obtain ⟨whole, e', member, found⟩ := reached
    split at found
    · cases found
    · cases found
    · next rest filled cut =>
      cases found
      rw [Path.dropLeading?_eq_some_iff] at cut
      rw [← cut]
      exact ⟨filled, (OrderedMap.mem_entries_iff distinct).mp member⟩
  · intro reached
    obtain ⟨filled, found⟩ := reached
    refine ⟨here ++ names, e, OrderedMap.mem_entries_of_get? found, ?_⟩
    have cut : Path.dropLeading? here (here ++ names) = some names :=
      Path.dropLeading?_eq_some_iff.mpr rfl
    rw [cut]
    split
    · next none => cases none
    · next nil => exact absurd (Option.some.inj nil) filled
    · next rest _ same => rw [Option.some.inj same]

theorem fileName_of_mem_entriesBelow (sound : d.Sound) {names : List Text} {e : DiskEntry}
    (member : (names, e) ∈ entriesBelow d base) : ∀ n ∈ names, Path.FileName n := by
  unfold entriesBelow at member
  split at member
  · next here _ =>
    obtain ⟨_, found⟩ := (mem_below sound.distinct).mp member
    intro n inside
    exact sound.named _ (OrderedMap.mem_keys_iff.mpr ⟨e, found⟩) n (List.mem_append_right _ inside)
  · cases member

theorem mem_entriesBelow (sound : d.Sound) (direct : base.Direct) {names : List Text}
    {e : DiskEntry} :
    (names, e) ∈ entriesBelow d base ↔
      names ≠ [] ∧ d.entries.get? (base.parts ++ names) = some e := by
  rw [entriesBelow, Disk.locate?_direct sound direct]
  split
  · next here located =>
    split at located
    · rw [← Option.some.inj located]
      exact mem_below sound.distinct
    · cases located
  · next nowhere =>
    have absent : base.parts ∉ d.entries.keys := by
      intro present
      rw [if_pos (Or.inr present)] at nowhere
      cases nowhere
    constructor
    · intro member
      cases member
    · intro reached
      obtain ⟨filled, found⟩ := reached
      have directory := sound.tree _ _ filled (OrderedMap.mem_keys_iff.mpr ⟨e, found⟩)
      exact absurd (OrderedMap.mem_keys_iff.mpr ⟨_, directory⟩) absent

theorem mem_directoriesFrom {q : Path} :
    q ∈ directoriesFrom d base ↔
      q = base ∨ ∃ names, (names, .directory) ∈ entriesBelow d base ∧ q = descendant base names := by
  simp only [directoriesFrom, List.mem_cons, List.mem_map, List.mem_filter, Prod.exists,
    decide_eq_true_eq]
  constructor
  · intro reached
    rcases reached with here | ⟨names, e, ⟨member, rfl⟩, rfl⟩
    · exact Or.inl here
    · exact Or.inr ⟨names, member, rfl⟩
  · intro reached
    rcases reached with here | ⟨names, member, rfl⟩
    · exact Or.inl here
    · exact Or.inr ⟨names, _, ⟨member, rfl⟩, rfl⟩

theorem direct_descendant (direct : base.Direct) {names : List Text}
    (down : ∀ n ∈ names, n ≠ ['.', '.']) : (descendant base names).Direct := by
  refine ⟨direct.1, fun n member => ?_⟩
  rcases List.mem_append.mp member with above | below
  · exact direct.2 n above
  · exact down n below

/-! ## Where steps lead -/

theorem mem_select_directories {rest : List GlobStep} :
    p ∈ select d (.directories :: rest) base ↔ ∃ q ∈ directoriesFrom d base, p ∈ select d rest q :=
  List.mem_flatMap

theorem mem_select_name {n : Text} {rest : List GlobStep} :
    p ∈ select d (.name n :: rest) base ↔
      (if rest = [] then d.exists? (child base n) else d.isDirectory (child base n)) = true ∧
        p ∈ select d rest (child base n) := by
  rw [select]
  by_cases reached : (if rest = [] then d.exists? (child base n)
    else d.isDirectory (child base n)) = true
  · simp [reached]
  · simp [reached]

theorem mem_select_pattern {q : NamePattern} {rest : List GlobStep} :
    p ∈ select d (.pattern q :: rest) base ↔ ∃ n entry, ([n], entry) ∈ entriesBelow d base ∧
      q.fits n = true ∧ (rest = [] ∨ entry = .directory) ∧ p ∈ select d rest (child base n) := by
  rw [select, List.mem_flatMap]
  constructor
  · intro reached
    obtain ⟨⟨names, entry⟩, below, inside⟩ := reached
    dsimp only at inside
    split at inside
    · next n =>
      split at inside
      · next taken =>
        obtain ⟨fits, reached⟩ := Bool.and_eq_true_iff.mp taken
        exact ⟨n, entry, below, fits, by simpa using reached, inside⟩
      · cases inside
    · cases inside
  · intro reached
    obtain ⟨n, entry, below, fits, reached, inside⟩ := reached
    refine ⟨([n], entry), below, ?_⟩
    dsimp only
    rw [if_pos (by simpa [fits] using reached)]
    exact inside

/-- Whatever steps lead to lies below the directory, under names of entries or of the steps. -/
theorem descendant_of_mem_select (sound : d.Sound) {steps : List GlobStep}
    (member : p ∈ select d steps base) :
    ∃ names, p = descendant base names ∧
      ∀ n ∈ names, Path.FileName n ∨ GlobStep.name n ∈ steps := by
  induction steps generalizing base with
  | nil => exact ⟨[], by simpa [select] using member, by simp⟩
  | cons step rest ih =>
    have later : ∀ {q : Path} {before : List Text}, q = descendant base before →
        (∀ n ∈ before, Path.FileName n ∨ GlobStep.name n ∈ step :: rest) → p ∈ select d rest q →
        ∃ names, p = descendant base names ∧
          ∀ n ∈ names, Path.FileName n ∨ GlobStep.name n ∈ step :: rest := by
      intro q before here named inside
      subst here
      obtain ⟨after, rfl, named'⟩ := ih inside
      refine ⟨before ++ after, (descendant_append base before after).symm, fun n among => ?_⟩
      rcases List.mem_append.mp among with first | second
      · exact named n first
      · exact (named' n second).imp_right (List.mem_cons_of_mem _)
    cases step with
    | stop => exact ⟨[], by simpa [select] using member, by simp⟩
    | directories =>
      obtain ⟨q, among, inside⟩ := mem_select_directories.mp member
      rcases mem_directoriesFrom.mp among with rfl | ⟨before, below, rfl⟩
      · exact later (descendant_nil q).symm (by simp) inside
      · exact later rfl (fun n named => Or.inl (fileName_of_mem_entriesBelow sound below n named))
          inside
    | name n =>
      have one : child base n = descendant base [n] := rfl
      exact later one (by simp) (mem_select_name.mp member).2
    | pattern q =>
      obtain ⟨n, entry, below, _, _, inside⟩ := mem_select_pattern.mp member
      have one : child base n = descendant base [n] := rfl
      exact later one
        (fun m named => Or.inl (fileName_of_mem_entriesBelow sound below m named)) inside

/-! ## Which files steps lead to -/

theorem direct_of_descendant {names : List Text} (direct : (descendant base names).Direct) :
    base.Direct :=
  ⟨direct.1, fun n member => direct.2 n (List.mem_append_left _ member)⟩

theorem descendant_injective {names names' : List Text}
    (same : descendant base names = descendant base names') : names = names' :=
  List.append_cancel_left (congrArg Path.parts same)

theorem not_isFile_of_isDirectory (directory : d.isDirectory p = true) : ¬ d.isFile p = true := by
  rw [Disk.isDirectory, decide_eq_true_eq] at directory
  simp [Disk.isFile, directory]

theorem isDirectory_of_mem_entriesBelow (sound : d.Sound) {names : List Text}
    (below : (names, .directory) ∈ entriesBelow d base) :
    d.isDirectory (descendant base names) = true := by
  have named := fileName_of_mem_entriesBelow sound below
  unfold entriesBelow at below
  split at below
  · next here located =>
    obtain ⟨_, found⟩ := (mem_below sound.distinct).mp below
    have present : here ++ names ∈ d.entries.keys := OrderedMap.mem_keys_iff.mpr ⟨_, found⟩
    have reached : d.locate? (descendant base names) = some (here ++ names) := by
      rw [Disk.locate?] at located ⊢
      rw [descendant, List.foldlM_append]
      refine Option.bind_eq_some_iff.mpr ⟨here, located, ?_⟩
      rw [Disk.foldlM_step? sound (fun n member => (named n member).2), if_pos (Or.inr present)]
    simp [Disk.isDirectory, Disk.entry?, reached, found]
  · cases below

theorem isDirectory_of_mem_directoriesFrom (sound : d.Sound) (entered : d.isDirectory base = true)
    {q : Path} (member : q ∈ directoriesFrom d base) : d.isDirectory q = true := by
  rcases mem_directoriesFrom.mp member with rfl | ⟨names, below, rfl⟩
  · exact entered
  · exact isDirectory_of_mem_entriesBelow sound below

/-- Steps that lead to a file take its names; as long as a step is left they start at a directory. -/
theorem leads_of_mem_select (sound : d.Sound) (file : d.isFile p = true) {steps : List GlobStep}
    (entered : steps ≠ [] → d.isDirectory base = true) (member : p ∈ select d steps base) :
    ∃ names, p = descendant base names ∧ leads steps names := by
  induction steps generalizing base with
  | nil => exact ⟨[], by simpa [select] using member, rfl⟩
  | cons step rest ih =>
    have inDirectory : d.isDirectory base = true := entered (by simp)
    cases step with
    | stop =>
      have here : p = base := by simpa [select] using member
      exact absurd file (not_isFile_of_isDirectory (here ▸ inDirectory))
    | directories =>
      obtain ⟨q, among, inside⟩ := mem_select_directories.mp member
      have directory := isDirectory_of_mem_directoriesFrom sound inDirectory among
      obtain ⟨before, rfl⟩ : ∃ before, q = descendant base before := by
        rcases mem_directoriesFrom.mp among with rfl | ⟨before, _, rfl⟩
        · exact ⟨[], (descendant_nil q).symm⟩
        · exact ⟨before, rfl⟩
      obtain ⟨after, split, taken⟩ := ih (fun _ => directory) inside
      refine ⟨before ++ after, by rw [split, descendant_append], before, after, rfl, ?_, taken⟩
      -- with nothing behind them the directories would be the file
      rintro rfl
      rw [split, descendant_nil] at file
      exact not_isFile_of_isDirectory directory file
    | name n =>
      obtain ⟨reached, inside⟩ := mem_select_name.mp member
      have directory : rest ≠ [] → d.isDirectory (child base n) = true := by
        intro more
        rwa [if_neg more] at reached
      obtain ⟨after, split, taken⟩ := ih directory inside
      exact ⟨n :: after, by rw [split, descendant_cons], after, rfl, taken⟩
    | pattern q =>
      obtain ⟨n, entry, below, fits, reached, inside⟩ := mem_select_pattern.mp member
      have directory : rest ≠ [] → d.isDirectory (child base n) = true := by
        intro more
        rw [reached.resolve_left more] at below
        exact isDirectory_of_mem_entriesBelow sound below
      obtain ⟨after, split, taken⟩ := ih directory inside
      exact ⟨n :: after, by rw [split, descendant_cons], n, after, rfl, fits, taken⟩

/-- What is on the way to a file is a directory. -/
theorem isDirectory_of_isFile (sound : d.Sound) (direct : p.Direct) (file : d.isFile p = true)
    {names : List Text} (split : p = descendant base names) (filled : names ≠ []) :
    d.isDirectory base = true := by
  subst split
  obtain ⟨bytes, found⟩ := (Disk.isFile_iff sound direct).mp file
  rw [Disk.isDirectory_iff sound (direct_of_descendant direct)]
  exact sound.tree _ _ filled (OrderedMap.mem_keys_iff.mpr ⟨_, found⟩)

/-- Steps that take the names of a file lead to it. -/
theorem mem_select_of_leads (sound : d.Sound) (direct : p.Direct) (file : d.isFile p = true)
    {steps : List GlobStep} {names : List Text} (split : p = descendant base names)
    (taken : leads steps names) : p ∈ select d steps base := by
  obtain ⟨bytes, found⟩ := (Disk.isFile_iff sound direct).mp file
  induction steps generalizing base names with
  | nil =>
    rw [show names = [] from taken, descendant_nil] at split
    simp [select, split]
  | cons step rest ih =>
    have above : base.Direct := direct_of_descendant (split ▸ direct)
    cases step with
    | stop => exact taken.elim
    | directories =>
      obtain ⟨before, after, rfl, filled, taken⟩ := taken
      rw [descendant_append] at split
      have above' : (descendant base before).Direct := direct_of_descendant (split ▸ direct)
      have directory := isDirectory_of_isFile sound direct file split filled
      refine mem_select_directories.mpr ⟨descendant base before, mem_directoriesFrom.mpr ?_,
        ih split taken⟩
      by_cases first : before = []
      · exact Or.inl (by rw [first, descendant_nil])
      · refine Or.inr ⟨before, (mem_entriesBelow sound above).mpr ⟨first, ?_⟩, rfl⟩
        exact (Disk.isDirectory_iff sound above').mp directory
    | name n =>
      obtain ⟨after, rfl, taken⟩ := taken
      rw [descendant_cons] at split
      refine mem_select_name.mpr ⟨?_, ih split taken⟩
      split_ifs with last
      · subst last
        rw [show after = [] from taken, descendant_nil] at split
        rw [Disk.exists?, ← split, Disk.entry?_direct sound direct, found]
        rfl
      · exact isDirectory_of_isFile sound direct file split (ne_nil_of_leads last taken)
    | pattern q =>
      obtain ⟨n, after, rfl, fits, taken⟩ := taken
      rw [descendant_cons] at split
      have above' : (child base n).Direct := direct_of_descendant (split ▸ direct)
      have stands : ∃ entry, d.entries.get? (base.parts ++ [n]) = some entry ∧
          (rest = [] ∨ entry = .directory) := by
        by_cases last : rest = []
        · subst last
          rw [show after = [] from taken, descendant_nil] at split
          rw [split] at found
          exact ⟨_, found, Or.inl rfl⟩
        · have directory := isDirectory_of_isFile sound direct file split
            (ne_nil_of_leads last taken)
          exact ⟨_, (Disk.isDirectory_iff sound above').mp directory, Or.inr rfl⟩
      obtain ⟨entry, reached, kind⟩ := stands
      exact mem_select_pattern.mpr ⟨n, entry,
        (mem_entriesBelow sound above).mpr ⟨by simp, reached⟩, fits, kind, ih split taken⟩

end Traceability.Glob
