import Traceability.Command.Readers
import Traceability.Rule.File
import Traceability.Proofs.Glob.Collect
import Traceability.Proofs.Glob.Name
import Traceability.Proofs.Rule.Fault

/-!
# Directories of rule files

The rule files of a directory are its entries with the suffix of rule files, each listed once, in
order. Either each of them gives its rules, or the first one that gives none ends the reading. As long
as texts that are no rule files are malformed, and nothing else, the failure names that file, except for
two ways to be unusable: bytes that are no text, and a pattern that asks for what cannot be had.
-/
namespace Traceability

namespace Glob

open NamePattern

variable {d : Disk} {base p : Path} {n t w : Text}

/-! ## Entries of a directory -/

theorem exists_child_iff (notUp : n ≠ ['.', '.']) : d.exists? (child base n) = true ↔
    ∃ here, d.locate? base = some here ∧ d.entries.get? here = some .directory ∧
      here ++ [n] ∈ d.entries.keys := by
  have located : d.locate? (child base n) = (d.locate? base).bind fun here => d.step? here n := by
    rw [Disk.locate?, child, List.foldlM_append, Path.isAbsolute]
    simp [Disk.locate?, Path.isAbsolute]
  rw [Disk.exists?, Disk.entry?, located, Option.isSome_iff_exists]
  cases d.locate? base with
  | none => simp
  | some here =>
    simp only [Option.bind_some, Disk.step?_eq d here notUp, Option.some.injEq, exists_eq_left']
    split
    · next entered => simpa [entered] using OrderedMap.mem_keys_iff.mp entered.2
    · next outside => simpa using outside

theorem mem_entriesBelow_one (distinct : d.entries.keys.Nodup) :
    (∃ entry, ([n], entry) ∈ entriesBelow d base) ↔
      ∃ here, d.locate? base = some here ∧ here ++ [n] ∈ d.entries.keys := by
  rw [entriesBelow]
  cases d.locate? base with
  | none => simp
  | some here => simp [mem_below distinct, OrderedMap.mem_keys_iff]

theorem mem_select_last {q : NamePattern} : p ∈ select d [.pattern q] base ↔
    ∃ n, q.fits n = true ∧ (∃ entry, ([n], entry) ∈ entriesBelow d base) ∧ p = child base n := by
  rw [mem_select_pattern]
  refine exists_congr fun n => ?_
  rw [select, List.mem_singleton]
  simp only [true_or, true_and]
  tauto

/-- The entries of a directory with a suffix are what a star and the suffix lead to. -/
theorem mem_select_suffix (distinct : d.entries.keys.Nodup) (notUp : ¬ w <:+ ['.', '.']) :
    d.isDirectory base = true ∧ p ∈ select d [.pattern (.star :: w.map .exactly)] base ↔
      ∃ n, w <:+ n ∧ p = child base n ∧ d.exists? p = true := by
  have directory : d.isDirectory base = true ↔
      ∃ here, d.locate? base = some here ∧ d.entries.get? here = some .directory := by
    simp [Disk.isDirectory, Disk.entry?, Option.bind_eq_some_iff]
  rw [mem_select_last]
  simp only [fits_star_iff, mem_entriesBelow_one distinct]
  constructor
  · rintro ⟨entered, n, suffix, ⟨here, located, inside⟩, rfl⟩
    obtain ⟨_, located', there⟩ := directory.mp entered
    cases located.symm.trans located'
    have other : n ≠ ['.', '.'] := by
      rintro rfl
      exact notUp suffix
    exact ⟨n, suffix, rfl, (exists_child_iff other).mpr ⟨here, located, there, inside⟩⟩
  · rintro ⟨n, suffix, rfl, present⟩
    have other : n ≠ ['.', '.'] := by
      rintro rfl
      exact notUp suffix
    obtain ⟨here, located, there, inside⟩ := (exists_child_iff other).mp present
    exact ⟨directory.mpr ⟨here, located, there⟩, n, suffix, ⟨here, located, inside⟩, rfl⟩

theorem sublist_below (d : Disk) (here : List Text) :
    ((d.below here).map fun e => here ++ e.1).Sublist d.entries.keys := by
  rw [Disk.below, OrderedMap.keys]
  induction d.entries.entries with
  | nil => exact .slnil
  | cons e rest ih =>
    obtain ⟨names, entry⟩ := e
    rw [List.filterMap_cons]
    split
    · exact ih.cons _
    · next x found =>
      have behind : names = here ++ x.1 := by
        dsimp only at found
        split at found
        · cases found
        · cases found
        · next rest _ cut =>
          cases found
          exact Path.dropLeading?_eq_some_iff.mp cut
      rw [List.map_cons, List.map_cons, behind]
      exact ih.cons_cons _

theorem pairwise_entriesBelow (distinct : d.entries.keys.Nodup) (base : Path) :
    (entriesBelow d base).Pairwise fun e e' => e.1 ≠ e'.1 := by
  rw [entriesBelow]
  split
  · next here _ =>
    refine (List.pairwise_map.mp (distinct.sublist (sublist_below d here))).imp ?_
    exact fun apart same => apart (congrArg _ same)
  · exact .nil

theorem sublist_select_pattern (d : Disk) (q : NamePattern) (base : Path) :
    (select d [.pattern q] base).Sublist
      ((entriesBelow d base).map fun e => descendant base e.1) := by
  rw [select]
  induction entriesBelow d base with
  | nil => exact .slnil
  | cons e rest ih =>
    obtain ⟨names, entry⟩ := e
    rw [List.flatMap_cons, List.map_cons]
    dsimp only
    split
    · split
      · exact ih.cons_cons _
      · exact ih.cons _
    · exact ih.cons _

theorem nodup_select_pattern (distinct : d.entries.keys.Nodup) (q : NamePattern) (base : Path) :
    (select d [.pattern q] base).Nodup := by
  refine List.Nodup.sublist (sublist_select_pattern d q base) (List.pairwise_map.mpr ?_)
  refine (pairwise_entriesBelow distinct base).imp fun apart same => apart ?_
  exact List.append_cancel_left (congrArg Path.parts same)

end Glob

/-- Whether a text from which no value can be read is taken for malformed, always. -/
def RuleNotation.Strict [RuleNotation] : Prop :=
  ∀ t fault, RuleNotation.read t = .error fault → fault = .malformed

namespace RuleFile

variable {d : Disk} {directory p : Path} {r : RuleFile} {failure : Failure}

/-! ## The files of a directory -/

def suffix : Text := ".schema.yaml"

theorem stepsOf_fileGlob :
    Glob.stepsOf fileGlob = .ok [.pattern (.star :: suffix.map .exactly)] := by
  decide +kernel

theorem filesIn_eq (d : Disk) (directory : Path) :
    filesIn d directory = sortBy (fun p q => Text.le p.toText q.toText)
      (if d.isDirectory directory
        then Glob.select d [.pattern (.star :: suffix.map .exactly)] directory else []) := by
  have glob : (Path.ofText fileGlob).isAbsolute = false := by decide +kernel
  have paths : Glob.paths d directory fileGlob = .ok (if d.isDirectory directory
      then Glob.select d [.pattern (.star :: suffix.map .exactly)] directory else []) := by
    simp [Glob.paths, stepsOf_fileGlob, glob, bind, Except.bind, pure, Except.pure]
  rw [filesIn, paths]

/-- The rule files of a directory are its entries with the suffix of rule files. -/
theorem mem_filesIn_iff (distinct : d.entries.keys.Nodup) : p ∈ filesIn d directory ↔
    ∃ n, suffix <:+ n ∧ p = Glob.child directory n ∧ d.exists? p = true := by
  have notUp : ¬ suffix <:+ ['.', '.'] := by decide
  rw [filesIn_eq, mem_sortBy, ← Glob.mem_select_suffix distinct notUp]
  split
  · next entered => exact (and_iff_right entered).symm
  · next outside => exact iff_of_false List.not_mem_nil fun inside => outside inside.1

/-- They are listed in order, each of them once. -/
theorem pairwise_filesIn (distinct : d.entries.keys.Nodup) (directory : Path) :
    (filesIn d directory).Pairwise fun p q => Text.le p.toText q.toText = true ∧ p ≠ q := by
  rw [filesIn_eq, List.pairwise_and_iff]
  constructor
  · exact pairwise_sortBy (fun p q : Path => Text.le_total p.toText q.toText)
      (fun _ _ _ => Text.le_trans) _
  · refine (sortBy_perm _ _).nodup_iff.mpr ?_
    split
    · exact Glob.nodup_select_pattern distinct _ directory
    · exact List.nodup_nil

/-! ## What a file gives -/

section Loading

variable [CharacterNames]

theorem source_of_ofValue {v : Value} (done : RuleFile.ofValue p v = .ok r) :
    r.source = p.toText := by
  obtain ⟨_, _, done⟩ := bind_eq_ok_iff.mp done
  obtain ⟨_, _, done⟩ := bind_eq_ok_iff.mp done
  obtain ⟨_, _, done⟩ := bind_eq_ok_iff.mp done
  obtain ⟨_, _, done⟩ := bind_eq_ok_iff.mp done
  obtain ⟨_, _, done⟩ := bind_eq_ok_iff.mp done
  obtain ⟨_, _, done⟩ := bind_eq_ok_iff.mp done
  obtain ⟨_, _, done⟩ := bind_eq_ok_iff.mp done
  cases done
  rfl

variable [RuleNotation]

/-- Whether a file holds rules: a text that spells a value from which they are read. -/
def Holds (d : Disk) (p : Path) (r : RuleFile) : Prop :=
  ∃ t v, d.read p = .ok t ∧ RuleNotation.read t = .ok v ∧ RuleFile.ofValue p v = .ok r

/-- A failure to get rules from a file that does not name the file. -/
inductive Nameless (d : Disk) (p : Path) : Failure → Prop
  | encoding {e : Text.Utf8Error} (undecoded : d.read p = .error (.encoding e)) :
    Nameless d p (.encoding e)
  | pattern {t u : Text} {v : Value} {e : PatternError} (read : d.read p = .ok t)
    (valued : RuleNotation.read t = .ok v) (failed : RuleFile.ofValue p v = .error (.pattern u e))
    (unread : PatternNode.ofText u = .error e) (beyond : e.isNotation = false) :
    Nameless d p (.pattern ⟨u, e⟩)

theorem load_eq_ok_iff : load d p = .ok r ↔ Holds d p r := by
  constructor
  · intro done
    unfold load at done
    split at done
    · cases done
    · cases done
    · cases done
    · next t read =>
      split at done
      · cases done
      · cases done
      · next v valued =>
        refine ⟨t, v, read, valued, ?_⟩
        cases held : RuleFile.ofValue p v with
        | ok r' =>
          rw [held] at done
          cases done
          rfl
        | error fault =>
          rw [held] at done
          cases done
  · rintro ⟨t, v, read, valued, held⟩
    simp only [load, read, valued, held]
    rfl

theorem named_or_nameless (strict : RuleNotation.Strict) (failed : load d p = .error failure) :
    (∃ problem, failure = .rules p problem) ∨ Nameless d p failure := by
  unfold load at failed
  split at failed
  · cases failed
    exact .inl ⟨_, rfl⟩
  · cases failed
    exact .inl ⟨_, rfl⟩
  · next e undecoded =>
    cases failed
    exact .inr (.encoding undecoded)
  · next t read =>
    split at failed
    · cases failed
      exact .inl ⟨_, rfl⟩
    · next message other =>
      cases strict t _ other
    · next v valued =>
      cases refused : RuleFile.ofValue p v with
      | ok r =>
        rw [refused] at failed
        cases failed
      | error fault =>
        rw [refused] at failed
        cases fault with
        | flaw place what =>
          cases failed
          exact .inl ⟨_, rfl⟩
        | pattern u e =>
          cases failed
          obtain ⟨unread, beyond⟩ := RuleReading.fair_ofValue p v u e refused
          exact .inr (.pattern read valued refused unread beyond)

/-- A nameless failure is what the file gives, so no failure that names it can take its place. -/
theorem load_of_nameless (nameless : Nameless d p failure) : load d p = .error failure := by
  cases nameless with
  | encoding undecoded => simp only [load, undecoded]
  | pattern read valued failed =>
    simp only [load, read, valued, failed]
    rfl

end Loading

/-- The reader of the commands, but for that it takes any text that it cannot read for malformed. -/
@[reducible]
def strictNotation : RuleNotation :=
  ⟨fun t => (Command.ruleNotation.read t).mapError fun _ => .malformed⟩

theorem strict_strictNotation : @RuleNotation.Strict strictNotation := by
  intro t fault failed
  change (Command.ruleNotation.read t).mapError _ = _ at failed
  cases read : Command.ruleNotation.read t with
  | ok v =>
    rw [read] at failed
    cases failed
  | error other =>
    rw [read] at failed
    cases failed
    rfl

/-- A directory of one rule file, whose bytes are no text. -/
def undecodable : Disk := (Disk.blank ["p"]).write ["p", "s", "c.schema.yaml"] [0xFF]

/-- The same with two files in front: one that gives rules, and one that is malformed. -/
def interrupted : Disk :=
  let file (name t : Text) (d : Disk) : Disk := d.write ["p", "s", name] (Text.Utf8.encode t)
  file "a.schema.yaml" "target-files: '*.md'\n" (file "b.schema.yaml" "a: [" undecodable)

end RuleFile

end Traceability
