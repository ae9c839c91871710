import Traceability.Config.File
import Traceability.Proofs.Utf8

/-!
# Settings from a file

Whatever stands at the place of the configuration file, settings are found: those of its section, or
none where there is no file, no document or no section. Only bytes that are those of no text are a
failure.
-/
namespace Traceability.Config

open Text

variable {d : Disk} {place : Path} {entries : List (Text × Value)}

/-- The settings that a place supplies. -/
inductive Supplies (d : Disk) (place : Path) : List (Text × Value) → Prop
  | nothing (unread : ∀ bytes, d.entry? place ≠ some (.file bytes)) : Supplies d place []
  | malformed {t : Text} (written : d.entry? place = some (.file (Utf8.encode t)))
    (unread : Toml.read (unifyBreaks t) = none) : Supplies d place []
  | elsewhere {t : Text} {document : List (Text × Value)}
    (written : d.entry? place = some (.file (Utf8.encode t)))
    (read : Toml.read (unifyBreaks t) = some document)
    (absent : ∀ settings, Value.field? document sectionName ≠ some (.table settings)) :
    Supplies d place []
  | inSection {t : Text} {document settings : List (Text × Value)}
    (written : d.entry? place = some (.file (Utf8.encode t)))
    (read : Toml.read (unifyBreaks t) = some document)
    (given : Value.field? document sectionName = some (.table settings)) :
    Supplies d place settings

theorem read_of_encode {t : Text} (written : d.entry? place = some (.file (Utf8.encode t))) :
    d.read place = .ok (unifyBreaks t) := by
  rw [Disk.read, written]
  simp only [Utf8.decode_eq_ok_iff.mpr rfl]

theorem read_of_not_file (unread : ∀ bytes, d.entry? place ≠ some (.file bytes)) :
    d.read place = .error .missing ∨ d.read place = .error .isDirectory := by
  rw [Disk.read]
  cases here : d.entry? place with
  | none => exact .inl rfl
  | some entry =>
    cases entry with
    | file bytes => exact absurd here (unread bytes)
    | directory => exact .inr rfl

theorem entriesOf_sectionOf (supplied : Supplies d place entries) :
    ∃ v, sectionOf d place = .ok v ∧ entriesOf v = entries := by
  cases supplied with
  | nothing unread =>
    refine ⟨.null, ?_, rfl⟩
    rcases read_of_not_file unread with missing | directory
    · rw [sectionOf, missing]
    · rw [sectionOf, directory]
  | malformed written unread =>
    refine ⟨.null, ?_, rfl⟩
    rw [sectionOf, read_of_encode written]
    simp only [sectionIn, unread]
    rfl
  | @elsewhere t document written read absent =>
    refine ⟨Value.field document sectionName, ?_, ?_⟩
    · rw [sectionOf, read_of_encode written]
      simp only [sectionIn, read, Option.getD_some]
    · rw [Value.field]
      cases given : Value.field? document sectionName with
      | none => rfl
      | some v =>
        cases v with
        | table settings => exact absurd given (absent settings)
        | _ => rfl
  | inSection written read given =>
    refine ⟨.table entries, ?_, rfl⟩
    rw [sectionOf, read_of_encode written]
    simp only [sectionIn, read, Option.getD_some, Value.field, given]

theorem exists_supplies (written : ∀ bytes, d.entry? place = some (.file bytes) →
    ∃ t, bytes = Utf8.encode t) : ∃ entries, Supplies d place entries := by
  by_cases file : ∃ bytes, d.entry? place = some (.file bytes)
  · obtain ⟨bytes, here⟩ := file
    obtain ⟨t, rfl⟩ := written bytes here
    cases read : Toml.read (unifyBreaks t) with
    | none => exact ⟨[], .malformed here read⟩
    | some document =>
      by_cases given : ∃ settings, Value.field? document sectionName = some (.table settings)
      · obtain ⟨settings, given⟩ := given
        exact ⟨settings, .inSection here read given⟩
      · exact ⟨[], .elsewhere here read (not_exists.mp given)⟩
  · exact ⟨[], .nothing (not_exists.mp file)⟩

/-- The settings that a place supplies are taken without a failure. A place supplies none only if it
holds a file whose bytes are those of no text, and that is a failure. -/
theorem load_outcome (d : Disk) (root file : Option Path) (o : ConfigOverrides) :
    let place := fileOf d root file
    (∀ entries, Supplies d place entries →
      load d root file o = .ok (ofSection (.table entries) o)) ∧
    (∀ bytes, d.entry? place = some (.file bytes) → (∀ t, bytes ≠ Utf8.encode t) →
      ∃ e, Utf8.decode bytes = .error e ∧ load d root file o = .error (.encoding e)) ∧
    ((∃ entries, Supplies d place entries) ∨
      ∃ bytes, d.entry? place = some (.file bytes) ∧ ∀ t, bytes ≠ Utf8.encode t) := by
  intro place
  refine ⟨fun entries supplied => ?_, fun bytes here unwritten => ?_, ?_⟩
  · obtain ⟨v, found, rfl⟩ := entriesOf_sectionOf supplied
    rw [load, found]
    rfl
  · cases decoded : Utf8.decode bytes with
    | ok t => exact absurd (Utf8.decode_eq_ok_iff.mp decoded) (unwritten t)
    | error e =>
      refine ⟨e, rfl, ?_⟩
      rw [load, sectionOf, Disk.read, here]
      simp only [decoded]
      rfl
  · by_cases written : ∀ bytes, d.entry? place = some (.file bytes) → ∃ t, bytes = Utf8.encode t
    · exact .inl (exists_supplies written)
    · obtain ⟨bytes, unwritten⟩ := Classical.not_forall.mp written
      obtain ⟨here, other⟩ := Classical.not_imp.mp unwritten
      exact .inr ⟨bytes, here, not_exists.mp other⟩

def configured (bytes : List UInt8) : Disk := (Disk.blank ["p"]).write ["p", fileName] bytes

def jsonDocument : Text := "[check]\nformat = \"json\"\n"

/-- Whether a document has a section that asks for a report in JSON. -/
def asksForJson (document : List (Text × Value)) : Bool :=
  match Value.field? document sectionName with
  | some (.table settings) => (ofSection (.table settings) {}).format = .json
  | _ => false

theorem load_outcome_configured :
    (∃ settings,
      Supplies (configured (Utf8.encode jsonDocument)) ⟨.root, ["p", fileName]⟩ settings) ∧
    ∃ c, load (configured (Utf8.encode jsonDocument)) (some ⟨.root, ["p"]⟩) none {} = .ok c ∧
      c.format = .json := by
  have written : Disk.entry? (configured (Utf8.encode jsonDocument)) ⟨.root, ["p", fileName]⟩ =
      some (.file (Utf8.encode jsonDocument)) := by decide +kernel
  have place : fileOf (configured (Utf8.encode jsonDocument)) (some ⟨.root, ["p"]⟩) none =
      ⟨.root, ["p", fileName]⟩ := by decide +kernel
  have asked : (Toml.read (unifyBreaks jsonDocument)).any asksForJson = true := by decide +kernel
  obtain ⟨document, read, asked⟩ := (Option.any_eq_true _ _).mp asked
  unfold asksForJson at asked
  split at asked
  · next settings given =>
    have supplied := Supplies.inSection written read given
    have loaded := (load_outcome (configured (Utf8.encode jsonDocument)) (some ⟨.root, ["p"]⟩) none
      {}).1 settings
    rw [place] at loaded
    exact ⟨⟨settings, supplied⟩, _, loaded supplied, of_decide_eq_true asked⟩
  · cases asked

/-- One byte that begins no character is enough for a failure. -/
theorem load_undecodable :
    Disk.entry? (configured [0xFF]) ⟨.root, ["p", fileName]⟩ = some (.file [0xFF]) ∧
    ¬ ∃ c, load (configured [0xFF]) (some ⟨.root, ["p"]⟩) none {} = .ok c := by
  have failed : (load (configured [0xFF]) (some ⟨.root, ["p"]⟩) none {}).isOk = false := by
    decide +kernel
  refine ⟨by decide +kernel, ?_⟩
  rintro ⟨c, loaded⟩
  rw [loaded] at failed
  cases failed

end Traceability.Config
