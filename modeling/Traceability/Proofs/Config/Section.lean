import Mathlib.Data.List.Nodup
import Traceability.Config.Basic
import Traceability.Proofs.Rule.Grammar

/-!
# Settings of a section

Every setting is read from the value under its own key. A value of a type that the setting does not
take counts as left out; only under the key of the structure check it turns the check off. What is
given for one run stands over the section, but a switch that the section turns on stays on.
-/
namespace Traceability

namespace Config

/-! ## Settings and their values -/

inductive Setting where
  | specGlobs
  | codeGlobs
  | specIgnore
  | codeIgnore
  | ignoreMarkers
  | markers
  | idPattern
  | crossRefKeywords
  | format
  | schemaDir
  | schemaEnabled
  | allowWarnings
  | specOnly
deriving DecidableEq, Repr

inductive SettingForm where
  | patterns
  | names
  | text
  | switch
deriving DecidableEq, Repr

namespace Setting

def key : Setting → Text
  | specGlobs => "spec-globs"
  | codeGlobs => "code-globs"
  | specIgnore => "spec-ignore"
  | codeIgnore => "code-ignore"
  | ignoreMarkers => "ignore-markers"
  | markers => "markers"
  | idPattern => "id-pattern"
  | crossRefKeywords => "cross-ref-patterns"
  | format => "format"
  | schemaDir => "schema-dir"
  | schemaEnabled => "schema-enabled"
  | allowWarnings => "allow-warnings"
  | specOnly => "spec-only"

def form : Setting → SettingForm
  | specGlobs | codeGlobs | specIgnore | codeIgnore | ignoreMarkers => .patterns
  | markers | crossRefKeywords => .names
  | idPattern | format | schemaDir => .text
  | schemaEnabled | allowWarnings | specOnly => .switch

def all : List Setting :=
  [specGlobs, codeGlobs, specIgnore, codeIgnore, ignoreMarkers, markers, idPattern,
    crossRefKeywords, format, schemaDir, schemaEnabled, allowWarnings, specOnly]

theorem key_injective : Function.Injective key := by
  have complete (s : Setting) : s ∈ all := by cases s <;> decide
  have distinct : (all.map key).Nodup := by decide +kernel
  intro s s' same
  exact List.inj_on_of_nodup_map distinct (complete s) (complete s') same

end Setting

/-- Whether a value is of a type that no setting of some form takes. -/
def SettingForm.isMistyped : SettingForm → Value → Bool
  | _, .table _ | _, .real _ | _, .moment _ => true
  | form, .int _ | form, .bool _ => form ≠ .switch
  | .patterns, .list items => items.any fun item => item.text?.isNone
  | .names, .list _ => false
  | .text, .list _ | .switch, .list _ => true
  | _, .text _ | _, .null => false

variable {v : Value}

theorem patternsOr_of_mistyped (mistyped : SettingForm.patterns.isMistyped v = true)
    (fallback : List Text) : patternsOr fallback v = fallback := by
  cases v with
  | list items =>
    obtain ⟨item, member, untexted⟩ := List.any_eq_true.mp mistyped
    have unread : Value.texts? items = none := by
      by_contra read
      obtain ⟨t, rfl⟩ := (RuleReading.exists_texts?_iff items).mp
        (Option.ne_none_iff_exists'.mp read) item member
      cases untexted
    cases items with
    | nil => rfl
    | cons first rest => simp only [patternsOr, unread]
  | text t => cases mistyped
  | _ => rfl

theorem namesOr_of_mistyped (mistyped : SettingForm.names.isMistyped v = true)
    (fallback : List Text) : namesOr fallback v = fallback := by
  cases v with
  | list items => cases mistyped
  | text t => cases mistyped
  | _ => rfl

theorem textOr_of_mistyped (mistyped : SettingForm.text.isMistyped v = true) (fallback : Text) :
    textOr fallback v = fallback := by
  cases v with
  | text t => cases mistyped
  | _ => rfl

theorem formatOf_of_mistyped (mistyped : SettingForm.text.isMistyped v = true) :
    formatOf v = .text := by
  cases v with
  | text t => cases mistyped
  | _ => rfl

/-- Off, and not what the switch is without the value. -/
theorem onOr_of_mistyped (mistyped : SettingForm.switch.isMistyped v = true) (fallback : Bool) :
    onOr fallback v = false := by
  cases v with
  | table _ | real _ | moment _ | list _ => rfl
  | _ => cases mistyped

/-! ## Sections with and without a key -/

/-- Whether two configurations have the same for a setting. -/
def SameAt (c c' : Config) : Setting → Prop
  | .specGlobs => c.specGlobs = c'.specGlobs
  | .codeGlobs => c.codeGlobs = c'.codeGlobs
  | .specIgnore => c.specIgnore = c'.specIgnore
  | .codeIgnore => c.codeIgnore = c'.codeIgnore
  | .ignoreMarkers => c.ignoreMarkers = c'.ignoreMarkers
  | .markers => c.markers = c'.markers
  | .idPattern => c.idPattern = c'.idPattern
  | .crossRefKeywords => c.crossRefKeywords = c'.crossRefKeywords
  | .format => c.format = c'.format
  | .schemaDir => c.schemaDir = c'.schemaDir
  | .schemaEnabled => c.schemaEnabled = c'.schemaEnabled
  | .allowWarnings => c.allowWarnings = c'.allowWarnings
  | .specOnly => c.specOnly = c'.specOnly

variable {c c' : Config} {s : Setting} {entries entries' : List (Text × Value)}

theorem eq_of_sameAt (same : ∀ s, SameAt c c' s) : c = c' := by
  cases c
  cases c'
  rw [Config.mk.injEq]
  exact ⟨same .specGlobs, same .codeGlobs, same .specIgnore, same .codeIgnore, same .ignoreMarkers,
    same .markers, same .idPattern, same .crossRefKeywords, same .format, same .schemaDir,
    same .schemaEnabled, same .allowWarnings, same .specOnly⟩

/-- A setting is read from the value under its key and from nothing else. -/
theorem sameAt_ofEntries (same : Value.field entries s.key = Value.field entries' s.key) :
    SameAt (ofEntries entries) (ofEntries entries') s := by
  cases s with
  | specGlobs | codeGlobs | specIgnore | codeIgnore | ignoreMarkers =>
    exact congrArg (patternsOr _) same
  | markers | crossRefKeywords => exact congrArg (namesOr _) same
  | idPattern | schemaDir => exact congrArg (textOr _) same
  | format => exact congrArg formatOf same
  | schemaEnabled | allowWarnings | specOnly => exact congrArg (onOr _) same

/-- A mistyped value counts as none, but for the one switch that is on without a value. -/
theorem sameAt_of_mistyped (mistyped : s.form.isMistyped (Value.field entries s.key) = true)
    (absent : Value.field entries' s.key = .null) (other : s ≠ .schemaEnabled) :
    SameAt (ofEntries entries) (ofEntries entries') s := by
  cases s with
  | specGlobs | codeGlobs | specIgnore | codeIgnore | ignoreMarkers =>
    exact (patternsOr_of_mistyped mistyped _).trans (congrArg (patternsOr _) absent).symm
  | markers | crossRefKeywords =>
    exact (namesOr_of_mistyped mistyped _).trans (congrArg (namesOr _) absent).symm
  | idPattern | schemaDir =>
    exact (textOr_of_mistyped mistyped _).trans (congrArg (textOr _) absent).symm
  | format => exact (formatOf_of_mistyped mistyped).trans (congrArg formatOf absent).symm
  | schemaEnabled => exact absurd rfl other
  | allowWarnings | specOnly =>
    exact (onOr_of_mistyped mistyped _).trans (congrArg (onOr _) absent).symm

def without (key : Text) (entries : List (Text × Value)) : List (Text × Value) :=
  entries.filter fun entry => entry.1 ≠ key

theorem field_without (key name : Text) (entries : List (Text × Value)) :
    Value.field (without key entries) name =
      if name = key then .null else Value.field entries name := by
  induction entries with
  | nil => split <;> rfl
  | cons entry rest ih =>
    obtain ⟨n, v⟩ := entry
    simp only [Value.field, Value.field?] at ih ⊢
    by_cases erased : n = key
    · have dropped : without key ((n, v) :: rest) = without key rest := by simp [without, erased]
      rw [dropped, ih, List.lookup_cons, ← erased]
      by_cases asked : name = n
      · rw [if_pos asked, if_pos asked]
      · rw [if_neg asked, if_neg asked, beq_eq_false_iff_ne.mpr asked]
    · have kept : without key ((n, v) :: rest) = (n, v) :: without key rest := by
        simp [without, erased]
      rw [kept, List.lookup_cons, List.lookup_cons]
      by_cases asked : name = n
      · rw [beq_iff_eq.mpr asked, asked, if_neg erased]
      · rw [beq_eq_false_iff_ne.mpr asked]
        exact ih

theorem override_nothing (c : Config) : c.override {} = c := by
  simp [override]

/-- A value of a type that its setting does not take gives the configuration that is given without
the key, but under the key of the structure check: there it turns the check off. -/
theorem ofSection_of_mistyped {s : Setting} (given : Value.field? entries s.key = some v)
    (mistyped : s.form.isMistyped v = true) :
    let c := ofSection (.table entries) {}
    let absent := ofSection (.table (without s.key entries)) {}
    (s ≠ .schemaEnabled → c = absent) ∧
      (s = .schemaEnabled → c = { absent with schemaEnabled := false }) := by
  have value : Value.field entries s.key = v := by rw [Value.field, given, Option.getD_some]
  rw [← value] at mistyped
  have missing : Value.field (without s.key entries) s.key = .null := by
    rw [field_without, if_pos rfl]
  have elsewhere {s' : Setting} (other : s' ≠ s) :
      SameAt (ofEntries entries) (ofEntries (without s.key entries)) s' := by
    refine sameAt_ofEntries ?_
    rw [field_without, if_neg (Setting.key_injective.ne other)]
  have read (entries : List (Text × Value)) : ofSection (.table entries) {} = ofEntries entries :=
    override_nothing _
  dsimp only
  rw [read, read]
  constructor
  · intro other
    refine eq_of_sameAt fun s' => ?_
    by_cases same : s' = s
    · subst same
      exact sameAt_of_mistyped mistyped missing other
    · exact elsewhere same
  · rintro rfl
    refine eq_of_sameAt fun s' => ?_
    have there : s' ≠ .schemaEnabled → SameAt _ _ s' := elsewhere
    cases s' with
    | schemaEnabled => exact onOr_of_mistyped mistyped _
    | _ => exact there (by decide)

def mistypedGlobs : List (Text × Value) :=
  [("format", .text "json"), ("code-globs", .list [.text "src/*.py", .int 3]),
    ("spec-only", .bool true)]

theorem ofSection_of_mistyped_globs :
    Value.field? mistypedGlobs "code-globs" = some (.list [.text "src/*.py", .int 3]) ∧
    SettingForm.patterns.isMistyped (.list [.text "src/*.py", .int 3]) = true ∧
    ofSection (.table mistypedGlobs) {} =
      ofSection (.table [("format", .text "json"), ("spec-only", .bool true)]) {} := by
  have given : Value.field? mistypedGlobs Setting.codeGlobs.key =
      some (.list [.text "src/*.py", .int 3]) := by rfl
  have mistyped :
      Setting.codeGlobs.form.isMistyped (.list [.text "src/*.py", .int 3]) = true := by rfl
  exact ⟨given, mistyped, (ofSection_of_mistyped given mistyped).1 (by decide)⟩

/-- A real number under the key of the structure check turns the check off, though it is on without
the key. -/
theorem schemaEnabled_mistyped :
    Value.field? [("schema-enabled", .real "1.5")] Setting.schemaEnabled.key = some (.real "1.5") ∧
    Setting.schemaEnabled.form.isMistyped (.real "1.5") = true ∧
    (ofSection (.table [("schema-enabled", .real "1.5")]) {}).schemaEnabled = false ∧
    (ofSection (.table (without Setting.schemaEnabled.key [("schema-enabled", .real "1.5")]))
      {}).schemaEnabled = true :=
  ⟨rfl, rfl, rfl, rfl⟩

/-! ## Settings of one run -/

/-- Settings with those of one run over them, as far as these are given. -/
def overriddenBy (c : Config) (o : ConfigOverrides) : Config :=
  { c with
    specIgnore := c.specIgnore ++ o.specIgnore
    codeIgnore := c.codeIgnore ++ o.codeIgnore
    format := o.format.getD c.format
    allowWarnings := o.allowWarnings.getD c.allowWarnings
    specOnly := o.specOnly.getD c.specOnly }

/-- Whether a switch that is on is given as off. -/
def TurnsOff (given : Option Bool) (on : Bool) : Prop := on = true ∧ given = some false

theorem or_given_eq (given : Option Bool) (on : Bool) :
    (on || given = some true) = (on || given.getD on) := by
  cases on <;> rcases given with _ | _ | _ <;> rfl

theorem or_given_eq_iff {given : Option Bool} {on : Bool} :
    (on || given.getD on) = given.getD on ↔ ¬ TurnsOff given on := by
  cases on <;> rcases given with _ | given <;> simp [TurnsOff]

theorem override_eq (c : Config) (o : ConfigOverrides) : c.override o =
    { c.overriddenBy o with
      allowWarnings := c.allowWarnings || (c.overriddenBy o).allowWarnings
      specOnly := c.specOnly || (c.overriddenBy o).specOnly } := by
  rw [override, or_given_eq, or_given_eq]
  rfl

theorem override_eq_iff (c : Config) (o : ConfigOverrides) : c.override o = c.overriddenBy o ↔
    ¬ TurnsOff o.allowWarnings c.allowWarnings ∧ ¬ TurnsOff o.specOnly c.specOnly := by
  rw [← or_given_eq_iff, ← or_given_eq_iff]
  constructor
  · intro same
    rw [override_eq] at same
    exact ⟨congrArg Config.allowWarnings same, congrArg Config.specOnly same⟩
  · rintro ⟨warnings, only⟩
    rw [override, or_given_eq, or_given_eq, warnings, only]
    rfl

/-- What is given for a run stands over the section and touches nothing else, but for a switch that
is on in the section: it stays on, also where it is given as off. -/
theorem ofSection_overrides (v : Value) (o : ConfigOverrides) :
    let c := ofSection v {}
    let asked := c.overriddenBy o
    (ofSection v o = asked ↔
      ¬ TurnsOff o.allowWarnings c.allowWarnings ∧ ¬ TurnsOff o.specOnly c.specOnly) ∧
    ofSection v o =
      { asked with
        allowWarnings := c.allowWarnings || asked.allowWarnings
        specOnly := c.specOnly || asked.specOnly } := by
  intro c asked
  have read : c = ofEntries (entriesOf v) := override_nothing _
  rw [ofSection, ← read]
  exact ⟨override_eq_iff c o, override_eq c o⟩

/-- A switch that the section turns on cannot be turned off for one run. -/
theorem ofSection_turned_off :
    TurnsOff (some false) (ofSection (.table [("allow-warnings", .bool true)]) {}).allowWarnings ∧
    (ofSection (.table [("allow-warnings", .bool true)])
      { allowWarnings := some false }).allowWarnings = true :=
  ⟨⟨rfl, rfl⟩, rfl⟩

end Config

end Traceability
