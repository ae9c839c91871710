import Traceability.Editor.Feature
import Traceability.Proofs.Identifier
import Traceability.Proofs.Live.Agreement
import Traceability.Proofs.Trace.Markers

/-!
# Counts in the editor and in the trace

A live index keeps every place of an identifier as often as it is marked, the trace index keeps it once.
So an editor counts what the trace lists where no line marks the identifier twice, and more than that
where one does.
-/
namespace Traceability

namespace Text

theorem ofNat_injective {n m : Nat} (same : ofNat n = ofNat m) : n = m := by
  have read := congrArg (Nat.ofDigitChars 10 · 0) same
  simpa [ofNat, Nat.ofDigitChars_toDigits] using read

theorem isDigit_of_mem_ofNat {n : Nat} {c : Char} (member : c ∈ ofNat n) : c.isDigit = true :=
  Nat.isDigit_of_mem_toDigits (by decide) (by decide) member

end Text

namespace Editor

open Spec (Definition)

variable {i : LiveIndex} {id : Text} {n m impls tests : Nat}

/-! ## What is shown of a count -/

theorem counted_injective {noun : Text} (same : counted n noun = counted m noun) : n = m := by
  have blank (k : Nat) : ' ' ∉ Text.ofNat k := fun member =>
    absurd (Text.isDigit_of_mem_ofNat member) (by decide)
  have split (k : Nat) : counted k noun =
      Text.ofNat k ++ ' ' :: (noun ++ if k = 1 then [] else ['s']) := by
    simp [counted]
  rw [split, split] at same
  rw [Text.eq_behind_first (blank n) (blank m) same] at same
  exact Text.ofNat_injective (List.append_cancel_right same)

/-- No count starts as the word for none. -/
theorem counted_ne_no (n : Nat) (noun nouns : Text) : counted n noun ≠ "no " ++ nouns := by
  obtain ⟨c, more, digits⟩ := List.exists_cons_of_ne_nil (Nat.toDigits_ne_nil (n := n) (b := 10))
  have member : c ∈ Text.ofNat n := by
    rw [Text.ofNat, digits]
    exact List.mem_cons_self
  have digit := Text.isDigit_of_mem_ofNat member
  intro same
  have first : c = 'n' := by
    have head := congrArg List.head? same
    rw [counted, Text.ofNat, digits] at head
    exact Option.some.inj head
  rw [first] at digit
  exact absurd digit (by decide)

theorem lensTitle_injective {noun nouns : Text}
    (same : lensTitle id n noun nouns = lensTitle id m noun nouns) : n = m := by
  have shown := List.append_cancel_left same
  split at shown
  · next zero =>
    split at shown
    · next zero' => rw [zero, zero']
    · exact absurd shown.symm (counted_ne_no m noun nouns)
  · split at shown
    · exact absurd shown (counted_ne_no n noun nouns)
    · exact counted_injective shown

/-- What stands below a hover text where an identifier is implemented and tested so often. -/
def countNote (impls tests : Nat) : List Text :=
  match [(impls, "impl".toList), (tests, "test".toList)].filterMap fun (n, noun) =>
    if n = 0 then none else some (counted n noun) with
  | [] => []
  | uses => [[], underscored (Text.join " · " uses)]

/-- Behind the six lines of a hover text that say what is defined stand its counts. -/
theorem drop_hoverLines (i : LiveIndex) (d : Definition) :
    (hoverLines i d).drop 6 = countNote (implCount i d.id) (testCount i d.id) := by
  have uses : usage i d.id counted =
      [(implCount i d.id, "impl".toList), (testCount i d.id, "test".toList)].filterMap
        fun (n, noun) => if n = 0 then none else some (counted n noun) := rfl
  rw [hoverLines, countNote, ← uses]
  cases usage i d.id counted with
  | nil => rfl
  | cons use uses => rfl

/-- Whether an editor shows some counts of an identifier: those of its tests beside its code, those of
its code beside its tests, and both below what it means. -/
structure Shows (i : LiveIndex) (id : Text) (impls tests : Nat) : Prop where
  code : ∀ m : Marker, m.kind = .implementation → m.id = id →
    lens? i m = some ⟨.startOf m.line, lensTitle id tests "test" "tests", id⟩
  test : ∀ m : Marker, m.kind = .test → m.id = id →
    lens? i m = some ⟨.startOf m.line, lensTitle id impls "impl" "implementations", id⟩
  hover : ∀ d, i.definition? id = some d → (hoverLines i d).drop 6 = countNote impls tests

theorem shows_iff (own : ∀ d, i.definition? id = some d → d.id = id) :
    Shows i id impls tests ↔ implCount i id = impls ∧ testCount i id = tests := by
  constructor
  · intro shows
    -- A lens depends on its marker by the line only, so any marker of the identifier will do.
    have code := shows.code ⟨.implementation, id, [], 0, 0, 0⟩ rfl rfl
    have test := shows.test ⟨.test, id, [], 0, 0, 0⟩ rfl rfl
    exact ⟨lensTitle_injective (congrArg Lens.title (Option.some.inj test)),
      lensTitle_injective (congrArg Lens.title (Option.some.inj code))⟩
  · rintro ⟨rfl, rfl⟩
    refine ⟨fun m kind same => ?_, fun m kind same => ?_, fun d defined => ?_⟩
    · rw [lens?, kind, ← same]
    · rw [lens?, kind, ← same]
    · rw [drop_hoverLines, own d defined]

end Editor

/-! ## What the trace lists -/

namespace TraceIndex

open IndexEntries (placesAmong)

variable {c : Spec.Catalogue} {documents : List Spec.Document} {markers : List Marker} {id : Text}

/-- The places of all tests of an identifier, be it a property or not. -/
def testPlaces (i : TraceIndex) (id : Text) : List Location :=
  if namesProperty id then i.propertyTestsOf.get id else i.testsOf.get id

theorem testPlaces_of_property {i : TraceIndex} (property : namesProperty id = true) :
    i.testPlaces id = i.propertyTestsOf.get id := if_pos property

theorem testPlaces_of_criterion {i : TraceIndex} (other : namesProperty id = false) :
    i.testPlaces id = i.testsOf.get id := by
  rw [testPlaces, other]
  rfl

theorem map_markerLinks {p : Marker → Bool} {kind : MarkerKind}
    (told : ∀ m ∈ markers, m.id = id → (p m = true ↔ m.kind = kind)) :
    ((markerLinks p markers).filter (·.1 = id)).map (·.2) = placesAmong kind id markers := by
  rw [markerLinks, List.filter_map, List.map_map, List.filter_filter, placesAmong]
  refine congrArg (List.map Marker.location) (List.filter_congr fun m member => ?_)
  rw [Bool.eq_iff_iff, Bool.and_eq_true, Function.comp, decide_eq_true_iff, decide_eq_true_iff,
    Prod.mk.injEq, and_comm]
  exact and_congr_left fun same => told m member same

theorem firstSeen_codeOf (c : Spec.Catalogue) (markers : List Marker) (id : Text) :
    FirstSeen (placesAmong .implementation id markers) ((build c markers).codeOf.get id) := by
  rw [← map_markerLinks fun m _ _ => decide_eq_true_iff]
  exact OrderedMultimap.firstSeen_get_ofList _ id

theorem firstSeen_testPlaces (c : Spec.Catalogue) (markers : List Marker) (id : Text) :
    FirstSeen (placesAmong .test id markers) ((build c markers).testPlaces id) := by
  cases property : namesProperty id with
  | true =>
    rw [testPlaces_of_property property,
      ← map_markerLinks (p := fun m => m.kind = .test && namesProperty m.id)]
    · exact OrderedMultimap.firstSeen_get_ofList _ id
    · rintro m _ rfl
      simp [property]
  | false =>
    rw [testPlaces_of_criterion property,
      ← map_markerLinks (p := fun m => m.kind = .test && !namesProperty m.id)]
    · exact OrderedMultimap.firstSeen_get_ofList _ id
    · rintro m _ rfl
      simp [property]

end TraceIndex

/-! ## One project -/

namespace LiveIndex

open Editor (Shows implCount testCount shows_iff)
open IndexEntries (placesAmong)
open Spec (Catalogue Document)
open TraceIndex (firstSeen_codeOf firstSeen_testPlaces)

variable {p : Project} {i i' : LiveIndex}

/-- Where specs and code are kept apart, a build has the definitions of the specs and the places of the
markers in the code, as often as they are marked. -/
theorem rebuild_separate (sound : p.disk.Sound) (resolved : p.disk.resolve p.root = .ok p.root)
    (built : i.rebuild p.disk p.config p.root = (i', none)) (separates : p.Separates i') :
    ∃ documents scan, p.catalogue = .ok (.ofDocuments documents) ∧ p.scan = .ok scan ∧
      (∀ d ∈ documents, d.Parsed) ∧
      (∀ id, i'.definition? id = Spec.lastDefinition? id (documents.flatMap (·.definitions))) ∧
      ∀ kind id, i'.placesOf kind id = placesAmong kind id scan.markers := by
  obtain ⟨documents, scan, files, catalogue, scanned, parsed, ready, represents, defines, marks⟩ :=
    exists_files_of_separates sound resolved built separates
  refine ⟨documents, scan, catalogue, scanned, parsed, ?_, ?_⟩
  · intro id
    rw [definition?_of_represents ready represents, defines]
  · intro kind id
    rw [placesOf_of_represents ready represents, marks]

/-- Whether no line marks an identifier twice, be it as code or as tests. -/
def MarkedOnce (markers : List Marker) (id : Text) : Prop :=
  (placesAmong .implementation id markers).Nodup ∧ (placesAmong .test id markers).Nodup

instance (markers : List Marker) (id : Text) : Decidable (MarkedOnce markers id) :=
  inferInstanceAs (Decidable (_ ∧ _))

theorem shows_iff_markedOnce {c : Catalogue} {markers : List Marker} {id : Text}
    (own : ∀ d, i.definition? id = some d → d.id = id)
    (places : ∀ kind, i.placesOf kind id = placesAmong kind id markers) :
    Shows i id ((TraceIndex.build c markers).codeOf.get id).length
      ((TraceIndex.build c markers).testPlaces id).length ↔ MarkedOnce markers id := by
  have code := (firstSeen_codeOf c markers id).length_eq_iff
  have tests := (firstSeen_testPlaces c markers id).length_eq_iff
  rw [shows_iff own, implCount, testCount, places, places, MarkedOnce, ← code, ← tests]
  exact and_congr eq_comm eq_comm

/-- Of a criterion or a property an editor shows the counts of the trace just where no line marks it
twice; what it counts otherwise is every time that it is marked. -/
theorem shows_counts_iff (sound : p.disk.Sound) (resolved : p.disk.resolve p.root = .ok p.root)
    (built : i.rebuild p.disk p.config p.root = (i', none)) (separates : p.Separates i') :
    ∃ specs scan, p.catalogue = .ok specs ∧ p.scan = .ok scan ∧
      let t := TraceIndex.build specs scan.markers
      ∀ id,
        (∀ kind, i'.placesOf kind id = placesAmong kind id scan.markers) ∧
        (specs.definesAs .criterion id = true →
          (Shows i' id (t.codeOf.get id).length (t.testsOf.get id).length ↔
            MarkedOnce scan.markers id)) ∧
        (specs.definesAs .property id = true →
          (Shows i' id (t.codeOf.get id).length (t.propertyTestsOf.get id).length ↔
            MarkedOnce scan.markers id)) := by
  obtain ⟨documents, scan, catalogue, scanned, parsed, defined, places⟩ :=
    rebuild_separate sound resolved built separates
  refine ⟨.ofDocuments documents, scan, catalogue, scanned, ?_⟩
  intro t id
  have own : ∀ d, i'.definition? id = some d → d.id = id := by
    intro d found
    rw [defined] at found
    exact (Spec.mem_of_lastDefinition? found).2
  have shown := shows_iff_markedOnce (c := .ofDocuments documents) own fun kind => places kind id
  refine ⟨fun kind => places kind id, fun criterion => ?_, fun property => ?_⟩
  · obtain ⟨known, kind⟩ := (Catalogue.definesAs_iff_kind parsed).mp criterion
    have other := TraceIndex.not_namesProperty_of_kind parsed known kind
    rwa [TraceIndex.testPlaces_of_criterion other] at shown
  · obtain ⟨_, kind⟩ := (Catalogue.definesAs_iff_kind parsed).mp property
    rwa [TraceIndex.testPlaces_of_property (TraceIndex.namesProperty_of_kind kind)] at shown

end LiveIndex

/-- A spec of a criterion and a property, code of the criterion, and a file of tests. -/
def Project.tested (tests : Text) : Project :=
  let file (name t : Text) (d : Disk) : Disk := d.write ["p", name] (Text.Utf8.encode t)
  { disk :=
      file "a.md" "- X-1_AC-1 Reads\n- X_P-1 Stable" <|
        file "x.py" "# @spec-impl: X-1_AC-1" <| file "t.py" tests (.blank ["p"])
    root := ⟨.root, ["p"]⟩
    config := { specGlobs := ["*.md"], codeGlobs := ["*.py"] } }

theorem Project.index_eq_ok {p : Project} {specs : Spec.Catalogue} {scan : MarkerScan}
    (catalogue : p.catalogue = .ok specs) (scanned : p.scan = .ok scan) :
    p.index = .ok (TraceIndex.build specs scan.markers) := by
  rw [index, catalogue, scanned]
  rfl

namespace LiveIndex

open Editor (Shows lenses)

/-- The tests of a criterion stand on two lines, one of which has the test of a property as well. -/
theorem shows_counts_iff_tested :
    let p := Project.tested "# @spec-test: X-1_AC-1, X_P-1\n# @spec-test: X-1_AC-1"
    let i' := (({} : LiveIndex).rebuild p.disk p.config p.root).1
    p.disk.Sound ∧ p.disk.resolve p.root = .ok p.root ∧
      ({} : LiveIndex).rebuild p.disk p.config p.root = (i', none) ∧ p.Separates i' ∧
      ∃ specs scan, p.catalogue = .ok specs ∧ p.scan = .ok scan ∧
        specs.definesAs .criterion "X-1_AC-1" = true ∧ specs.definesAs .property "X_P-1" = true ∧
        MarkedOnce scan.markers "X-1_AC-1" ∧ Shows i' "X-1_AC-1" 1 2 ∧
        MarkedOnce scan.markers "X_P-1" ∧ Shows i' "X_P-1" 0 1 := by
  intro p i'
  have sound : p.disk.Sound := by decide +kernel
  have resolved : p.disk.resolve p.root = .ok p.root := by decide +kernel
  have built : ({} : LiveIndex).rebuild p.disk p.config p.root = (i', none) :=
    Prod.ext rfl (by decide +kernel)
  have separates : p.Separates i' := by
    have specFiles : p.specPaths = .ok [⟨.root, ["p", "a.md"]⟩] := by decide +kernel
    have codeFiles : p.codePaths = .ok [⟨.root, ["p", "t.py"]⟩, ⟨.root, ["p", "x.py"]⟩] := by
      decide +kernel
    exact Project.separates_of specFiles codeFiles (by decide +kernel) (by decide +kernel)
  obtain ⟨specs, scan, catalogue, scanned, counts⟩ :=
    shows_counts_iff sound resolved built separates
  have kinds : p.catalogue.toOption.map (fun c =>
      (c.definesAs .criterion "X-1_AC-1", c.definesAs .property "X_P-1")) = some (true, true) := by
    decide +kernel
  have once : p.scan.toOption.map (fun scan =>
      (decide (MarkedOnce scan.markers "X-1_AC-1"), decide (MarkedOnce scan.markers "X_P-1"))) =
        some (true, true) := by
    decide +kernel
  have lengths : p.index.toOption.map (fun t =>
      (((t.codeOf.get "X-1_AC-1").length, (t.testsOf.get "X-1_AC-1").length),
        (t.codeOf.get "X_P-1").length, (t.propertyTestsOf.get "X_P-1").length)) =
          some ((1, 2), 0, 1) := by
    decide +kernel
  rw [Project.index_eq_ok catalogue scanned] at lengths
  rw [catalogue] at kinds
  rw [scanned] at once
  simp only [Except.toOption, Option.map_some, Option.some.injEq, Prod.mk.injEq, decide_eq_true_eq]
    at kinds once lengths
  obtain ⟨criterion, property⟩ := kinds
  obtain ⟨⟨code, tests⟩, code', tests'⟩ := lengths
  obtain ⟨_, counted, _⟩ := counts "X-1_AC-1"
  obtain ⟨_, _, counted'⟩ := counts "X_P-1"
  have shows := (counted criterion).mpr once.1
  have shows' := (counted' property).mpr once.2
  rw [code, tests] at shows
  rw [code', tests'] at shows'
  exact ⟨sound, resolved, built, separates, specs, scan, catalogue, scanned, criterion, property,
    once.1, shows, once.2, shows'⟩

/-- A criterion that one line marks twice has one test in the trace, and its code is said to have two. -/
theorem counts_differ_repeated :
    let p := Project.tested "# @spec-test: X-1_AC-1, X-1_AC-1"
    let i' := (({} : LiveIndex).rebuild p.disk p.config p.root).1
    p.disk.Sound ∧ p.disk.resolve p.root = .ok p.root ∧
      ({} : LiveIndex).rebuild p.disk p.config p.root = (i', none) ∧ p.Separates i' ∧
      (∃ specs, p.catalogue = .ok specs ∧ specs.definesAs .criterion "X-1_AC-1" = true) ∧
      (∃ t, p.index = .ok t ∧ t.testsOf.get "X-1_AC-1" = [⟨"/p/t.py", 1⟩]) ∧
      (lenses i' ⟨.root, ["p", "x.py"]⟩).map (·.title) = ["X-1_AC-1 — 2 tests".toList] := by
  intro p i'
  have specFiles : p.specPaths = .ok [⟨.root, ["p", "a.md"]⟩] := by decide +kernel
  have codeFiles : p.codePaths = .ok [⟨.root, ["p", "t.py"]⟩, ⟨.root, ["p", "x.py"]⟩] := by
    decide +kernel
  have defined : p.catalogue.toOption.any (·.definesAs .criterion "X-1_AC-1") = true := by
    decide +kernel
  have listed :
      p.index.toOption.any (decide <| ·.testsOf.get "X-1_AC-1" = [⟨"/p/t.py", 1⟩]) = true := by
    decide +kernel
  refine ⟨by decide +kernel, by decide +kernel, Prod.ext rfl (by decide +kernel),
    Project.separates_of specFiles codeFiles (by decide +kernel) (by decide +kernel),
    exists_of_any defined, ?_, by decide +kernel⟩
  obtain ⟨t, index, tests⟩ := exists_of_any listed
  exact ⟨t, index, of_decide_eq_true tests⟩

end LiveIndex

end Traceability
