import Traceability.Live.Basic
import Traceability.Proofs.Spec.Catalogue

/-!
# Live indexes and lists of files

An index is patched in four maps; what it means is a list of contributions, one a file, in the order
in which the files came. Dropping a file takes its contribution out of the list, and inserting one puts
it at the end. Every answer of the index is read off the list.
-/
namespace Traceability

/-- Whether everything a file says is located in that file. -/
def Contribution.Local (c : Contribution) : Prop :=
  (∀ d ∈ c.definitions, d.location.path = c.path) ∧ ∀ m ∈ c.markers, m.path = c.path

instance (c : Contribution) : Decidable c.Local :=
  inferInstanceAs (Decidable (_ ∧ _))

namespace IndexEntries

open Spec

/-- Where some markers of a kind name an identifier, in their order. -/
def placesAmong (kind : MarkerKind) (id : Text) (markers : List Marker) : List Location :=
  (markers.filter fun m => (m.kind, m.id) = (kind, id)).map Marker.location

/-- A list as the value of a key that is absent when there is nothing to say. -/
def filled? {α : Type} (l : List α) : Option (List α) := if l = [] then none else some l

/-- What the files of a list say of one sort, by their paths; silent files have no entry. -/
def shares {β : Type} (say : Contribution → List β) (files : List Contribution) :
    OrderedMap Text (List β) :=
  ⟨(files.filter (say · ≠ [])).map fun c => (c.path, say c)⟩

/-- An index holds exactly what a list of files says, in the order of the list. -/
structure Represents (files : List Contribution) (e : IndexEntries) : Prop where
  distinct : (files.map (·.path)).Nodup
  located : ∀ c ∈ files, c.Local
  definitionsByFile : e.definitionsByFile = shares (·.definitions) files
  markersByFile : e.markersByFile = shares (·.markers) files
  definition : ∀ id, e.definitions.get? id = lastDefinition? id (files.flatMap (·.definitions))
  defined : e.definitions.keys.Nodup
  places : ∀ kind id,
    e.places.get? (kind, id) = filled? (placesAmong kind id (files.flatMap (·.markers)))

/-! ## Lists -/

@[simp] theorem getD_filled? {α : Type} (l : List α) : (filled? l).getD [] = l := by
  unfold filled?
  split
  · next none => exact none.symm
  · rfl

theorem placesAmong_cons (kind : MarkerKind) (id : Text) (m : Marker) (rest : List Marker) :
    placesAmong kind id (m :: rest) =
      if (m.kind, m.id) = (kind, id) then m.location :: placesAmong kind id rest
      else placesAmong kind id rest := by
  rw [placesAmong, List.filter_cons]
  split
  · next same => rw [if_pos (of_decide_eq_true same), List.map_cons, placesAmong]
  · next other => rw [if_neg (by simpa using other), placesAmong]

theorem placesAmong_append (kind : MarkerKind) (id : Text) (before after : List Marker) :
    placesAmong kind id (before ++ after) =
      placesAmong kind id before ++ placesAmong kind id after := by
  simp [placesAmong]

theorem mem_placesAmong {kind : MarkerKind} {id : Text} {markers : List Marker} {l : Location} :
    l ∈ placesAmong kind id markers ↔
      ∃ m ∈ markers, m.kind = kind ∧ m.id = id ∧ m.location = l := by
  simp only [placesAmong, List.mem_map, List.mem_filter, Prod.mk.injEq, decide_eq_true_eq]
  tauto

/-- Where each file speaks of itself only, leaving files out leaves out what is located in them. -/
theorem flatMap_filter_path {β : Type} (say : Contribution → List β) (place : β → Text)
    (keep : Text → Bool) {files : List Contribution}
    (own : ∀ c ∈ files, ∀ b ∈ say c, place b = c.path) :
    (files.filter (keep ·.path)).flatMap say = (files.flatMap say).filter (keep <| place ·) := by
  induction files with
  | nil => rfl
  | cons c rest ih =>
    have here : ∀ b ∈ say c, place b = c.path := own c List.mem_cons_self
    have later := ih fun c member => own c (List.mem_cons_of_mem _ member)
    rw [List.filter_cons, List.flatMap_cons, List.filter_append, ← later]
    by_cases kept : keep c.path = true
    · have all : (say c).filter (keep <| place ·) = say c := by
        rw [List.filter_eq_self]
        intro b member
        rw [here b member, kept]
      rw [if_pos kept, List.flatMap_cons, all]
    · have none : (say c).filter (keep <| place ·) = [] := by
        rw [List.filter_eq_nil_iff]
        intro b member
        rw [here b member]
        exact kept
      rw [if_neg kept, none, List.nil_append]

/-! ## The shares of files -/

section Shares

variable {β : Type} (say : Contribution → List β)

theorem shares_cons (c : Contribution) (files : List Contribution) :
    shares say (c :: files) =
      if say c = [] then shares say files
      else ⟨(c.path, say c) :: (shares say files).entries⟩ := by
  unfold shares
  rw [List.filter_cons]
  by_cases silent : say c = [] <;> simp [silent]

theorem shares_append (before after : List Contribution) :
    shares say (before ++ after) =
      ⟨(shares say before).entries ++ (shares say after).entries⟩ := by
  simp [shares]

theorem flatten_shares (files : List Contribution) :
    (shares say files).values.flatten = files.flatMap say := by
  induction files with
  | nil => rfl
  | cons c rest ih =>
    rw [shares_cons]
    by_cases silent : say c = []
    · rw [if_pos silent, ih, List.flatMap_cons, silent, List.nil_append]
    · rw [if_neg silent, List.flatMap_cons, ← ih]
      rfl

theorem mem_keys_shares_iff {files : List Contribution} {path : Text} :
    path ∈ (shares say files).keys ↔ ∃ c ∈ files, say c ≠ [] ∧ c.path = path := by
  simp only [shares, OrderedMap.keys, List.map_map, List.mem_map, List.mem_filter]
  simp [and_assoc]

theorem nodup_keys_shares {files : List Contribution} (distinct : (files.map (·.path)).Nodup) :
    (shares say files).keys.Nodup := by
  rw [shares, OrderedMap.keys, List.map_map]
  exact distinct.sublist (List.filter_sublist.map _)

/-- Where no two files have one path, a path has the share of its file. -/
theorem getD_shares {files : List Contribution} (distinct : (files.map (·.path)).Nodup)
    (path : Text) :
    ((shares say files).get? path).getD [] = (files.filter (·.path = path)).flatMap say := by
  induction files with
  | nil => rfl
  | cons c rest ih =>
    obtain ⟨fresh, distinct⟩ := List.nodup_cons.mp distinct
    rw [shares_cons, List.filter_cons]
    by_cases here : c.path = path
    · have alone : rest.filter (·.path = path) = [] := by
        rw [List.filter_eq_nil_iff]
        intro other member
        have differs : other.path ≠ path := by
          intro same
          exact fresh (List.mem_map.mpr ⟨other, member, same.trans here.symm⟩)
        simpa using differs
      by_cases silent : say c = []
      · rw [if_pos silent, ih distinct, alone]
        simp [here, silent]
      · rw [if_neg silent, OrderedMap.get?_mk_cons, if_pos here.symm, alone]
        simp [here]
    · by_cases silent : say c = []
      · rw [if_pos silent, ih distinct]
        simp [here]
      · rw [if_neg silent, OrderedMap.get?_mk_cons, if_neg (Ne.symm here)]
        simpa [here] using ih distinct

theorem erase_shares (files : List Contribution) (path : Text) :
    (shares say files).erase path = shares say (files.filter (·.path ≠ path)) := by
  simp only [shares, OrderedMap.erase, List.filter_map, List.filter_filter]
  congr 2
  apply List.filter_congr
  intro c _
  exact Bool.and_comm _ _

theorem insert_shares {files : List Contribution} {c : Contribution} (speaks : say c ≠ [])
    (fresh : c.path ∉ files.map (·.path)) :
    (shares say files).insert c.path (say c) = shares say (files ++ [c]) := by
  have absent : c.path ∉ (shares say files).keys := by
    intro member
    obtain ⟨other, known, _, same⟩ := (mem_keys_shares_iff say).mp member
    exact fresh (List.mem_map.mpr ⟨other, known, same⟩)
  rw [shares_append, shares_cons, if_neg speaks]
  exact congrArg OrderedMap.mk (OrderedMap.entries_insert_of_absent absent (say c))

theorem shares_append_silent (files : List Contribution) {c : Contribution} (silent : say c = []) :
    shares say (files ++ [c]) = shares say files := by
  rw [shares_append, shares_cons, if_pos silent]
  exact congrArg OrderedMap.mk (List.append_nil _)

end Shares

/-! ## Dropping a file -/

theorem get?_dropDefinition (path : Text) (e : IndexEntries) (d : Spec.Definition) (id : Text) :
    (dropDefinition path e d).definitions.get? id =
      if d.id = id ∧ (e.definitions.get? id).any (·.location.path = path) then e.survivor? id
      else e.definitions.get? id := by
  by_cases same : d.id = id
  · subst same
    unfold dropDefinition
    cases current : e.definitions.get? d.id with
    | none => simp [current]
    | some c =>
      by_cases here : c.location.path = path
      · cases left : e.survivor? d.id with
        | none => simp [here, OrderedMap.get?_erase]
        | some s => simp [here, OrderedMap.get?_insert]
      · simp [here, current]
  · have other : ¬ id = d.id := fun h => same h.symm
    simp only [same, false_and, if_false]
    unfold dropDefinition
    split
    · rfl
    · split
      · rfl
      · split
        · rw [OrderedMap.get?_erase, if_neg other]
        · rw [OrderedMap.get?_insert, if_neg other]

theorem nodup_keys_dropDefinition (path : Text) {e : IndexEntries}
    (distinct : e.definitions.keys.Nodup) (d : Spec.Definition) :
    (dropDefinition path e d).definitions.keys.Nodup := by
  unfold dropDefinition
  split
  · exact distinct
  · split
    · exact distinct
    · split
      · exact OrderedMap.nodup_keys_erase distinct d.id
      · exact OrderedMap.nodup_keys_insert distinct d.id _

theorem dropDefinition_eq (path : Text) (e : IndexEntries) (d : Spec.Definition) :
    dropDefinition path e d = { e with definitions := (dropDefinition path e d).definitions } := by
  unfold dropDefinition
  split
  · rfl
  · split
    · rfl
    · split <;> rfl

/-- Dropping definitions of a file changes the definitions in force only: one that the file gave way
to the last one left elsewhere. -/
theorem foldl_dropDefinition (path : Text) (dropped : List Spec.Definition) (e : IndexEntries)
    (elsewhere : ∀ id d, e.survivor? id = some d → d.location.path ≠ path)
    (distinct : e.definitions.keys.Nodup) :
    ∃ inForce, dropped.foldl (dropDefinition path) e = { e with definitions := inForce } ∧
      inForce.keys.Nodup ∧
      ∀ id, inForce.get? id =
        if (∃ d ∈ dropped, d.id = id) ∧ (e.definitions.get? id).any (·.location.path = path)
        then e.survivor? id else e.definitions.get? id := by
  -- Survivors lie in other files, so a definition that has given way once is not dropped again.
  induction dropped generalizing e with
  | nil => exact ⟨e.definitions, rfl, distinct, by simp⟩
  | cons d rest ih =>
    have frame := dropDefinition_eq path e d
    have same : ∀ id, (dropDefinition path e d).survivor? id = e.survivor? id := by
      intro id
      rw [frame]
      rfl
    obtain ⟨inForce, result, keys, answer⟩ := ih (dropDefinition path e d)
      (by simpa [same] using elsewhere) (nodup_keys_dropDefinition path distinct d)
    refine ⟨inForce, ?_, keys, fun id => ?_⟩
    · rw [List.foldl_cons, result, frame]
    · rw [answer, same, get?_dropDefinition]
      by_cases first : d.id = id
      · by_cases here : (e.definitions.get? id).any (·.location.path = path) = true
        · have settled : (e.survivor? id).any (·.location.path = path) = false := by
            cases left : e.survivor? id with
            | none => rfl
            | some s => simp [elsewhere id s left]
          simp [first, here, settled]
        · simp [here]
      · simp [first]

theorem dropMarker_eq (path : Text) (e : IndexEntries) (m : Marker) :
    ∃ places, dropMarker path e m = { e with places } ∧ ∀ key, places.get? key =
      if (m.kind, m.id) = key then filled? (((e.places.get? key).getD []).filter (·.path ≠ path))
      else e.places.get? key := by
  unfold dropMarker
  dsimp only
  split
  · next empty =>
    refine ⟨_, rfl, fun key => ?_⟩
    rw [OrderedMap.get?_erase]
    by_cases same : (m.kind, m.id) = key
    · subst same
      rw [if_pos rfl, if_pos rfl, empty]
      rfl
    · rw [if_neg (Ne.symm same), if_neg same]
  · next left nonempty =>
    refine ⟨_, rfl, fun key => ?_⟩
    rw [OrderedMap.get?_insert]
    by_cases same : (m.kind, m.id) = key
    · subst same
      rw [if_pos rfl, if_pos rfl, filled?, if_neg nonempty]
    · rw [if_neg (Ne.symm same), if_neg same]

theorem foldl_dropMarker (path : Text) (dropped : List Marker) (e : IndexEntries) :
    ∃ places, dropped.foldl (dropMarker path) e = { e with places } ∧
      ∀ key, places.get? key =
        if ∃ m ∈ dropped, (m.kind, m.id) = key then
          filled? (((e.places.get? key).getD []).filter (·.path ≠ path))
        else e.places.get? key := by
  induction dropped generalizing e with
  | nil => exact ⟨e.places, rfl, by simp⟩
  | cons m rest ih =>
    obtain ⟨places, frame, step⟩ := dropMarker_eq path e m
    obtain ⟨final, result, answer⟩ := ih (dropMarker path e m)
    refine ⟨final, ?_, fun key => ?_⟩
    · rw [List.foldl_cons, result, frame]
    · rw [answer, frame]
      dsimp only
      rw [step]
      by_cases here : (m.kind, m.id) = key
      · simp [here, List.filter_filter]
      · simp [here]

/-! ## Inserting a file -/

theorem get?_addDefinitions (path : Text) (definitions : List Spec.Definition) (e : IndexEntries)
    (id : Text) :
    (addDefinitions path definitions e).definitions.get? id =
      (lastDefinition? id definitions).or (e.definitions.get? id) := by
  unfold addDefinitions
  split
  · next silent => simp [silent, lastDefinition?]
  · rw [OrderedMap.get?_insertAll, getLast?_written]

theorem foldl_addMarker (markers : List Marker) (e : IndexEntries) :
    ∃ places, markers.foldl addMarker e = { e with places } ∧
      ∀ kind id, places.get? (kind, id) =
        if placesAmong kind id markers = [] then e.places.get? (kind, id)
        else some ((e.places.get? (kind, id)).getD [] ++ placesAmong kind id markers) := by
  induction markers generalizing e with
  | nil => exact ⟨e.places, rfl, by simp [placesAmong]⟩
  | cons m rest ih =>
    obtain ⟨places, result, answer⟩ := ih (addMarker e m)
    refine ⟨places, result, fun kind id => ?_⟩
    rw [answer, placesAmong_cons]
    simp only [addMarker, OrderedMap.get?_insert]
    by_cases same : (m.kind, m.id) = (kind, id)
    · obtain ⟨rfl, rfl⟩ := Prod.mk.inj same
      by_cases none : placesAmong m.kind m.id rest = [] <;> simp [none]
    · have turned : ¬ (kind, id) = (m.kind, m.id) := fun h => same h.symm
      rw [if_neg turned, if_neg same]

namespace Represents

variable {files : List Contribution} {e : IndexEntries}

theorem allDefinitions (represents : Represents files e) :
    e.definitionsByFile.values.flatten = files.flatMap (·.definitions) := by
  rw [represents.definitionsByFile, flatten_shares]

theorem allMarkers (represents : Represents files e) :
    e.markersByFile.values.flatten = files.flatMap (·.markers) := by
  rw [represents.markersByFile, flatten_shares]

/-- A definition in force that a dropped file did not give stays the last one. -/
theorem lastDefinition?_without (represents : Represents files e) {path id : Text}
    (kept : ¬((∃ d ∈ (files.filter (·.path = path)).flatMap (·.definitions), d.id = id) ∧
      (e.definitions.get? id).any (·.location.path = path))) :
    lastDefinition? id ((files.filter (·.path ≠ path)).flatMap (·.definitions)) =
      e.definitions.get? id := by
  have without := flatMap_filter_path (·.definitions) (·.location.path) (· ≠ path)
    fun c known => (represents.located c known).1
  rw [represents.definition id] at kept ⊢
  rw [without]
  cases last : lastDefinition? id (files.flatMap (·.definitions)) with
  | none =>
    rw [lastDefinition?_eq_none_iff] at last ⊢
    exact fun d member => last d (List.mem_of_mem_filter member)
  | some d =>
    apply lastDefinition?_filter _ last
    obtain ⟨member, same⟩ := mem_of_lastDefinition? last
    obtain ⟨c, known, stated⟩ := List.mem_flatMap.mp member
    have own : d.location.path = c.path := (represents.located c known).1 d stated
    rw [decide_eq_true_iff]
    intro here
    refine kept ⟨⟨d, ?_, same⟩, ?_⟩
    · refine List.mem_flatMap.mpr ⟨c, ?_, stated⟩
      simp [known, ← own, here]
    · simp [last, here]

theorem placesAmong_without (represents : Represents files e) (path : Text) (kind : MarkerKind)
    (id : Text) :
    placesAmong kind id ((files.filter (·.path ≠ path)).flatMap (·.markers)) =
      (placesAmong kind id (files.flatMap (·.markers))).filter (·.path ≠ path) := by
  have without := flatMap_filter_path (·.markers) (·.path) (· ≠ path)
    fun c known => (represents.located c known).2
  rw [without]
  simp only [placesAmong, List.filter_map, List.filter_filter]
  congr 1
  apply List.filter_congr
  intro m _
  exact Bool.and_comm _ _

/-- The places of an identifier that a dropped file does not name stay. -/
theorem placesAmong_kept (represents : Represents files e) {path : Text} {kind : MarkerKind}
    {id : Text}
    (kept : ¬∃ m ∈ (files.filter (·.path = path)).flatMap (·.markers), (m.kind, m.id) = (kind, id)) :
    (placesAmong kind id (files.flatMap (·.markers))).filter (·.path ≠ path) =
      placesAmong kind id (files.flatMap (·.markers)) := by
  rw [List.filter_eq_self]
  intro l member
  obtain ⟨m, stated, kinds, ids, rfl⟩ := mem_placesAmong.mp member
  obtain ⟨c, known, stated⟩ := List.mem_flatMap.mp stated
  have own : m.path = c.path := (represents.located c known).2 m stated
  rw [decide_eq_true_iff]
  intro here
  have same : c.path = path := own.symm.trans here
  refine kept ⟨m, List.mem_flatMap.mpr ⟨c, ?_, stated⟩, by rw [kinds, ids]⟩
  simp [known, same]

/-- Behind a dropped file no definition is left that the file gave. -/
theorem path_ne_of_survivor? (represents : Represents files e) {path id : Text} {e' : IndexEntries}
    (byFile : e'.definitionsByFile = shares (·.definitions) (files.filter (·.path ≠ path)))
    {d : Spec.Definition} (left : e'.survivor? id = some d) : d.location.path ≠ path := by
  rw [survivor?, byFile, flatten_shares] at left
  obtain ⟨c, known, stated⟩ := List.mem_flatMap.mp (mem_of_lastDefinition? left).1
  simp only [List.mem_filter, ne_eq, decide_eq_true_eq] at known
  rw [(represents.located c known.1).1 d stated]
  exact known.2

theorem drop (represents : Represents files e) (path : Text) :
    Represents (files.filter (·.path ≠ path)) (e.drop path) := by
  obtain ⟨inForce, byFile, marked, places⟩ := e
  obtain rfl : byFile = _ := represents.definitionsByFile
  obtain rfl : marked = _ := represents.markersByFile
  -- The share of the file goes before its definitions do, so that they find the survivors.
  obtain ⟨inForce', definitions_eq, defined, definition⟩ := foldl_dropDefinition path
    ((files.filter (·.path = path)).flatMap (·.definitions))
    ⟨inForce, shares (·.definitions) (files.filter (·.path ≠ path)), shares (·.markers) files, places⟩
    (fun _ _ left => represents.path_ne_of_survivor? rfl left) represents.defined
  obtain ⟨places', places_eq, place⟩ := foldl_dropMarker path
    ((files.filter (·.path = path)).flatMap (·.markers))
    ⟨inForce', shares (·.definitions) (files.filter (·.path ≠ path)),
      shares (·.markers) (files.filter (·.path ≠ path)), places⟩
  have result : IndexEntries.drop path
      ⟨inForce, shares (·.definitions) files, shares (·.markers) files, places⟩ =
      ⟨inForce', shares (·.definitions) (files.filter (·.path ≠ path)),
        shares (·.markers) (files.filter (·.path ≠ path)), places'⟩ := by
    rw [IndexEntries.drop, getD_shares _ represents.distinct, getD_shares _ represents.distinct]
    dsimp only
    rw [erase_shares, definitions_eq, erase_shares, places_eq]
  rw [result]
  refine ⟨?_, ?_, rfl, rfl, fun id => ?_, defined, fun kind id => ?_⟩
  · exact represents.distinct.sublist (List.filter_sublist.map _)
  · exact fun c known => represents.located c (List.mem_of_mem_filter known)
  · refine (definition id).trans ?_
    split
    · rw [survivor?, flatten_shares]
      rfl
    · next kept => exact (represents.lastDefinition?_without kept).symm
  · refine (place (kind, id)).trans ?_
    have before := represents.places kind id
    dsimp only at before ⊢
    rw [before, represents.placesAmong_without, getD_filled?]
    split
    · rfl
    · next kept => rw [represents.placesAmong_kept kept]

theorem addDefinitions_eq (represents : Represents files e) {c : Contribution}
    (fresh : c.path ∉ files.map (·.path)) :
    ∃ inForce, addDefinitions c.path c.definitions e =
        { e with
          definitions := inForce
          definitionsByFile := shares (·.definitions) (files ++ [c]) } ∧
      inForce.keys.Nodup ∧
      ∀ id, inForce.get? id = lastDefinition? id ((files ++ [c]).flatMap (·.definitions)) := by
  refine ⟨(addDefinitions c.path c.definitions e).definitions, ?_, ?_, fun id => ?_⟩
  · unfold addDefinitions
    split
    · next silent =>
      rw [shares_append_silent (·.definitions) files silent, ← represents.definitionsByFile]
    · next speaks =>
      rw [← insert_shares (·.definitions) speaks fresh, ← represents.definitionsByFile]
  · unfold addDefinitions
    split
    · exact represents.defined
    · exact OrderedMap.nodup_keys_insertAll represents.defined _
  · rw [get?_addDefinitions, List.flatMap_append, lastDefinition?_append, represents.definition]
    simp

theorem addMarkers_eq {c : Contribution} (fresh : c.path ∉ files.map (·.path))
    (byFile : e.markersByFile = shares (·.markers) files)
    (held : ∀ kind id,
      e.places.get? (kind, id) = filled? (placesAmong kind id (files.flatMap (·.markers)))) :
    ∃ places, addMarkers c.path c.markers e =
        { e with markersByFile := shares (·.markers) (files ++ [c]), places } ∧
      ∀ kind id, places.get? (kind, id) =
        filled? (placesAmong kind id ((files ++ [c]).flatMap (·.markers))) := by
  unfold addMarkers
  split
  · next silent =>
    refine ⟨e.places, ?_, fun kind id => ?_⟩
    · rw [shares_append_silent (·.markers) files silent, ← byFile]
    · simp [held, silent]
  · next speaks =>
    obtain ⟨places, result, answer⟩ := foldl_addMarker c.markers
      { e with markersByFile := e.markersByFile.insert c.path c.markers }
    refine ⟨places, ?_, fun kind id => ?_⟩
    · rw [result, byFile, insert_shares (·.markers) speaks fresh]
    · rw [answer, List.flatMap_append, placesAmong_append]
      dsimp only
      rw [held, getD_filled?]
      by_cases none : placesAmong kind id c.markers = [] <;> simp [none, filled?]

/-- A file that is not there yet comes behind all others. -/
theorem insert (represents : Represents files e) {c : Contribution} (own : c.Local)
    (fresh : c.path ∉ files.map (·.path)) : Represents (files ++ [c]) (e.insert c) := by
  obtain ⟨inForce, definitions_eq, defined, definition⟩ := represents.addDefinitions_eq fresh
  obtain ⟨places, markers_eq, place⟩ := addMarkers_eq
    (e := { e with
      definitions := inForce
      definitionsByFile := shares (·.definitions) (files ++ [c]) })
    fresh represents.markersByFile represents.places
  unfold IndexEntries.insert
  rw [definitions_eq, markers_eq]
  refine ⟨?_, ?_, rfl, rfl, definition, defined, place⟩
  · rw [List.map_append]
    refine represents.distinct.append (List.nodup_singleton _) ?_
    simpa using fresh
  · intro c' member
    rcases List.mem_append.mp member with known | new
    · exact represents.located c' known
    · rw [List.mem_singleton.mp new]
      exact own

/-- A file that comes anew is behind all others, whether it was there or not. -/
theorem update (represents : Represents files e) {c : Contribution} (own : c.Local) :
    Represents (files.filter (·.path ≠ c.path) ++ [c]) (e.update c) := by
  refine (represents.drop c.path).insert own ?_
  simp

theorem nil : Represents [] {} :=
  ⟨List.nodup_nil, by simp, rfl, rfl, fun _ => rfl, List.nodup_nil, fun _ _ => rfl⟩

theorem insertAll (represents : Represents files e) {cs : List Contribution}
    (own : ∀ c ∈ cs, c.Local) (distinct : ((files ++ cs).map (·.path)).Nodup) :
    Represents (files ++ cs) (cs.foldl (fun e c => e.insert c) e) := by
  induction cs generalizing files e with
  | nil => simpa using represents
  | cons c rest ih =>
    have fresh : c.path ∉ files.map (·.path) := by
      intro known
      rw [List.map_append, List.nodup_append'] at distinct
      exact distinct.2.2 known (by simp)
    have first := represents.insert (own c List.mem_cons_self) fresh
    have moved : files ++ c :: rest = (files ++ [c]) ++ rest := by simp
    rw [moved] at distinct ⊢
    exact ih first (fun c' member => own c' (List.mem_cons_of_mem _ member)) distinct

/-- The index of some files with different paths is the index of their list. -/
theorem ofContributions {cs : List Contribution} (own : ∀ c ∈ cs, c.Local)
    (distinct : (cs.map (·.path)).Nodup) : Represents cs (.ofContributions cs) :=
  nil.insertAll own distinct

end Represents

end IndexEntries

end Traceability
