import Traceability.Proofs.OrderedMap
import Traceability.Proofs.Spec.Document
import Traceability.Spec.Catalogue

/-!
# Definitions in force

Of several definitions of an identifier the last one counts, in a catalogue as in a live index.
-/
namespace Traceability.Spec

/-- The last of some definitions that defines an identifier. -/
def lastDefinition? (id : Text) (definitions : List Definition) : Option Definition :=
  (definitions.filter (·.id = id)).getLast?

variable {id : Text} {definitions : List Definition} {d : Definition}

theorem lastDefinition?_append (id : Text) (before after : List Definition) :
    lastDefinition? id (before ++ after) =
      (lastDefinition? id after).or (lastDefinition? id before) := by
  simp [lastDefinition?, List.getLast?_append]

theorem mem_of_lastDefinition? (last : lastDefinition? id definitions = some d) :
    d ∈ definitions ∧ d.id = id := by
  have member := List.mem_of_getLast? last
  simpa using member

theorem lastDefinition?_eq_none_iff :
    lastDefinition? id definitions = none ↔ ∀ d ∈ definitions, d.id ≠ id := by
  simp [lastDefinition?]

/-- A last definition that a filter keeps is the last one behind the filter. -/
theorem lastDefinition?_filter (keep : Definition → Bool)
    (last : lastDefinition? id definitions = some d) (kept : keep d = true) :
    lastDefinition? id (definitions.filter keep) = some d := by
  obtain ⟨before, split⟩ := List.getLast?_eq_some_iff.mp last
  rw [lastDefinition?, List.filter_filter]
  have swapped : (fun d : Definition => decide (d.id = id) && keep d) =
      fun d => keep d && decide (d.id = id) := by
    funext d
    exact Bool.and_comm _ _
  rw [swapped, ← List.filter_filter, split, List.filter_append]
  simp [kept]

theorem isSome_lastDefinition? :
    (lastDefinition? id definitions).isSome = true ↔ ∃ d ∈ definitions, d.id = id := by
  rw [← Option.ne_none_iff_isSome, ne_eq, lastDefinition?_eq_none_iff]
  simp

/-- Of sources of which only one defines an identifier, that one counts, wherever it stands. -/
theorem lastDefinition?_flatMap {α : Type} {sources : List α} {stated : α → List Definition} {a : α}
    (once : sources.Nodup) (member : a ∈ sources)
    (sole : ∀ b ∈ sources, b ≠ a → ∀ d ∈ stated b, d.id ≠ id) :
    lastDefinition? id (sources.flatMap stated) = lastDefinition? id (stated a) := by
  obtain ⟨before, after, rfl⟩ := List.append_of_mem member
  obtain ⟨absent, _⟩ := List.nodup_middle.mp once |> List.nodup_cons.mp
  have silent : ∀ others : List α, (∀ b ∈ others, b ∈ before ++ after) →
      lastDefinition? id (others.flatMap stated) = none := by
    intro others among
    rw [lastDefinition?_eq_none_iff]
    intro d inside
    obtain ⟨b, other, defined⟩ := List.mem_flatMap.mp inside
    have inBoth := among b other
    refine sole b ?_ ?_ d defined
    · simp only [List.mem_append, List.mem_cons] at inBoth ⊢
      tauto
    · intro same
      subst same
      exact absent inBoth
  rw [List.flatMap_append, List.flatMap_cons, lastDefinition?_append, lastDefinition?_append,
    silent before fun b other => List.mem_append_left _ other,
    silent after fun b other => List.mem_append_right _ other, Option.none_or, Option.or_none]

/-- Definitions that are written one after the other leave the last one of each identifier. -/
theorem getLast?_written (id : Text) (definitions : List Definition) :
    (((definitions.map fun d => (d.id, d)).filter fun e => e.1 = id).getLast?.map (·.2)) =
      lastDefinition? id definitions := by
  simp only [List.filter_map, List.getLast?_map, Option.map_map]
  exact Option.map_id'

namespace Catalogue

variable {documents : List Document}

theorem get?_ofDocuments (documents : List Document) (id : Text) :
    (ofDocuments documents).definitions.get? id =
      lastDefinition? id (documents.flatMap (·.definitions)) := by
  rw [ofDocuments, OrderedMap.get?_ofList, getLast?_written]

theorem mem_of_get?_ofDocuments (found : (ofDocuments documents).definitions.get? id = some d) :
    (∃ document ∈ documents, d ∈ document.definitions) ∧ d.id = id := by
  rw [get?_ofDocuments] at found
  obtain ⟨member, same⟩ := mem_of_lastDefinition? found
  exact ⟨List.mem_flatMap.mp member, same⟩

theorem defines_iff {c : Catalogue} : c.defines id = true ↔ ∃ d, c.definitions.get? id = some d := by
  rw [defines, OrderedMap.hasKey, Option.isSome_iff_exists]

theorem defines_ofDocuments_iff :
    (ofDocuments documents).defines id = true ↔
      ∃ document ∈ documents, ∃ d ∈ document.definitions, d.id = id := by
  rw [defines, OrderedMap.hasKey, get?_ofDocuments, isSome_lastDefinition?]
  simp only [List.mem_flatMap]
  constructor
  · intro defined
    obtain ⟨d, ⟨document, member, inside⟩, same⟩ := defined
    exact ⟨document, member, d, inside, same⟩
  · intro defined
    obtain ⟨document, member, d, inside, same⟩ := defined
    exact ⟨d, ⟨document, member, inside⟩, same⟩

theorem nodup_keys_ofDocuments : (ofDocuments documents).definitions.keys.Nodup :=
  OrderedMap.nodup_keys_ofList _

/-- The identifiers stand in the order of their first definitions. -/
theorem firstSeen_ids : FirstSeen ((documents.flatMap (·.definitions)).map (·.id))
    (ofDocuments documents).ids := by
  have seen := OrderedMap.firstSeen_keys_ofList
    ((documents.flatMap (·.definitions)).map fun d => (d.id, d))
  rwa [List.map_map] at seen

/-- Every definition in force stands under its own identifier. -/
theorem of_mem_entries (member : (id, d) ∈ (ofDocuments documents).definitions.entries) :
    (ofDocuments documents).definitions.get? id = some d ∧ d.id = id := by
  have found := (OrderedMap.mem_entries_iff nodup_keys_ofDocuments).mp member
  exact ⟨found, (mem_of_get?_ofDocuments found).2⟩

theorem map_id_values : (ofDocuments documents).definitions.values.map (·.id) =
    (ofDocuments documents).definitions.keys := by
  rw [OrderedMap.values, OrderedMap.keys, List.map_map]
  exact List.map_congr_left fun _ member => (of_mem_entries member).2

theorem filter_id_eq_singleton {l : List Definition} (once : (l.map (·.id)).Nodup) (member : d ∈ l) :
    l.filter (·.id = d.id) = [d] := by
  induction l with
  | nil => cases member
  | cons x rest ih =>
    obtain ⟨fresh, once⟩ := List.nodup_cons.mp once
    have apart : ∀ y ∈ rest, y.id ≠ x.id := fun y inside same =>
      fresh (List.mem_map.mpr ⟨y, inside, same⟩)
    rcases List.mem_cons.mp member with rfl | later
    · have alone : rest.filter (·.id = d.id) = [] := by
        rw [List.filter_eq_nil_iff]
        intro y inside
        simpa using apart y inside
      rw [List.filter_cons_of_pos (by simp), alone]
    · rw [List.filter_cons_of_neg (by simpa using (apart d later).symm)]
      exact ih once later

/-- Of the definitions in force one has a given identifier. -/
theorem filter_values (found : (ofDocuments documents).definitions.get? id = some d) :
    (ofDocuments documents).definitions.values.filter (·.id = id) = [d] := by
  have same : d.id = id := (mem_of_get?_ofDocuments found).2
  subst same
  apply filter_id_eq_singleton
  · rw [map_id_values]
    exact nodup_keys_ofDocuments
  · exact (OrderedMap.mem_values_iff nodup_keys_ofDocuments).mpr ⟨_, found⟩

theorem definesAs_iff {c : Catalogue} {kind : IdKind} :
    c.definesAs kind id = true ↔ ∃ d, c.definitions.get? id = some d ∧ d.kind = kind := by
  simp only [definesAs, Option.any_eq_true, decide_eq_true_eq]

theorem defines_of_definesAs {c : Catalogue} {kind : IdKind} (defined : c.definesAs kind id = true) :
    c.defines id = true := by
  obtain ⟨d, found, _⟩ := definesAs_iff.mp defined
  exact defines_iff.mpr ⟨d, found⟩

/-- The identifiers of a kind stand in the order of all identifiers. -/
theorem idsOf_eq_filter (kind : IdKind) : (ofDocuments documents).idsOf kind =
    (ofDocuments documents).ids.filter ((ofDocuments documents).definesAs kind) := by
  rw [idsOf, ids, OrderedMap.values, OrderedMap.keys, List.filter_map, List.filter_map, List.map_map]
  have kept : (ofDocuments documents).definitions.entries.filter
        ((fun d : Definition => decide (d.kind = kind)) ∘ Prod.snd) =
      (ofDocuments documents).definitions.entries.filter
        ((ofDocuments documents).definesAs kind ∘ Prod.fst) := by
    refine List.filter_congr fun entry member => ?_
    rw [Function.comp, Function.comp, definesAs, (of_mem_entries member).1]
    rfl
  rw [kept]
  exact List.map_congr_left fun _ member => (of_mem_entries (List.mem_of_mem_filter member)).2

theorem mem_idsOf_iff {kind : IdKind} : id ∈ (ofDocuments documents).idsOf kind ↔
    (ofDocuments documents).definesAs kind id = true := by
  rw [idsOf_eq_filter, List.mem_filter, and_iff_right_iff_imp]
  intro defined
  rw [ids, OrderedMap.mem_keys_iff, ← defines_iff]
  exact defines_of_definesAs defined

/-- What is defined is defined as what its identifier tells. -/
theorem definesAs_iff_kind (parsed : ∀ d ∈ documents, d.Parsed) {kind : IdKind} :
    (ofDocuments documents).definesAs kind id = true ↔
      (ofDocuments documents).defines id = true ∧ Identifier.kind id = kind := by
  have told {d : Definition} (found : (ofDocuments documents).definitions.get? id = some d) :
      Identifier.kind id = d.kind := by
    obtain ⟨⟨document, member, inside⟩, rfl⟩ := mem_of_get?_ofDocuments found
    exact (parsed document member).kind_eq inside
  rw [definesAs_iff, defines_iff]
  constructor
  · rintro ⟨d, found, rfl⟩
    exact ⟨⟨d, found⟩, told found⟩
  · rintro ⟨⟨d, found⟩, rfl⟩
    exact ⟨d, found, (told found).symm⟩

theorem mem_idsOf_iff_kind (parsed : ∀ d ∈ documents, d.Parsed) {kind : IdKind} :
    id ∈ (ofDocuments documents).idsOf kind ↔
      (ofDocuments documents).defines id = true ∧ Identifier.kind id = kind :=
  mem_idsOf_iff.trans (definesAs_iff_kind parsed)

end Catalogue

end Traceability.Spec
