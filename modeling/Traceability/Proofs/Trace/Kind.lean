import Mathlib.Data.List.Perm.Basic
import Traceability.Proofs.Spec.Catalogue
import Traceability.Proofs.Trace.Resolve

/-!
# Kinds of identifiers

A line defines an identifier as what its shape tells. So all definitions of an identifier are of one
kind, a catalogue sorts its identifiers in the same way whatever the order of the documents, and an
identifier is traced as what it is defined as.
-/
namespace Traceability

open Spec

namespace Spec.Catalogue

variable {documents documents' : List Document} {id : Text} {k k' : IdKind} {d d' : Definition}

/-- Whether a definition is one of those in a list of documents. -/
def States (documents : List Document) (d : Definition) : Prop :=
  ∃ document ∈ documents, d ∈ document.definitions

theorem States.kind_eq (parsed : ∀ d ∈ documents, d.Parsed) (stated : States documents d) :
    Identifier.kind d.id = d.kind := by
  obtain ⟨document, member, inside⟩ := stated
  exact (parsed document member).kind_eq inside

/-- All definitions of an identifier are of one kind. -/
theorem kind_eq_of_id_eq (parsed : ∀ d ∈ documents, d.Parsed) (stated : States documents d)
    (stated' : States documents d') (same : d.id = d'.id) : d.kind = d'.kind := by
  rw [← stated.kind_eq parsed, ← stated'.kind_eq parsed, same]

theorem mem_ids_iff : id ∈ (ofDocuments documents).ids ↔ ∃ d, States documents d ∧ d.id = id := by
  rw [ids, OrderedMap.mem_keys_iff, ← defines_iff, defines_ofDocuments_iff]
  constructor
  · rintro ⟨document, member, d, inside, same⟩
    exact ⟨d, ⟨document, member, inside⟩, same⟩
  · rintro ⟨d, ⟨document, member, inside⟩, same⟩
    exact ⟨document, member, d, inside, same⟩

theorem mem_idsOf_iff_ids (parsed : ∀ d ∈ documents, d.Parsed) :
    id ∈ (ofDocuments documents).idsOf k ↔
      id ∈ (ofDocuments documents).ids ∧ Identifier.kind id = k := by
  rw [mem_idsOf_iff_kind parsed, ids, OrderedMap.mem_keys_iff, ← defines_iff]

theorem disjoint_idsOf (parsed : ∀ d ∈ documents, d.Parsed) (other : k ≠ k') :
    List.Disjoint ((ofDocuments documents).idsOf k) ((ofDocuments documents).idsOf k') := by
  intro id member member'
  obtain ⟨_, rfl⟩ := (mem_idsOf_iff_ids parsed).mp member
  exact other ((mem_idsOf_iff_ids parsed).mp member').2

theorem mem_ids_iff_idsOf (parsed : ∀ d ∈ documents, d.Parsed) :
    id ∈ (ofDocuments documents).ids ↔ ∃ k, id ∈ (ofDocuments documents).idsOf k := by
  simp only [mem_idsOf_iff_ids parsed, exists_and_left, exists_eq', and_true]

/-- The order of the documents does not matter for what an identifier is sorted under. -/
theorem mem_idsOf_perm (parsed : ∀ d ∈ documents, d.Parsed) (perm : documents'.Perm documents) :
    id ∈ (ofDocuments documents').idsOf k ↔ id ∈ (ofDocuments documents).idsOf k := by
  have parsed' : ∀ d ∈ documents', d.Parsed := fun d member => parsed d (perm.subset member)
  have stated {d : Definition} : States documents' d ↔ States documents d :=
    exists_congr fun document => and_congr_left' perm.mem_iff
  simp only [mem_idsOf_iff_ids parsed, mem_idsOf_iff_ids parsed', mem_ids_iff, stated]

end Spec.Catalogue

namespace TraceChain

variable {i : TraceIndex} {o : TraceOptions} {id : Text} {k : IdKind}

/-- How what is of a kind is traced. -/
def traversal (i : TraceIndex) (o : TraceOptions) : IdKind → Text → TraceChain
  | .requirement => fromRequirement i o
  | .criterion => fromCriterion i o
  | .property => fromProperty i o
  | .component => fromComponent i o

theorem resolve_of_kind (told : Identifier.kind id = k) :
    resolve i o id = restrict o (traversal i o k id) := by
  rw [resolve, told]
  cases k <;> rfl

end TraceChain

namespace Spec.Catalogue

open TraceChain (resolve restrict traversal)

variable {documents : List Document}

/-- What an identifier is defined as is what its shape tells, and by that the catalogue sorts it and a
trace follows it. -/
theorem kinds_agree (parsed : ∀ d ∈ documents, d.Parsed) :
    (∀ line d, Declaration.ofLine? line = some d → Identifier.kind d.id = d.kind) ∧
    (∀ d d', States documents d → States documents d' → d.id = d'.id → d.kind = d'.kind) ∧
    (∀ k k', k ≠ k' →
      List.Disjoint ((ofDocuments documents).idsOf k) ((ofDocuments documents).idsOf k')) ∧
    (∀ id, id ∈ (ofDocuments documents).ids ↔ ∃ k, id ∈ (ofDocuments documents).idsOf k) ∧
    (∀ documents' : List Document, documents'.Perm documents → ∀ k id,
      id ∈ (ofDocuments documents').idsOf k ↔ id ∈ (ofDocuments documents).idsOf k) ∧
    (∀ id, id ∈ (ofDocuments documents).ids ↔ ∃ d, States documents d ∧ d.id = id) ∧
    ∀ d, States documents d → ∀ markers o,
      resolve (.build (.ofDocuments documents) markers) o d.id =
        restrict o (traversal (.build (.ofDocuments documents) markers) o d.kind d.id) :=
  ⟨fun _ _ found => (Declaration.lexical_of_ofLine? found).kind_eq,
    fun _ _ stated stated' => kind_eq_of_id_eq parsed stated stated',
    fun _ _ => disjoint_idsOf parsed, fun _ => mem_ids_iff_idsOf parsed,
    fun _ perm _ _ => mem_idsOf_perm parsed perm, fun _ => mem_ids_iff,
    fun _ stated _ _ => TraceChain.resolve_of_kind (stated.kind_eq parsed)⟩

/-- Two documents that define one requirement, and things of each other kind. -/
def sharingSpecs : List Document :=
  [.read ["IMPLEMENTS:"] "a.md" "### X-1: Reading\n- X-1_AC-1 Reads\n- X_P-1 Holds",
    .read ["IMPLEMENTS:"] "b.md" "### X-Loader\nIMPLEMENTS: X-1_AC-1\n### X-1: Loading"]

theorem kinds_agree_sharing : (∀ d ∈ sharingSpecs, d.Parsed) ∧
    (("X-1" : Text) ∈ (ofDocuments sharingSpecs.reverse).idsOf .requirement ↔
      ("X-1" : Text) ∈ (ofDocuments sharingSpecs).idsOf .requirement) ∧
    (ofDocuments sharingSpecs).idsOf .requirement = ["X-1"] ∧
    ∀ markers o, resolve (.build (.ofDocuments sharingSpecs) markers) o "X-Loader" =
      restrict o
        (TraceChain.fromComponent (.build (.ofDocuments sharingSpecs) markers) o "X-Loader") := by
  have parsed : ∀ d ∈ sharingSpecs, d.Parsed := by
    simp only [sharingSpecs, List.forall_mem_cons, Document.parsed_read, true_and]
    exact List.forall_mem_nil _
  obtain ⟨_, _, _, _, order, _, traced⟩ := kinds_agree parsed
  have stated : States sharingSpecs ⟨"X-Loader", .component, "X-Loader", ⟨"b.md", 1⟩⟩ :=
    ⟨_, List.mem_cons_of_mem _ List.mem_cons_self, by decide +kernel⟩
  exact ⟨parsed, order _ (List.reverse_perm sharingSpecs) .requirement "X-1", by decide +kernel,
    traced _ stated⟩

end Spec.Catalogue

end Traceability
