import Traceability.OrderedMap
import Traceability.Spec.Document

/-!
# Catalogues

The catalogue of a list of documents knows each identifier by its last definition. Identifiers come
in the order of their first definition.
-/
namespace Traceability.Spec

structure Catalogue where
  documents : List Document
  definitions : OrderedMap Text Definition
deriving Inhabited

namespace Catalogue

def ofDocuments (documents : List Document) : Catalogue :=
  ⟨documents, .ofList ((documents.flatMap (·.definitions)).map fun d => (d.id, d))⟩

def ids (c : Catalogue) : List Text := c.definitions.keys

def idsOf (c : Catalogue) (kind : IdKind) : List Text :=
  (c.definitions.values.filter (·.kind = kind)).map (·.id)

def defines (c : Catalogue) (id : Text) : Bool := c.definitions.hasKey id

def definesAs (c : Catalogue) (kind : IdKind) (id : Text) : Bool :=
  (c.definitions.get? id).any (·.kind = kind)

def location? (c : Catalogue) (id : Text) : Option Location :=
  (c.definitions.get? id).map (·.location)

end Catalogue

end Traceability.Spec
