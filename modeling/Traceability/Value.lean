import Traceability.Text.Basic

/-!
# Values

The values that configuration and rule files hold, whatever their notation. Only entries under a text
are kept in a table, and of two entries under one text the last. The exact value of a real number or
of a moment decides nothing here, so these keep the text that was read.
-/
namespace Traceability

inductive Value where
  | null
  | bool (b : Bool)
  | int (n : Int)
  | real (literal : Text)
  | moment (literal : Text)
  | text (t : Text)
  | list (items : List Value)
  | table (entries : List (Text × Value))
deriving Repr, Inhabited

namespace Value

def field? (entries : List (Text × Value)) (name : Text) : Option Value := entries.lookup name

def field (entries : List (Text × Value)) (name : Text) : Value := (field? entries name).getD .null

def text? : Value → Option Text
  | .text t => some t
  | _ => none

def texts? : List Value → Option (List Text)
  | [] => some []
  | v :: rest => do pure ((← v.text?) :: (← texts? rest))

end Value

end Traceability
