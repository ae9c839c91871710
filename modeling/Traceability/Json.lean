import Traceability.Text.Hex

/-!
# JSON

JSON values and their text: fields in the order of the value, two blanks per level, nothing between
the brackets of an empty list or object, and no escapes but for the quotation mark, the backslash and
control characters.
-/
namespace Traceability

inductive Json where
  | null
  | bool (b : Bool)
  | number (n : Int)
  | text (t : Text)
  | array (items : List Json)
  | object (fields : List (Text × Json))
deriving Repr, Inhabited

namespace Json

def escapedChar (c : Char) : Text :=
  if c = '"' then ['\\', '"']
  else if c = '\\' then ['\\', '\\']
  else if c = '\n' then ['\\', 'n']
  else if c = '\t' then ['\\', 't']
  else if c = '\r' then ['\\', 'r']
  else if c = '\x08' then ['\\', 'b']
  else if c = '\x0c' then ['\\', 'f']
  else if c.toNat < 0x20 then ['\\', 'u'] ++ Text.hexDigits 4 c.toNat
  else [c]

def quote (t : Text) : Text := '"' :: t.flatMap escapedChar ++ ['"']

def newline (level : Nat) : Text := '\n' :: List.replicate (2 * level) ' '

def bracket (opening closing : Char) (level : Nat) (items : List Text) : Text :=
  if items = [] then [opening, closing]
  else
    [opening] ++ newline (level + 1) ++ Text.join (',' :: newline (level + 1)) items ++
      newline level ++ [closing]

mutual

def renderAt (level : Nat) : Json → Text
  | .null => "null"
  | .bool b => if b then "true" else "false"
  | .number n => Text.ofInt n
  | .text t => quote t
  | .array items => bracket '[' ']' level (renderItems (level + 1) items)
  | .object fields => bracket '\x7b' '\x7d' level (renderFields (level + 1) fields)

def renderItems (level : Nat) : List Json → List Text
  | [] => []
  | item :: rest => renderAt level item :: renderItems level rest

def renderFields (level : Nat) : List (Text × Json) → List Text
  | [] => []
  | (name, value) :: rest =>
    (quote name ++ ": " ++ renderAt level value) :: renderFields level rest

end

def render (j : Json) : Text := renderAt 0 j

def ofText? : Option Text → Json
  | some t => .text t
  | none => .null

def objectOf (fields : List (Text × Option Json)) : Json :=
  .object (fields.filterMap fun (name, value) => value.map fun v => (name, v))

example : (array [.number 1, .object []]).render = "[\n  1,\n  \x7b\x7d\n]" := by decide +kernel

end Json

end Traceability
