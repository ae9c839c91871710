import Traceability.Text.Hex
import Traceability.Text.Printable
import Traceability.Text.Utf8

/-!
# Quoted text

A text between quotation marks on one line. Single quotes are used unless the text holds one and no
double quote. The backslash, the quotation mark and every character that cannot be shown are escaped.
-/
namespace Traceability.Text

def quotedChar (quote c : Char) : Text :=
  if c = quote || c = '\\' then ['\\', c]
  else if c = '\t' then "\\t"
  else if c = '\n' then "\\n"
  else if c = '\r' then "\\r"
  else if isPrintable c then [c]
  else if c.toNat < 0x100 then "\\x" ++ hexDigits 2 c.toNat
  else if c.toNat < 0x10000 then "\\u" ++ hexDigits 4 c.toNat
  else "\\U" ++ hexDigits 8 c.toNat

def quoted (t : Text) : Text :=
  let quote := if t.elem '\'' && !t.elem '"' then '"' else '\''
  quote :: t.flatMap (quotedChar quote) ++ [quote]

example : quoted "a'b" = "\"a'b\"" := by decide +kernel
example : quoted "\"'\n\\" = "'\"\\'\\n\\\\'" := by decide +kernel

end Traceability.Text
