import Traceability.Path
import Traceability.Text.Case
import Traceability.Text.Hex
import Traceability.Text.Utf8
import Traceability.Text.Word
import Traceability.Uri.Host

/-!
# File URIs

A path as a URI and back. In a URI every byte of a path stands for itself or behind a percent sign;
what is no file URI is taken for a path as it is.
-/
namespace Traceability.Uri

def hexDigit (n : Nat) : Char := (Nat.digitChar n).toUpper

def isUnreserved (c : Char) : Bool := Text.isAsciiAlnum c || c ∈ ['_', '.', '-', '~', '/']

def encodeByte (b : UInt8) : Text :=
  let c := Char.ofNat b.toNat
  if isUnreserved c then [c] else ['%', hexDigit (b.toNat / 16), hexDigit (b.toNat % 16)]

def encode (t : Text) : Text := (Text.Utf8.encode t).flatMap encodeByte

/-- The bytes of ASCII characters, escapes replaced by what they stand for; a percent sign without two
digits stands for itself. -/
def bytesOf : Text → List UInt8
  | [] => []
  | '%' :: a :: b :: t =>
    if Text.isHex a && Text.isHex b then
      UInt8.ofNat (16 * Text.hexValue a + Text.hexValue b) :: bytesOf t
    else UInt8.ofNat '%'.toNat :: bytesOf (a :: b :: t)
  | c :: t => UInt8.ofNat c.toNat :: bytesOf t

def isAscii (c : Char) : Bool := c.toNat < 128

/-- A text with the escapes in it replaced, one stretch of ASCII characters after the other; `run`
holds the characters of the present stretch, latest first. -/
def decodeFrom (run : Text) : Text → Text
  | [] => Text.Utf8.decodeLossy (bytesOf run.reverse)
  | c :: t =>
    if isAscii c then decodeFrom (c :: run) t
    else Text.Utf8.decodeLossy (bytesOf run.reverse) ++ c :: decodeFrom [] t

def decode (t : Text) : Text := decodeFrom [] t

def ofPath (path : Text) : Text :=
  let p := Path.ofText path
  if p.isAbsolute then "file://" ++ encode p.toText else path

def clean (uri : Text) : Text :=
  (uri.dropWhile fun c => c.toNat ≤ 32).filter fun c => c ≠ '\t' && c ≠ '\r' && c ≠ '\n'

def isSchemeChar (c : Char) : Bool := Text.isAsciiAlnum c || c = '+' || c = '-' || c = '.'

def endsHost (c : Char) : Bool := c = '/' || c = '?' || c = '#'

def splitHost : Text → Text × Text
  | '/' :: '/' :: t => (t.takeWhile fun c => !endsHost c, t.dropWhile fun c => !endsHost c)
  | t => ([], t)

/-- A scheme and what follows it; a text without a scheme has an empty one. A scheme starts with a
letter. -/
def splitScheme (uri : Text) : Text × Text :=
  match uri.dropWhile isSchemeChar with
  | ':' :: rest =>
    if uri.head?.any fun c => Text.isAsciiAlnum c && !c.isDigit then
      (Text.lowerAscii (uri.takeWhile isSchemeChar), rest)
    else ([], uri)
  | _ => ([], uri)

def withoutQuery (t : Text) : Text := t.takeWhile fun c => c ≠ '#' && c ≠ '?'

def toPath (uri : Text) : Except HostFault Path :=
  let (scheme, rest) := splitScheme (clean uri)
  let (host, rest) := splitHost rest
  match hostFault? host with
  | some fault => .error fault
  | none => .ok (.ofText (if scheme = "file" then decode (withoutQuery rest) else uri))

example : ofPath "/a b/é" = "file:///a%20b/%C3%A9".toList := by decide +kernel
example : (toPath "FILE://host/a%20b%zz?q#f").toOption.map Path.toText = some "/a b%zz".toList := by
  decide +kernel

end Traceability.Uri
