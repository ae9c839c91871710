import Traceability.Text.Hex
import Traceability.Text.Quoted

/-!
# Hosts

The host of a URI. What stands in brackets is an address of version 6, or behind a letter one of a
version to come. No character of a host may come down to one that separates the parts of a URI.
-/
namespace Traceability.Uri

inductive HostFault where
  | unpairedBracket
  | futureAddress
  | version4
  | noAddress (t : Text)
  | separator (host : Text)
deriving DecidableEq, Repr

def HostFault.message : HostFault → Text
  | .unpairedBracket => "Invalid IPv6 URL"
  | .futureAddress => "IPvFuture address is invalid"
  | .version4 => "An IPv4 address cannot be in brackets"
  | .noAddress t => Text.quoted t ++ " does not appear to be an IPv4 or IPv6 address"
  | .separator host =>
    "netloc '" ++ host ++ "' contains invalid characters under NFKC normalization"

def isOctet (t : Text) : Bool :=
  t ≠ [] && t.all Char.isDigit && t.length ≤ 3 && (t = ['0'] || t.head? ≠ some '0') &&
    Text.numberIn 10 t ≤ 255

def isVersion4 (t : Text) : Bool :=
  let numbers := Text.splitOn '.' t
  numbers.length = 4 && numbers.all isOctet

def isGroup (t : Text) : Bool := t ≠ [] && t.length ≤ 4 && t.all Text.isHex

/-- The number of groups between colons; an address of version 4 at the very end counts for two. -/
def groupCount? (mayEndInVersion4 : Bool) : List Text → Option Nat
  | [] => some 0
  | t :: rest =>
    if isGroup t then (groupCount? mayEndInVersion4 rest).map (· + 1)
    else if mayEndInVersion4 && rest = [] && isVersion4 t then some 2
    else none

def pieces (t : Text) : List Text := if t = [] then [] else Text.splitOn ':' t

def hasGroups (t : Text) : Bool :=
  match Text.cut? "::" t with
  | none => groupCount? true (pieces t) = some 8
  | some (high, low) =>
    match groupCount? false (pieces high), groupCount? true (pieces low) with
    | some m, some n => m + n < 8
    | _, _ => false

def isVersion6 (t : Text) : Bool :=
  match Text.cut? "%" t with
  | none => hasGroups t
  | some (address, scope) => hasGroups address && scope ≠ [] && !scope.contains '%'

def isFutureAddress (t : Text) : Bool :=
  match (t.drop 1).dropWhile Text.isHex with
  | '.' :: _ :: _ => ((t.drop 1).takeWhile Text.isHex) ≠ []
  | _ => false

def addressFault? (t : Text) : Option HostFault :=
  if t.head? = some 'v' then if isFutureAddress t then none else some .futureAddress
  else if isVersion4 t then some .version4
  else if isVersion6 t then none
  else some (.noAddress t)

/-- The characters that come down to separators, or to a text with one. -/
def separatorForms : List Nat :=
  [0x2047, 0x2048, 0x2049, 0x2100, 0x2101, 0x2105, 0x2106, 0x2A74, 0xFE13, 0xFE16, 0xFE55, 0xFE56,
   0xFE5F, 0xFE6B, 0xFF03, 0xFF0F, 0xFF1A, 0xFF1F, 0xFF20]

def bracketed (host : Text) : Text := ((host.dropWhile (· ≠ '[')).drop 1).takeWhile (· ≠ ']')

def hostFault? (host : Text) : Option HostFault :=
  let ofAddress :=
    if host.contains '[' != host.contains ']' then some .unpairedBracket
    else if host.contains '[' then addressFault? (bracketed host)
    else none
  ofAddress.or <|
    if host.any fun c => separatorForms.contains c.toNat then some (.separator host) else none

example : isVersion6 "::ffff:1.2.3.4%eth0" ∧ isVersion6 "1:2:3:4:5:6:7:8" := by decide +kernel
example : isVersion6 "1:::2" = false ∧ isVersion6 "1:2:3:4:5:6:7" = false := by decide +kernel
example : hostFault? "[::1" = some .unpairedBracket := by decide +kernel

end Traceability.Uri
