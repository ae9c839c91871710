import Traceability.Moment
import Traceability.Text.Case
import Traceability.Text.Hex
import Traceability.Text.Lexeme
import Traceability.Value
import Traceability.Yaml.Basic

/-!
# Scalars of YAML

What a plain scalar is taken for, and the values of scalars. Underscores in numbers say nothing; a
whole number may be binary, octal, hexadecimal, or in base sixty with colons between its digits.
-/
namespace Traceability.Yaml

inductive ScalarKind where
  | null
  | bool
  | int
  | real
  | moment
  | merge
  | default
  | text
deriving DecidableEq, Repr

namespace Scalar

def nullWords : List Text := ["", "~", "null", "Null", "NULL"]

def yesWords : List Text :=
  ["yes", "Yes", "YES", "true", "True", "TRUE", "on", "On", "ON"]

def noWords : List Text :=
  ["no", "No", "NO", "false", "False", "FALSE", "off", "Off", "OFF"]

def sign : Lexeme := Lexeme.char fun c => c = '+' || c = '-'

def isDigitOrGap (c : Char) : Bool := c.isDigit || c = '_'

def isLeadDigit (c : Char) : Bool := '1' ≤ c && c ≤ '9'

def digits : Lexeme := (Lexeme.char Char.isDigit).andThen (Lexeme.chars isDigitOrGap)

/-- A colon and a digit of base sixty: one decimal digit, or two up to fifty-nine. -/
def sixtieth : Lexeme := (Lexeme.word ":").andThen fun t =>
  let read := t.takeWhile Char.isDigit
  if read.length = 1 || (read.length = 2 && read.head?.all (· ≤ '5')) then
    some (read, t.dropWhile Char.isDigit)
  else none

def sixtiethsFrom : (fuel : Nat) → Text → Text × Text
  | 0, t => ([], t)
  | fuel + 1, t =>
    match sixtieth t with
    | none => ([], t)
    | some (read, rest) =>
      let (more, rest) := sixtiethsFrom fuel rest
      (read ++ more, rest)

def sixtieths : Lexeme := sixtieth.andThen fun t => some (sixtiethsFrom t.length t)

def exponent : Lexeme :=
  ((Lexeme.char fun c => c = 'e' || c = 'E').andThen sign).andThen (Lexeme.run Char.isDigit)

def fraction : Lexeme := (Lexeme.word ".").andThen (Lexeme.chars isDigitOrGap)

def realForms : List Lexeme :=
  [sign.optional.andThen (digits.andThen (fraction.andThen exponent.optional)),
    (Lexeme.word ".").andThen (digits.andThen exponent.optional),
    sign.optional.andThen (digits.andThen (sixtieths.andThen fraction)),
    sign.optional.andThen
      ((Lexeme.word ".inf").orElse ((Lexeme.word ".Inf").orElse (Lexeme.word ".INF"))),
    (Lexeme.word ".nan").orElse ((Lexeme.word ".NaN").orElse (Lexeme.word ".NAN"))]

def intForms : List Lexeme :=
  [sign.optional.andThen ((Lexeme.word "0b").andThen
      (Lexeme.run fun c => c = '0' || c = '1' || c = '_')),
    sign.optional.andThen ((Lexeme.word "0").andThen
      (Lexeme.run fun c => ('0' ≤ c && c ≤ '7') || c = '_')),
    sign.optional.andThen (Lexeme.word "0"),
    sign.optional.andThen ((Lexeme.char isLeadDigit).andThen (Lexeme.chars isDigitOrGap)),
    sign.optional.andThen ((Lexeme.word "0x").andThen
      (Lexeme.run fun c => Text.isHex c || c = '_')),
    sign.optional.andThen ((Lexeme.char isLeadDigit).andThen
      ((Lexeme.chars isDigitOrGap).andThen sixtieths))]

def hasForm (forms : List Lexeme) (t : Text) : Bool := forms.any fun form => form.all t

def numberIn? (base : Nat) (t : Text) : Option Nat :=
  if t.all fun c => Text.isHex c && Text.hexValue c < base then some (Text.numberIn base t)
  else none

def sexagesimal? (t : Text) : Option Nat :=
  (Text.splitOn ':' t).foldlM (fun n digits => (numberIn? 10 digits).map (60 * n + ·)) 0

/-- The number that a form without sign and underscores spells; a mark for a base needs a digit behind
it. -/
def magnitude (t : Text) : Reading Nat :=
  let orMalformed (n? : Option Nat) : Reading Nat := n?.elim malformed .ok
  match t with
  | ['0', 'b'] => .error (.noDigits 2)
  | ['0', 'x'] => .error (.noDigits 16)
  | '0' :: 'b' :: ds => orMalformed (numberIn? 2 ds)
  | '0' :: 'x' :: ds => orMalformed (numberIn? 16 ds)
  | '0' :: ds => orMalformed (numberIn? 8 ds)
  | ds => orMalformed (sexagesimal? ds)

def int (t : Text) : Reading Int :=
  match t.filter (· ≠ '_') with
  | '-' :: t => (magnitude t).map fun n => -(n : Int)
  | '+' :: t => (magnitude t).map Int.ofNat
  | t => (magnitude t).map Int.ofNat

/-! ## Moments -/

structure TimeText where
  hour : Nat
  minute : Nat
  second : Nat
  offset : Option Int
deriving DecidableEq, Repr

structure MomentText where
  year : Nat
  month : Nat
  day : Nat
  isPadded : Bool
  time : Option TimeText
deriving DecidableEq, Repr

def shortNumber? (t : Text) : Option (Nat × Text) :=
  let read := (t.take 2).takeWhile Char.isDigit
  if read = [] then none else some (Text.numberIn 10 read, t.drop read.length)

def fullNumber? (t : Text) : Option (Nat × Text) :=
  let read := (t.take 2).takeWhile Char.isDigit
  if read.length = 2 then some (Text.numberIn 10 read, t.drop 2) else none

def offset? (t : Text) : Option (Option Int) :=
  match t.dropWhile isSpace with
  | [] => if t = [] then some none else none
  | ['Z'] => some (some 0)
  | c :: rest =>
    if c = '+' || c = '-' then do
      let (hours, rest) ← shortNumber? rest
      let minutes ← match rest with
        | [] => some 0
        | ':' :: rest => (fullNumber? rest).bind fun (n, rest) => if rest = [] then some n else none
        | _ => none
      let seconds : Int := (hours * 60 + minutes) * 60
      pure (some (if c = '-' then -seconds else seconds))
    else none

def time? (t : Text) : Option TimeText := do
  let (hour, t) ← shortNumber? t
  let (minute, t) ← fullNumber? (← Text.dropStem? ":" t)
  let (second, t) ← fullNumber? (← Text.dropStem? ":" t)
  let t := match t with
    | '.' :: t => t.dropWhile Char.isDigit
    | t => t
  pure ⟨hour, minute, second, ← offset? t⟩

def skipDateMark? : Text → Option Text
  | c :: t =>
    if c = 'T' || c = 't' then some t
    else if isSpace c then some (t.dropWhile isSpace)
    else none
  | [] => none

def moment? (t : Text) : Option MomentText := do
  let (century, t) ← fullNumber? t
  let (decade, t) ← fullNumber? t
  let t ← Text.dropStem? "-" t
  let (month, afterMonth) ← shortNumber? t
  let t' ← Text.dropStem? "-" afterMonth
  let (day, afterDay) ← shortNumber? t'
  let isPadded := t.length = afterMonth.length + 2 && t'.length = afterDay.length + 2
  let time ← if afterDay = [] then some none
    else ((skipDateMark? afterDay).bind time?).map some
  pure ⟨100 * century + decade, month, day, isPadded, time⟩

/-- Whether a text has the form of a moment; a date alone is padded. -/
def isMoment (t : Text) : Bool := (moment? t).any fun m => m.isPadded || m.time.isSome

def momentFault? (m : MomentText) : Option MomentFault :=
  match m.time with
  | none => Moment.dateFault? m.year m.month m.day
  | some time =>
    (time.offset.bind Moment.offsetFault?).or
      ((Moment.dateFault? m.year m.month m.day).or
        (Moment.timeFault? time.hour time.minute time.second))

/-! ## Kinds and values -/

def kind (t : Text) : ScalarKind :=
  if t ∈ yesWords || t ∈ noWords then .bool
  else if hasForm realForms t then .real
  else if hasForm intForms t then .int
  else if t = "<<" then .merge
  else if t ∈ nullWords then .null
  else if isMoment t then .moment
  else if t = "=" then .default
  else .text

def value (kind : ScalarKind) (t : Text) : Reading Value :=
  match kind with
  | .null => .ok .null
  | .bool =>
    let word := Text.lowerAscii t
    if word ∈ yesWords then .ok (.bool true)
    else if word ∈ noWords then .ok (.bool false)
    else malformed
  | .int => (int t).map .int
  | .real => .ok (.real t)
  | .moment =>
    match moment? t with
    | none => malformed
    | some m => (momentFault? m).elim (.ok (.moment t)) fun fault => .error (.moment fault)
  | .merge => malformed
  | .default => malformed
  | .text => .ok (.text t)

example : kind "010" = .int ∧ kind "1e3" = .text ∧ kind "1.e+3" = .real ∧ kind "y" = .text := by
  decide +kernel
example : kind "2024-1-1" = .text ∧ kind "2024-01-01" = .moment := by decide +kernel

end Scalar

end Traceability.Yaml
