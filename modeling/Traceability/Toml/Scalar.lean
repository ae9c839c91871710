import Traceability.Moment
import Traceability.Text.Hex
import Traceability.Text.Lexeme
import Traceability.Value

/-!
# Scalars of TOML

Texts in quotes, numbers and moments. A reader answers what it reads and the rest of the text, and
nothing if the text is malformed there. Line breaks are line feeds.
-/
namespace Traceability.Toml

abbrev Reader (α : Type) := Text → Option (α × Text)

def isControl (c : Char) : Bool := (c.toNat < 32 && c ≠ '\t') || c.toNat = 127

def isLongControl (c : Char) : Bool := isControl c && c ≠ '\n'

def isSpace (c : Char) : Bool := c = ' ' || c = '\t'

def isGap (c : Char) : Bool := isSpace c || c = '\n'

def skipSpaces (t : Text) : Text := t.dropWhile isSpace

/-! ## Texts -/

def escaped? : Char → Option Char
  | 'b' => some '\x08'
  | 't' => some '\t'
  | 'n' => some '\n'
  | 'f' => some '\x0c'
  | 'r' => some '\r'
  | '"' => some '"'
  | '\\' => some '\\'
  | _ => none

/-- Where a reader is behind a backslash that ends a line: not behind one, on its line, or on a
later one. -/
inductive LineJoin where
  | absent
  | before
  | behind
deriving DecidableEq, Repr

def push (c : Char) (r : Option (Text × Text)) : Option (Text × Text) :=
  r.map fun (read, rest) => (c :: read, rest)

/-- The inside of a text in double quotes, up to the closing ones. A backslash at the end of a line
takes all gaps behind it away. -/
def basicBody (long : Bool) : LineJoin → Reader Text
  | _, [] => none
  | .before, c :: t =>
    if isSpace c then basicBody long .before t
    else if c = '\n' then basicBody long .behind t
    else none
  | join, c :: t =>
    if join = .behind && isGap c then basicBody long .behind t
    else if c = '"' then
      if long then
        match t with
        | '"' :: '"' :: rest => some ([], rest)
        | _ => push c (basicBody long .absent t)
      else some ([], t)
    else if c = '\\' then
      match t with
      | 'u' :: a :: b :: c :: d :: rest =>
        (Text.hexChar? [a, b, c, d]).bind fun x => push x (basicBody long .absent rest)
      | 'U' :: a :: b :: c :: d :: e :: f :: g :: h :: rest =>
        (Text.hexChar? [a, b, c, d, e, f, g, h]).bind fun x => push x (basicBody long .absent rest)
      | e :: rest =>
        if long && e = '\n' then basicBody long .behind rest
        else if long && isSpace e then basicBody long .before rest
        else (escaped? e).bind fun x => push x (basicBody long .absent rest)
      | [] => none
    else if if long then isLongControl c else isControl c then none
    else push c (basicBody long .absent t)

/-- The inside of a text that ends at the first `closing` and holds no forbidden character. -/
def literalBody (closing : Text) (isForbidden : Char → Bool) : Reader Text := fun t =>
  match Text.cut? closing t with
  | some (body, rest) => if body.any isForbidden then none else some (body, rest)
  | none => none

/-- Up to two further quotes right behind a long text, which belong to it. -/
def withExtraQuotes (quote : Char) : Text × Text → Text × Text
  | (body, rest) =>
    let extra := (rest.take 2).takeWhile (· = quote)
    (body ++ extra, rest.drop extra.length)

def shortText : Reader Text
  | '"' :: t => basicBody false .absent t
  | '\'' :: t => literalBody ['\''] isControl t
  | _ => none

def longBody (t : Text) : Text :=
  match t with
  | '\n' :: t => t
  | t => t

def text : Reader Text
  | '"' :: '"' :: '"' :: t => (basicBody true .absent (longBody t)).map (withExtraQuotes '"')
  | '\'' :: '\'' :: '\'' :: t =>
    (literalBody "'''" isLongControl (longBody t)).map (withExtraQuotes '\'')
  | t => shortText t

/-! ## Numbers -/

def digitsFrom (p : Char → Bool) : Text → Text × Text
  | [] => ([], [])
  | '_' :: c :: t =>
    if p c then
      let (read, rest) := digitsFrom p t
      ('_' :: c :: read, rest)
    else ([], '_' :: c :: t)
  | c :: t =>
    if p c then
      let (read, rest) := digitsFrom p t
      (c :: read, rest)
    else ([], c :: t)

def digits (p : Char → Bool) : Lexeme := (Lexeme.char p).andThen fun t => some (digitsFrom p t)

def valueIn (base : Nat) (t : Text) : Nat := Text.numberIn base (t.filter (· ≠ '_'))

def basedNumber (mark : Text) (base : Nat) (p : Char → Bool) : Reader Value := fun t =>
  match Text.dropStem? mark t with
  | some t => (digits p t).map fun (read, rest) => (.int (valueIn base read), rest)
  | none => none

def sign : Lexeme := Lexeme.char fun c => c = '+' || c = '-'

def decimal : Lexeme :=
  (Lexeme.word "0").orElse ((Lexeme.char fun c => '1' ≤ c && c ≤ '9').andThen
    fun t => some (digitsFrom Char.isDigit t))

def fraction : Lexeme := (Lexeme.word ".").andThen (digits Char.isDigit)

def exponent : Lexeme :=
  ((Lexeme.char fun c => c = 'e' || c = 'E').andThen sign.optional).andThen (digits Char.isDigit)

def decimalNumber : Reader Value := fun t => do
  let (s, t) ← sign.optional t
  let (whole, t) ← decimal t
  let (part, t) ← (fraction.optional.andThen exponent.optional) t
  let n : Int := valueIn 10 whole
  pure (if part = [] then .int (if s = ['-'] then -n else n) else .real (s ++ whole ++ part), t)

def specialNumber : Reader Value := fun t =>
  (sign.optional.andThen ((Lexeme.word "inf").orElse (Lexeme.word "nan")) t).map
    fun (read, rest) => (.real read, rest)

def isBit (c : Char) : Bool := c = '0' || c = '1'

def isOctal (c : Char) : Bool := '0' ≤ c && c ≤ '7'

def number : Reader Value := fun t =>
  basedNumber "0x" 16 Text.isHex t <|> basedNumber "0b" 2 isBit t <|>
    basedNumber "0o" 8 isOctal t <|> decimalNumber t <|> specialNumber t

/-! ## Moments -/

def pair (least most : Nat) : Lexeme
  | a :: b :: t =>
    let n := Text.numberIn 10 [a, b]
    if a.isDigit && b.isDigit && least ≤ n && n ≤ most then some ([a, b], t) else none
  | _ => none

def timeOfDay : Lexeme :=
  (pair 0 23).andThen <| (Lexeme.word ":").andThen <| (pair 0 59).andThen <|
    (Lexeme.word ":").andThen <| (pair 0 59).andThen <|
      ((Lexeme.word ".").andThen (Lexeme.run Char.isDigit)).optional

def offset : Lexeme :=
  (Lexeme.char fun c => c = 'Z' || c = 'z').orElse <|
    sign.andThen <| (pair 0 23).andThen <| (Lexeme.word ":").andThen (pair 0 59)

def timeOfDate : Lexeme :=
  (Lexeme.char fun c => c = 'T' || c = 't' || c = ' ').andThen (timeOfDay.andThen offset.optional)

def dated : Reader Value := fun t => do
  let (century, t) ← pair 0 99 t
  let (decade, t) ← pair 0 99 t
  let (_, t) ← Lexeme.word "-" t
  let (month, t) ← pair 1 12 t
  let (_, t) ← Lexeme.word "-" t
  let (day, t) ← pair 1 31 t
  let (time, t) ← timeOfDate.optional t
  let number := Text.numberIn 10
  if (Moment.dateFault? (number (century ++ decade)) (number month) (number day)).isSome then none
  else pure (.moment (century ++ decade ++ "-" ++ month ++ "-" ++ day ++ time), t)

def undated : Reader Value := fun t =>
  (timeOfDay t).map fun (read, rest) => (.moment read, rest)

def truth : Reader Value := fun t =>
  match Text.dropStem? "true" t, Text.dropStem? "false" t with
  | some rest, _ => some (.bool true, rest)
  | _, some rest => some (.bool false, rest)
  | none, none => none

def scalar : Reader Value := fun t =>
  ((text t).map fun (read, rest) => (.text read, rest)) <|> truth t <|> dated t <|> undated t <|>
    number t

end Traceability.Toml
