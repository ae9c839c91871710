import Traceability.Text.Basic

/-!
# Words of a command line

Options change settings; some take a value, which is the next word or is attached. A word that starts
with a hyphen is an option, or a cluster of options of one letter, until two hyphens end the options.
Every other word is an operand.
-/
namespace Traceability.Command

inductive OptionEffect (σ : Type) where
  | flag (apply : σ → σ)
  | valued (apply : Text → σ → σ)

structure OptionForm (σ : Type) where
  names : List Text
  effect : OptionEffect σ

abbrev Pending (σ : Type) := σ × Option (Text → σ → σ)

variable {σ : Type}

def effectOf? (forms : List (OptionForm σ)) (name : Text) : Option (OptionEffect σ) :=
  (forms.find? fun form => name ∈ form.names).map (·.effect)

def letterEffect? (forms : List (OptionForm σ)) (c : Char) : Option (OptionEffect σ) :=
  effectOf? forms ['-', c]

def longEffect? (forms : List (OptionForm σ)) (name : Text) : Option (OptionEffect σ) :=
  if name.startsWith "--" then effectOf? forms name else none

/-- Applies a cluster of options of one letter; what follows an option with a value is the value. -/
def applyCluster (forms : List (OptionForm σ)) : Text → σ → Option (Pending σ)
  | [], s => some (s, none)
  | c :: rest, s =>
    match letterEffect? forms c with
    | none => none
    | some (.flag apply) => applyCluster forms rest (apply s)
    | some (.valued apply) => if rest = [] then some (s, some apply) else some (apply rest s, none)

def splitValue (word : Text) : Text × Option Text :=
  match Text.cut? "=" word with
  | some (name, value) => (name, some value)
  | none => (word, none)

def applyOption (forms : List (OptionForm σ)) (word : Text) (s : σ) : Option (Pending σ) :=
  let (name, value?) := splitValue word
  match longEffect? forms name, value? with
  | some (.flag apply), none => some (apply s, none)
  | some (.flag _), some _ => none
  | some (.valued apply), some value => some (apply value s, none)
  | some (.valued apply), none => some (s, some apply)
  | none, _ => if word.startsWith "--" then none else applyCluster forms (word.drop 1) s

def isOption (word : Text) : Bool := word.startsWith "-" && word ≠ ['-']

/-- The settings and the operands of some words; `waiting` is the option that takes the next word for
its value. -/
def readWordsFrom (forms : List (OptionForm σ)) : (waiting : Option (Text → σ → σ)) → σ →
    List Text → Option (σ × List Text)
  | none, s, [] => some (s, [])
  | some _, _, [] => none
  | some apply, s, word :: rest => readWordsFrom forms none (apply word s) rest
  | none, s, word :: rest =>
    if word = ['-', '-'] then some (s, rest)
    else if isOption word then
      match applyOption forms word s with
      | none => none
      | some (s, waiting) => readWordsFrom forms waiting s rest
    else (readWordsFrom forms none s rest).map fun (s, operands) => (s, word :: operands)

def readWords (forms : List (OptionForm σ)) (start : σ) (words : List Text) :
    Option (σ × List Text) :=
  readWordsFrom forms none start words

end Traceability.Command
