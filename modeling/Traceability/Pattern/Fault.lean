import Traceability.Text.Quoted

/-!
# Faults in patterns

Why a text is no pattern, and where. Most faults have a position; those found only when the whole
pattern is known have none.
-/
namespace Traceability

inductive PatternFault where
  | danglingEscape
  | badEscape (escape : Text)
  | incompleteEscape (escape : Text)
  | octalTooLarge (escape : Text)
  | openGroupReference
  | unknownGroup (index : Nat)
  | lookbehindReference
  | missingOpening
  | missingName (what : Text)
  | unterminatedName (closing : Char)
  | unknownCharacterName (name : Text)
  | badGroupName (name : Text)
  | unknownGroupName (name : Text)
  | badGroupNumber
  | redefinedGroup (name : Text) (index earlier : Nat)
  | unterminatedSet
  | badRange (range : Text)
  | repeatBounds
  | nothingToRepeat
  | multipleRepeat
  | unexpectedEnd
  | unknownExtension (extension : Text)
  | unterminatedComment
  | unterminatedGroup
  | tooManyBranches
  | lateGlobalFlags
  | missingFlagEnd
  | unknownFlag
  | missingFlag
  | missingColon
  | localeFlag
  | incompatibleFlags
  | globalFlagOn
  | globalFlagOff
  | alphabetFlagOff
  | flagOnAndOff
  | unbalancedParenthesis
  | variableLookbehind
  | farLookbehind
  | incompatibleAlphabets
  | hugeRepeat
deriving DecidableEq, Repr

namespace PatternFault

def message : PatternFault → Text
  | .danglingEscape => "bad escape (end of pattern)"
  | .badEscape e => "bad escape " ++ e
  | .incompleteEscape e => "incomplete escape " ++ e
  | .octalTooLarge e => "octal escape value " ++ e ++ " outside of range 0-0o377"
  | .openGroupReference => "cannot refer to an open group"
  | .unknownGroup n => "invalid group reference " ++ Text.ofNat n
  | .lookbehindReference =>
    "cannot refer to group defined in the same lookbehind subpattern"
  | .missingOpening => "missing \x7b"
  | .missingName what => "missing " ++ what
  | .unterminatedName closing => "missing " ++ [closing] ++ ", unterminated name"
  | .unknownCharacterName name => "undefined character name " ++ Text.quoted name
  | .badGroupName name => "bad character in group name " ++ Text.quoted name
  | .unknownGroupName name => "unknown group name " ++ Text.quoted name
  | .badGroupNumber => "bad group number"
  | .redefinedGroup name index earlier =>
    "redefinition of group name " ++ Text.quoted name ++ " as group " ++ Text.ofNat index ++
      "; was group " ++ Text.ofNat earlier
  | .unterminatedSet => "unterminated character set"
  | .badRange range => "bad character range " ++ range
  | .repeatBounds => "min repeat greater than max repeat"
  | .nothingToRepeat => "nothing to repeat"
  | .multipleRepeat => "multiple repeat"
  | .unexpectedEnd => "unexpected end of pattern"
  | .unknownExtension e => "unknown extension " ++ e
  | .unterminatedComment => "missing ), unterminated comment"
  | .unterminatedGroup => "missing ), unterminated subpattern"
  | .tooManyBranches => "conditional backref with more than two branches"
  | .lateGlobalFlags => "global flags not at the start of the expression"
  | .missingFlagEnd => "missing -, : or )"
  | .unknownFlag => "unknown flag"
  | .missingFlag => "missing flag"
  | .missingColon => "missing :"
  | .localeFlag => "bad inline flags: cannot use 'L' flag with a str pattern"
  | .incompatibleFlags => "bad inline flags: flags 'a', 'u' and 'L' are incompatible"
  | .globalFlagOn => "bad inline flags: cannot turn on global flag"
  | .globalFlagOff => "bad inline flags: cannot turn off global flag"
  | .alphabetFlagOff => "bad inline flags: cannot turn off flags 'a', 'u' and 'L'"
  | .flagOnAndOff => "bad inline flags: flag turned on and off"
  | .unbalancedParenthesis => "unbalanced parenthesis"
  | .variableLookbehind => "look-behind requires fixed-width pattern"
  | .farLookbehind => "looks too much behind"
  | .incompatibleAlphabets => "ASCII and UNICODE flags are incompatible"
  | .hugeRepeat => "the repetition number is too large"

end PatternFault

structure PatternError where
  fault : PatternFault
  position : Option Nat
deriving DecidableEq, Repr

namespace PatternError

/-- Whether the text breaks a rule of the notation; otherwise it asks for what cannot be had: a
repetition beyond all bounds, or two alphabets at once. -/
def isNotation (e : PatternError) : Bool :=
  e.fault ≠ .hugeRepeat && e.fault ≠ .incompatibleAlphabets

def message (source : Text) (e : PatternError) : Text :=
  match e.position with
  | none => e.fault.message
  | some n =>
    let place := e.fault.message ++ " at position " ++ Text.ofNat n
    let before := source.take n
    if source.elem '\n' then
      let line := before.countP (· = '\n') + 1
      let column := (before.reverse.takeWhile (· ≠ '\n')).length + 1
      place ++ " (line " ++ Text.ofNat line ++ ", column " ++ Text.ofNat column ++ ")"
    else place

end PatternError

end Traceability
