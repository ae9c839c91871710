import Traceability.Marker.Directive
import Traceability.Proofs.Identifier
import Traceability.Proofs.Line

/-!
# The token that an entry starts with

A token is made of letters, digits, joints and points, so no separator and no blank is in one. What
follows it does not matter, as long as it does not continue it.
-/
namespace Traceability

namespace Lexeme

variable {a b : Lexeme} {holds : Char → Bool} {rest : Text}

/-- Whether a reader does not see what follows a text. -/
def Blind (a : Lexeme) (rest : Text) : Prop :=
  ∀ t, a (t ++ rest) = (a t).map fun (read, left) => (read, left ++ rest)

theorem blind_char (stop : ∀ c ∈ rest.head?, holds c = false) : (char holds).Blind rest := by
  intro t
  cases t with
  | nil =>
    cases rest with
    | nil => rfl
    | cons c rest => simp [char, stop c rfl]
  | cons c t =>
    simp only [List.cons_append, char]
    split <;> rfl

theorem blind_chars (stop : ∀ c ∈ rest.head?, holds c = false) : (chars holds).Blind rest := by
  intro t
  simp only [chars, Option.map_some, Option.some.injEq, Prod.mk.injEq]
  induction t with
  | nil =>
    cases rest with
    | nil => exact ⟨rfl, rfl⟩
    | cons c rest => simp [stop c rfl]
  | cons c t ih =>
    cases held : holds c with
    | false => simp [held]
    | true => simpa [held] using ih

theorem Blind.andThen (first : a.Blind rest) (second : b.Blind rest) :
    (a.andThen b).Blind rest := by
  intro t
  rw [Lexeme.andThen, Lexeme.andThen, first t]
  cases a t with
  | none => rfl
  | some x =>
    simp only [Option.map_some, second x.2]
    cases b x.2 with
    | none => rfl
    | some y => rfl

theorem Blind.optional (inner : a.Blind rest) : a.optional.Blind rest := by
  intro t
  rw [Lexeme.optional, Lexeme.optional, inner t]
  cases a t with
  | none => rfl
  | some x => rfl

/-- A word and what has to follow it, where the rest of a text cannot start within the word. -/
theorem blind_word_andThen {w : Text} (second : b.Blind rest)
    (apart : ∀ c u left, rest = c :: u ++ left → c :: u <:+ w → b left = none) :
    ((word w).andThen b).Blind rest := by
  intro t
  rw [Lexeme.andThen, Lexeme.andThen]
  cases here : word w t with
  | some x =>
    simp only [word, Option.map_eq_some_iff, Text.dropStem?_eq_some_iff] at here
    obtain ⟨left, rfl, rfl⟩ := here
    have whole : word w (w ++ left ++ rest) = some (w, left ++ rest) := by
      simp [word, Text.dropStem?_eq_some_iff]
    rw [whole]
    simp only [second left]
    cases b left with
    | none => rfl
    | some y => rfl
  | none =>
    have absent (left : Text) : t ≠ w ++ left := by
      rintro rfl
      rw [word, Text.dropStem?_eq_some_iff.mpr rfl] at here
      cases here
    cases there : word w (t ++ rest) with
    | none => rfl
    | some x =>
      simp only [word, Option.map_eq_some_iff, Text.dropStem?_eq_some_iff] at there
      obtain ⟨left, whole, rfl⟩ := there
      rcases List.append_eq_append_iff.mp whole with ⟨part, shape, split⟩ | ⟨part, never, _⟩
      · cases part with
        | nil => exact absurd (by simp [shape]) (absent [])
        | cons c u => simp [apart c u left split ⟨t, shape.symm⟩]
      · exact absurd never (absent part)

end Lexeme

/-- Whether a character touches an identifier beside it. -/
def Text.touches (c : Char) : Bool := isWord c || c = '-'

namespace Identifier

open Lexeme
open Text (touches)
open Marker (continuesWord)

def isTokenChar (c : Char) : Bool :=
  Text.isAsciiAlnum c || isJoint c || c = '.' || Text.isDigit c

variable {c : Char} {id rest t : Text}

/-! ## Characters that touch -/

theorem toNat_lt_of_isAsciiAlnum (alnum : Text.isAsciiAlnum c = true) : c.toNat < 128 := by
  simp only [Text.isAsciiAlnum, Bool.or_eq_true, Bool.and_eq_true, decide_eq_true_eq,
    Char.le_def, UInt32.le_iff_toNat_le] at alnum
  have top : c.toNat ≤ 122 := by
    rcases alnum with (⟨_, top⟩ | ⟨_, top⟩) | ⟨_, top⟩
    · exact top
    · exact Nat.le_trans top (by decide)
    · exact Nat.le_trans top (by decide)
  omega

theorem isAsciiAlnum_of_isCodeChar (inner : isCodeChar c = true) :
    Text.isAsciiAlnum c = true := by
  simp only [isCodeChar, isCapital, Bool.or_eq_true] at inner
  simp only [Text.isAsciiAlnum, Bool.or_eq_true]
  tauto

theorem touches_of_isAsciiAlnum (alnum : Text.isAsciiAlnum c = true) : touches c = true := by
  simp [touches, Text.isWord, toNat_lt_of_isAsciiAlnum alnum, alnum]

theorem touches_of_isCodeChar (inner : isCodeChar c = true) : touches c = true :=
  touches_of_isAsciiAlnum (isAsciiAlnum_of_isCodeChar inner)

theorem touches_of_isCapital (capital : isCapital c = true) : touches c = true :=
  touches_of_isCodeChar (by simp [isCodeChar, capital])

/-- Every digit is a word character. -/
theorem touches_of_isDigit (digit : Text.isDigit c = true) : touches c = true := by
  rw [Text.isDigit] at digit
  split at digit
  · exact touches_of_isCodeChar (by simp [isCodeChar, digit])
  · next large =>
    obtain ⟨r, member, low, high⟩ := CharRanges.covers_iff.mp digit
    have within : (Text.digitRanges.all fun r => Nat.blt r.2 128 ||
        Text.wordRanges.any fun r' => Nat.ble r'.1 r.1 && Nat.ble r.2 r'.2) = true := by
      decide +kernel
    simp only [List.all_eq_true, List.any_eq_true, Bool.or_eq_true, Bool.and_eq_true,
      Nat.ble_eq, Nat.blt_eq] at within
    have above : ¬ r.2 < 128 := by omega
    obtain ⟨r', member', low', high'⟩ := (within r member).resolve_left above
    have word : Text.wordRanges.covers c.toNat = true :=
      CharRanges.covers_iff.mpr ⟨r', member', by omega, by omega⟩
    simp [touches, Text.isWord, large, word]

theorem continuesWord_cons (c : Char) (t : Text) : continuesWord (c :: t) = touches c := rfl

theorem stop_of_not_continuesWord (apart : continuesWord t = false) {holds : Char → Bool}
    (inner : ∀ c, holds c = true → touches c = true) : ∀ c ∈ t.head?, holds c = false := by
  intro c first
  obtain ⟨t, rfl⟩ := List.head?_eq_some_iff.mp first
  by_contra held
  rw [continuesWord_cons, inner c (by simpa using held)] at apart
  cases apart

/-! ## What a token is made of -/

theorem isTokenChar_of_isCodeChar (inner : isCodeChar c = true) : isTokenChar c = true := by
  simp [isTokenChar, isAsciiAlnum_of_isCodeChar inner]

theorem isTokenChar_of_isCapital (capital : isCapital c = true) : isTokenChar c = true :=
  isTokenChar_of_isCodeChar (by simp [isCodeChar, capital])

theorem free_segmentsFrom (other : isTokenChar c = false) (inside : Bool) (t : Text) :
    c ∉ (segmentsFrom inside t).1 := by
  induction t generalizing inside with
  | nil => simp [segmentsFrom]
  | cons d t ih =>
    unfold segmentsFrom
    split
    · next held =>
      have member : isTokenChar d = true := by
        simp only [Bool.or_eq_true, Bool.and_eq_true] at held
        rcases held with ⟨_, alnum⟩ | ⟨joint, _⟩
        · simp [isTokenChar, alnum]
        · simp [isTokenChar, joint]
      have apart : c ≠ d := by
        rintro rfl
        rw [other] at member
        cases member
      simpa [apart] using ih true
    · simp

theorem free_token (other : isTokenChar c = false) : token.Reads (c ∉ ·) := by
  have capital : isCapital c = false := by
    by_contra held
    rw [isTokenChar_of_isCapital (by simpa using held)] at other
    cases other
  have inner : isCodeChar c = false := by
    by_contra held
    rw [isTokenChar_of_isCodeChar (by simpa using held)] at other
    cases other
  have digit : Text.isDigit c = false := by
    simp only [isTokenChar, Bool.or_eq_false_iff] at other
    exact other.2
  have apart {d : Char} (member : isTokenChar d = true) : c ≠ d := by
    rintro rfl
    rw [other] at member
    cases member
  have point : c ∉ (".".toList : Text) := by
    simpa using apart (d := '.') (by decide)
  have mark : c ∉ criterionMark := by
    rw [criterionMark_eq]
    simp [apart (d := '_') (by decide), apart (d := 'A') (by decide),
      apart (d := 'C') (by decide), apart (d := '-') (by decide)]
  have number : Identifier.number.Reads (c ∉ ·) := (free_char digit).free_andThen (free_chars digit)
  have segments : Identifier.segments.Reads (c ∉ ·) := by
    intro t read rest found
    have same : segmentsFrom false t = (read, rest) := Option.some.inj found
    have free := free_segmentsFrom other false t
    rwa [same] at free
  exact ((((free_char capital).free_andThen (free_chars inner)).free_andThen segments).free_andThen
    ((free_word point).free_andThen number).free_optional).free_andThen
      ((free_word mark).free_andThen number).free_optional

theorem reads_token : token.Reads fun id =>
    (∃ c more, id = c :: more ∧ isCapital c = true) ∧ ∀ c ∈ id, isTokenChar c = true := by
  intro t id rest found
  constructor
  · obtain ⟨_, _, _, outer, _, rfl⟩ := andThen_eq_some.mp found
    obtain ⟨_, _, _, middle, _, rfl⟩ := andThen_eq_some.mp outer
    obtain ⟨_, _, _, inner, _, rfl⟩ := andThen_eq_some.mp middle
    obtain ⟨_, _, _, first, _, rfl⟩ := andThen_eq_some.mp inner
    obtain ⟨c, rfl, capital⟩ := reads_char _ first
    exact ⟨c, _, rfl, capital⟩
  · intro c member
    by_contra other
    exact free_token (by simpa using other) found member

/-- The code points of blanks. -/
def blankCodes : List Nat :=
  List.range' 9 5 ++ List.range' 28 5 ++ [0x85, 0xA0, 0x1680] ++ List.range' 0x2000 11 ++
    [0x2028, 0x2029, 0x202F, 0x205F, 0x3000]

theorem mem_blankCodes (blank : Text.isBlank c = true) : c.toNat ∈ blankCodes := by
  simp only [Text.isBlank, Bool.or_eq_true, Bool.and_eq_true, decide_eq_true_eq,
    beq_iff_eq] at blank
  simp only [blankCodes, List.mem_append, List.mem_range'_1, List.mem_cons, List.not_mem_nil]
  omega

theorem not_isTokenChar_of_isBlank (blank : Text.isBlank c = true) : isTokenChar c = false := by
  have checked : ∀ n ∈ blankCodes, isTokenChar (Char.ofNat n) = false := by decide
  have same := checked c.toNat (mem_blankCodes blank)
  rwa [Char.ofNat_toNat] at same

theorem not_touches_of_isBlank (blank : Text.isBlank c = true) : touches c = false := by
  have checked : ∀ n ∈ blankCodes, touches (Char.ofNat n) = false := by decide +kernel
  have same := checked c.toNat (mem_blankCodes blank)
  rwa [Char.ofNat_toNat] at same

/-- Whether a text looks like a token: a capital letter, and nothing but characters of tokens. -/
structure Spelled (id : Text) : Prop where
  capital : ∃ c more, id = c :: more ∧ isCapital c = true
  chars : ∀ c ∈ id, isTokenChar c = true

theorem spelled_of_leadingToken? (found : leadingToken? t = some id) : Spelled id := by
  obtain ⟨⟨_, rest⟩, read, rfl⟩ := Option.map_eq_some_iff.mp found
  obtain ⟨capital, chars⟩ := reads_token read
  exact ⟨capital, chars⟩

theorem Spelled.ne_nil (spelled : Spelled id) : id ≠ [] := by
  obtain ⟨c, more, rfl, _⟩ := spelled.capital
  exact List.cons_ne_nil c more

theorem Spelled.not_mem (spelled : Spelled id) {c : Char} (other : isTokenChar c = false) :
    c ∉ id := by
  intro member
  rw [spelled.chars c member] at other
  cases other

theorem Spelled.not_isBlank (spelled : Spelled id) : ∀ c ∈ id, Text.isBlank c = false := by
  intro c member
  by_contra blank
  exact spelled.not_mem (not_isTokenChar_of_isBlank (by simpa using blank)) member

theorem Spelled.unbroken (spelled : Spelled id) : Text.Unbroken id := by
  intro c member
  by_contra breaks
  have blank : Text.isBlank c = true := by
    simp only [Text.isLineBreak, Bool.not_eq_false, Bool.or_eq_true, Bool.and_eq_true,
      decide_eq_true_eq, beq_iff_eq] at breaks
    simp only [Text.isBlank, Bool.or_eq_true, Bool.and_eq_true, decide_eq_true_eq, beq_iff_eq]
    omega
  rw [spelled.not_isBlank c member] at blank
  cases blank

theorem Spelled.trimStart_append (spelled : Spelled id) (t : Text) :
    Text.trimStart (id ++ t) = id ++ t := by
  obtain ⟨c, more, rfl, _⟩ := spelled.capital
  simp [Text.trimStart, spelled.not_isBlank c List.mem_cons_self]

/-- A text that starts with a token starts with no stem that has another first character. -/
theorem Spelled.dropStem?_append (spelled : Spelled id) (lower : isCapital c = false)
    (w t : Text) : Text.dropStem? (c :: w) (id ++ t) = none := by
  obtain ⟨d, more, rfl, capital⟩ := spelled.capital
  have other : c ≠ d := by
    rintro rfl
    rw [lower] at capital
    cases capital
  rw [List.cons_append, Text.dropStem?, if_neg other]

/-! ## What may follow a token -/

/-- Whether a text does not continue the token in front of it. -/
def EndsToken (rest : Text) : Prop :=
  ∀ c t, rest = c :: t → isTokenChar c = false ∨ c = '-' ∧ t.head? = some '-'

theorem endsToken_nil : EndsToken [] := by
  rintro c t shape
  cases shape

theorem endsToken_cons (other : isTokenChar c = false) (t : Text) : EndsToken (c :: t) := by
  rintro _ _ shape
  cases shape
  exact .inl other

/-- Whether a text ends a token is seen from its first two characters. -/
theorem EndsToken.append {t : Text} (ends : EndsToken t) (filled : t ≠ []) (u : Text) :
    EndsToken (t ++ u) := by
  obtain ⟨c, t, rfl⟩ := List.exists_cons_of_ne_nil filled
  rintro _ _ shape
  cases shape
  refine (ends c t rfl).imp_right fun ⟨hyphen, next⟩ => ⟨hyphen, ?_⟩
  obtain ⟨t, rfl⟩ := List.head?_eq_some_iff.mp next
  rfl

theorem EndsToken.stop (ends : EndsToken rest) {holds : Char → Bool}
    (inner : ∀ c, holds c = true → isTokenChar c = true) (hyphen : holds '-' = false) :
    ∀ c ∈ rest.head?, holds c = false := by
  intro c first
  obtain ⟨t, rfl⟩ := List.head?_eq_some_iff.mp first
  rcases ends c t rfl with other | ⟨rfl, _⟩
  · by_contra held
    rw [inner c (by simpa using held)] at other
    cases other
  · exact hyphen

theorem EndsToken.stop_alnum (ends : EndsToken rest) :
    ∀ c ∈ rest.head?, Text.isAsciiAlnum c = false :=
  ends.stop (fun c held => by simp [isTokenChar, held]) (by decide)

theorem blind_number (ends : EndsToken rest) : number.Blind rest := by
  have stop : ∀ c ∈ rest.head?, Text.isDigit c = false :=
    ends.stop (fun c held => by simp [isTokenChar, held]) (by decide)
  exact (blind_char stop).andThen (blind_chars stop)

theorem blind_code (ends : EndsToken rest) : code.Blind rest :=
  (blind_char (ends.stop (fun _ => isTokenChar_of_isCapital) (by decide))).andThen
    (blind_chars (ends.stop (fun _ => isTokenChar_of_isCodeChar) (by decide)))

/-- A joint at the end of a text does not become one by what follows. -/
theorem segmentsFrom_append_rest (ends : EndsToken rest) (inside : Bool) (t : Text) :
    segmentsFrom inside (t ++ rest) =
      ((segmentsFrom inside t).1, (segmentsFrom inside t).2 ++ rest) := by
  induction t generalizing inside with
  | nil =>
    cases rest with
    | nil => rfl
    | cons c t =>
      have closed : ((inside && Text.isAsciiAlnum c) ||
          (isJoint c && t.head?.any Text.isAsciiAlnum)) = false := by
        rcases ends c t rfl with other | ⟨rfl, next⟩
        · simp only [isTokenChar, Bool.or_eq_false_iff] at other
          simp [other]
        · rw [next]
          cases inside <;> decide
      simp [segmentsFrom, closed]
  | cons c t ih =>
    have next : (t ++ rest).head?.any Text.isAsciiAlnum = t.head?.any Text.isAsciiAlnum := by
      cases t with
      | cons d t => rfl
      | nil =>
        rw [List.nil_append, List.head?_nil, Option.any_none, Option.any_eq_false]
        intro d first
        simp [ends.stop_alnum d first]
    rw [List.cons_append, segmentsFrom, segmentsFrom, next, ih true]
    split <;> rfl

theorem blind_segments (ends : EndsToken rest) : segments.Blind rest := by
  intro t
  rw [segments, segments, segmentsFrom_append_rest ends]
  rfl

theorem blind_subnumber (ends : EndsToken rest) : subnumber.Blind rest := by
  refine blind_word_andThen (blind_number ends) fun c u left split suffix => ?_
  -- The rest does not start with the point.
  obtain ⟨rfl, rfl⟩ : c = '.' ∧ u = [] := by
    obtain ⟨before, shape⟩ := suffix
    cases before with
    | nil => simpa using shape
    | cons _ before => simp at shape
  rcases ends '.' left split with other | ⟨never, _⟩
  · exact absurd other (by decide)
  · exact absurd never (by decide)

theorem blind_criterionNumber (ends : EndsToken rest) : criterionNumber.Blind rest := by
  refine blind_word_andThen (blind_number ends) fun c u left split suffix => ?_
  rw [criterionMark_eq] at suffix
  have inner : ∀ c ∈ ['_', 'A', 'C', '-'], isTokenChar c = true :=
    List.all_eq_true.mp (by decide)
  rcases ends c (u ++ left) split with other | ⟨rfl, next⟩
  · rw [inner c (suffix.subset List.mem_cons_self)] at other
    cases other
  · -- The only hyphen of the mark is its end, and a hyphen that follows it is not a number.
    obtain rfl : u = [] := by simpa [List.suffix_cons_iff] using suffix
    obtain ⟨left, rfl⟩ := List.head?_eq_some_iff.mp next
    rfl

theorem blind_token (ends : EndsToken rest) : token.Blind rest :=
  (((blind_code ends).andThen (blind_segments ends)).andThen
    (blind_subnumber ends).optional).andThen (blind_criterionNumber ends).optional

/-- A text that is one token is the token of a text that starts with it. -/
theorem leadingToken?_append {id : Text} (whole : leadingToken? id = some id)
    (ends : EndsToken rest) : leadingToken? (id ++ rest) = some id := by
  rw [leadingToken?, blind_token ends id]
  simpa [leadingToken?] using whole

end Identifier

end Traceability
