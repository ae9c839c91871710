import Traceability.Command.Readers
import Traceability.Config.Basic
import Traceability.Proofs.Marker.Line
import Traceability.Proofs.Marker.Visible
import Traceability.Proofs.Pattern.IdForm
import Traceability.Proofs.Reference

/-!
# Lists of identifiers

What a spec defines can be named elsewhere: a list of identifiers between commas is read back, behind
a keyword as the targets of a reference, and behind a token as markers. A marker is read by another
rule than the lines that define: its segments are of ASCII characters, though the numbers of an
identifier may have other digits, so such an identifier is cut short unless it is ASCII up to its
first point.
-/
namespace Traceability

namespace Identifier

open Lexeme

variable {kind : IdKind} {id u v t t' t'' b w m rest : Text} {c : Char} {inside : Bool}

/-! ## The token of an identifier -/

/-- Whether a text is ASCII up to its first point. -/
def Plain (id : Text) : Prop := ∀ c ∈ id.takeWhile (· ≠ '.'), c.toNat < 128

-- The instance found for all characters of a list would go through all characters there are.
instance (id : Text) : Decidable (Plain id) := List.decidableBAll _ _

theorem plain_append_iff (free : '.' ∉ u) :
    Plain (u ++ t) ↔ (∀ c ∈ u, c.toNat < 128) ∧ Plain t := by
  have all : ∀ c ∈ u, decide (c ≠ '.') = true := by
    intro c member
    rw [decide_eq_true_eq]
    rintro rfl
    exact free member
  rw [Plain, List.takeWhile_append_of_pos all, List.forall_mem_append, Plain]

theorem plain_word_iff (small : ∀ c ∈ w, c ≠ '.' ∧ c.toNat < 128) :
    Plain (w ++ t) ↔ Plain t := by
  rw [plain_append_iff fun member => (small _ member).1 rfl]
  exact and_iff_right fun c member => (small c member).2

theorem plain_point (t : Text) : Plain ('.' :: t) := List.forall_mem_nil _

theorem isAsciiAlnum_of_isDigit (digit : Text.isDigit c = true) (small : c.toNat < 128) :
    Text.isAsciiAlnum c = true := by
  rw [Text.isDigit, if_pos small] at digit
  exact isAsciiAlnum_of_isCodeChar (by simp [isCodeChar, digit])

theorem segmentsFrom_alnum (all : ∀ d ∈ m, Text.isAsciiAlnum d = true) (t : Text) :
    segmentsFrom true (m ++ t) = (m ++ (segmentsFrom true t).1, (segmentsFrom true t).2) := by
  induction m with
  | nil => rfl
  | cons d m ih =>
    obtain ⟨alnum, all⟩ := List.forall_mem_cons.mp all
    simp [segmentsFrom, alnum, ih all]

theorem segmentsFrom_point (inside : Bool) (t : Text) :
    segmentsFrom inside ('.' :: t) = ([], '.' :: t) := by
  have other : ((inside && Text.isAsciiAlnum '.') ||
      (isJoint '.' && t.head?.any Text.isAsciiAlnum)) = false := by
    cases inside <;> rfl
  rw [segmentsFrom, other]
  rfl

/-- The mark of a criterion is taken for a segment, so none follows the segments. -/
theorem criterionNumber_segmentsFrom (inside : Bool) (t : Text) :
    criterionNumber (segmentsFrom inside t).2 = none := by
  induction t generalizing inside with
  | nil => rfl
  | cons c t ih =>
    rw [segmentsFrom]
    split
    · exact ih true
    · next stop =>
      rw [criterionNumber, criterionMark_eq]
      refine andThen_of_none ?_
      rw [Option.eq_none_iff_forall_ne_some]
      rintro ⟨read, rest⟩ found
      have shape := splits_word _ found
      rw [reads_word _ found, List.cons_append, List.cons_append] at shape
      cases shape
      exact stop (by cases inside <;> rfl)

theorem small_segmentsFrom (inside : Bool) (t : Text) :
    ∀ c ∈ (segmentsFrom inside t).1, c ≠ '.' ∧ c.toNat < 128 := by
  induction t generalizing inside with
  | nil => exact List.forall_mem_nil _
  | cons c t ih =>
    rw [segmentsFrom]
    split
    · next held =>
      refine List.forall_mem_cons.mpr ⟨?_, ih true⟩
      simp only [Bool.or_eq_true, Bool.and_eq_true] at held
      rcases held with ⟨_, alnum⟩ | ⟨joint, _⟩
      · refine ⟨?_, toNat_lt_of_isAsciiAlnum alnum⟩
        rintro rfl
        exact absurd alnum (by decide)
      · simp only [isJoint, Bool.or_eq_true, decide_eq_true_eq] at joint
        rcases joint with rfl | rfl <;> decide
    · exact List.forall_mem_nil _

theorem IsCode.small (feature : IsCode u) : ∀ c ∈ u, c ≠ '.' ∧ c.toNat < 128 := by
  intro c member
  have alnum := isAsciiAlnum_of_isCodeChar (feature.all c member)
  refine ⟨?_, toNat_lt_of_isAsciiAlnum alnum⟩
  rintro rfl
  exact absurd alnum (by decide)

theorem IsCode.plain_iff (feature : IsCode u) : Plain (u ++ t) ↔ Plain t :=
  plain_word_iff feature.small

theorem IsNumber.plain_iff (own : IsNumber m) :
    Plain (m ++ t) ↔ (∀ d ∈ m, Text.isAsciiAlnum d = true) ∧ Plain t := by
  rw [plain_append_iff fun member => absurd (own.2 _ member) (by decide)]
  refine and_congr_left' ⟨fun small d member => ?_, fun alnum d member => ?_⟩
  · exact isAsciiAlnum_of_isDigit (own.2 d member) (small d member)
  · exact toNat_lt_of_isAsciiAlnum (alnum d member)

theorem IsNumber.alnum_of_plain (own : IsNumber m) (plain : Plain m) :
    ∀ d ∈ m, Text.isAsciiAlnum d = true := by
  rw [← List.append_nil m, own.plain_iff] at plain
  exact plain.1

/-- Segments of ASCII letters and digits, each behind a joint. -/
inductive Linked : Text → Prop
  | nil : Linked []
  | cons {c d : Char} {m t : Text} (joint : isJoint c = true)
    (alnum : ∀ e ∈ d :: m, Text.isAsciiAlnum e = true) (rest : Linked t) :
    Linked (c :: d :: (m ++ t))

theorem segmentsFrom_linked (linked : Linked v)
    (stop : ∀ inside, segmentsFrom inside t = ([], t)) (inside : Bool) :
    segmentsFrom inside (v ++ t) = (v, t) := by
  induction linked generalizing inside with
  | nil => exact stop inside
  | @cons c d m t' joint alnum _ ih =>
    have held : ((inside && Text.isAsciiAlnum c) ||
        (isJoint c && (d :: (m ++ t') ++ t).head?.any Text.isAsciiAlnum)) = true := by
      simp [joint, alnum d List.mem_cons_self]
    rw [List.cons_append, segmentsFrom, if_pos held, List.cons_append, List.append_assoc,
      ← List.cons_append, segmentsFrom_alnum alnum, ih true]
    simp

theorem Linked.number (rest : Linked t) (joint : isJoint c = true) (own : IsNumber m)
    (alnum : ∀ d ∈ m, Text.isAsciiAlnum d = true) : Linked (c :: (m ++ t)) := by
  obtain ⟨d, m, rfl⟩ := List.exists_cons_of_ne_nil own.1
  exact .cons joint alnum rest

theorem linked_number (joint : isJoint c = true) (own : IsNumber m)
    (alnum : ∀ d ∈ m, Text.isAsciiAlnum d = true) : Linked (c :: m) := by
  simpa using Linked.nil.number joint own alnum

/-- A token is ASCII up to its first point. -/
theorem plain_of_leadingToken? (whole : leadingToken? id = some id) : Plain id := by
  obtain ⟨⟨_, rest⟩, read, rfl⟩ := Option.map_eq_some_iff.mp whole
  obtain ⟨_, w, t'', outer, mark, rfl⟩ := andThen_eq_some.mp read
  obtain ⟨_, b, t', inner, sub, rfl⟩ := andThen_eq_some.mp outer
  obtain ⟨u, v, t, feature, linked, rfl⟩ := andThen_eq_some.mp inner
  have linked : segmentsFrom false t = (v, t') := Option.some.inj linked
  have small : ∀ c ∈ u ++ v, c ≠ '.' ∧ c.toNat < 128 := by
    refine List.forall_mem_append.mpr ⟨(reads_code feature).small, ?_⟩
    have small := small_segmentsFrom false t
    rwa [linked] at small
  have free : '.' ∉ u ++ v := fun member => (small _ member).1 rfl
  rw [List.append_assoc, plain_append_iff free]
  refine ⟨fun c member => (small c member).2, ?_⟩
  rcases reads_optional_subnumber sub with rfl | ⟨n, own, rfl⟩
  · obtain rfl := splits_subnumber.optional sub
    have none := criterionNumber_segmentsFrom false t
    rw [linked] at none
    rw [optional_of_none none] at mark
    cases mark
    exact List.forall_mem_nil _
  · exact plain_point _

theorem segments_append (feature : IsCode u) (joint : isJoint c = true) (linked : Linked (c :: v))
    (stop : ∀ inside, segmentsFrom inside t = ([], t)) :
    (code.andThen segments) (u ++ c :: v ++ t) = some (u ++ c :: v, t) := by
  rw [List.append_assoc, List.cons_append, andThen_of_some (code_joint feature joint _), segments,
    ← List.cons_append, segmentsFrom_linked linked stop]
  rfl

theorem leadingToken?_linked (feature : IsCode u) (joint : isJoint c = true)
    (linked : Linked (c :: v)) : leadingToken? (u ++ c :: v) = some (u ++ c :: v) := by
  have segmented := segments_append feature joint linked (t := []) fun _ => rfl
  rw [List.append_nil] at segmented
  have numbered : ((code.andThen segments).andThen subnumber.optional) (u ++ c :: v) =
      some (u ++ c :: v ++ [], []) := by
    rw [andThen_of_some segmented]
    rfl
  have unmarked : criterionNumber.optional [] = some ([], []) := rfl
  rw [leadingToken?, token, andThen_of_some numbered, unmarked]
  simp

/-- Behind a point other digits are read, too. -/
theorem leadingToken?_point (feature : IsCode u) (joint : isJoint c = true)
    (linked : Linked (c :: v)) (own : IsNumber m) (apart : ∀ d ∈ t.head?, Text.isDigit d = false)
    (mark : criterionNumber.optional t = some (t, [])) :
    leadingToken? (u ++ c :: v ++ ('.' :: m ++ t)) = some (u ++ c :: v ++ ('.' :: m ++ t)) := by
  have segmented := segments_append feature joint linked (t := '.' :: m ++ t)
    fun inside => segmentsFrom_point inside _
  have sub : subnumber.optional ('.' :: m ++ t) = some ('.' :: m, t) :=
    subnumber_append (.inr ⟨m, own, rfl⟩) apart (by simp)
  have numbered : ((code.andThen segments).andThen subnumber.optional)
      (u ++ c :: v ++ ('.' :: m ++ t)) = some (u ++ c :: v ++ '.' :: m, t) := by
    rw [andThen_of_some segmented, sub]
    rfl
  rw [leadingToken?, token, andThen_of_some numbered, mark]
  simp

/-- An identifier that is ASCII up to its first point is one token. -/
theorem leadingToken?_of_plain (shaped : Shaped kind id) (plain : Plain id) :
    leadingToken? id = some id := by
  have hyphen : isJoint '-' = true := by decide
  have underscore : isJoint '_' = true := by decide
  have behind (w : Text) (checked : w.all (fun c => c ≠ '.' && c.toNat < 128) = true) {t : Text}
      (plain : Plain (w ++ t)) : Plain t := by
    refine (plain_word_iff fun c member => ?_).mp plain
    simpa using List.all_eq_true.mp checked c member
  cases shaped with
  | @requirement u n s feature main sub =>
    have plain := behind ['-'] (by decide) (feature.plain_iff.mp plain)
    have linked := linked_number hyphen main (main.plain_iff.mp plain).1
    rcases sub with rfl | ⟨m, own, rfl⟩
    · rw [List.append_nil]
      exact leadingToken?_linked feature hyphen linked
    · simpa using leadingToken?_point feature hyphen linked own (t := []) (by simp) rfl
  | @criterion u n s m feature main sub own =>
    have plain := behind ['-'] (by decide) (feature.plain_iff.mp plain)
    obtain ⟨alnum, plain⟩ := main.plain_iff.mp plain
    rcases sub with rfl | ⟨k, sub, rfl⟩
    · rw [List.nil_append] at plain ⊢
      have plain := behind ['_', 'A', 'C', '-'] (by decide) plain
      have letters : ∀ d ∈ ['A', 'C'], Text.isAsciiAlnum d = true := List.all_eq_true.mp (by decide)
      have marked :=
        Linked.cons underscore letters (linked_number hyphen own (own.alnum_of_plain plain))
      exact leadingToken?_linked feature hyphen (marked.number hyphen main alnum)
    · have linked := linked_number hyphen main alnum
      have mark := optional_of_some (criterionNumber_append own (t := []) (by simp))
      rw [List.append_nil] at mark
      simpa using leadingToken?_point feature hyphen linked sub (by simp; decide) mark
  | @property u n feature own =>
    have plain := behind ['_', 'P', '-'] (by decide) (feature.plain_iff.mp plain)
    have letter : ∀ d ∈ ['P'], Text.isAsciiAlnum d = true := List.forall_mem_singleton.mpr rfl
    have last := linked_number hyphen own (own.alnum_of_plain plain)
    exact leadingToken?_linked feature underscore (Linked.cons underscore letter last)
  | @component u m c feature letter name =>
    have alnum : ∀ d ∈ c :: m, Text.isAsciiAlnum d = true :=
      List.forall_mem_cons.mpr ⟨isAsciiAlnum_of_isLetter letter, name⟩
    refine leadingToken?_linked feature hyphen ?_
    simpa using Linked.cons hyphen alnum .nil

theorem leadingToken?_eq_self_iff (shaped : Shaped kind id) :
    leadingToken? id = some id ↔ Plain id :=
  ⟨plain_of_leadingToken?, leadingToken?_of_plain shaped⟩

end Identifier

/-! ## Lists between commas -/

namespace Text

variable {id : Text} {ids : List Text}

theorem forall_mem_join {holds : Char → Prop} {separator : Text} (between : ∀ c ∈ separator, holds c)
    (inner : ∀ id ∈ ids, ∀ c ∈ id, holds c) : ∀ c ∈ join separator ids, holds c := by
  induction ids with
  | nil => exact List.forall_mem_nil _
  | cons id ids ih =>
    obtain ⟨first, rest⟩ := List.forall_mem_cons.mp inner
    cases ids with
    | nil => exact first
    | cons next ids =>
      rw [join_cons_cons]
      exact List.forall_mem_append.mpr ⟨first, List.forall_mem_append.mpr ⟨between, ih rest⟩⟩

theorem splitOn_list (free : ∀ i ∈ id :: ids, ',' ∉ i) :
    splitOn ',' (join ", " (id :: ids)) = id :: ids.map (' ' :: ·) := by
  induction ids generalizing id with
  | nil => exact splitOn_of_not_mem (free id List.mem_cons_self)
  | cons next ids ih =>
    obtain ⟨first, free⟩ := List.forall_mem_cons.mp free
    have later : splitOn ',' (' ' :: join ", " (next :: ids)) =
        (' ' :: next) :: ids.map (' ' :: ·) := by
      rw [splitOn, if_neg (by decide), ih free]
    rw [join_cons_cons]
    exact (splitOn_append_separator first _).trans (congrArg _ later)

end Text

section List

open Identifier (Spelled Shaped leadingToken? embedded)

variable {id : Text} {ids : List Text}

theorem Identifier.Spelled.trim (spelled : Spelled id) (lead : Text)
    (blank : ∀ c ∈ lead, Text.isBlank c = true) : Text.trim (lead ++ id) = id := by
  have trimmed := Text.trim_eq blank spelled.ne_nil spelled.not_isBlank []
  rwa [List.append_nil, show Text.trimEnd [] = [] from rfl, List.append_nil] at trimmed

theorem filterMap_list (spelled : ∀ i ∈ id :: ids, Spelled i) :
    (Text.splitOn ',' (Text.join ", " (id :: ids))).filterMap
      (fun entry => leadingToken? (Text.trim entry)) = (id :: ids).filterMap leadingToken? := by
  rw [Text.splitOn_list fun i member => (spelled i member).not_mem (by decide)]
  have first : Text.trim id = id := (spelled id List.mem_cons_self).trim [] (by simp)
  have later : ∀ i ∈ ids, leadingToken? (Text.trim (' ' :: i)) = leadingToken? i := by
    intro i member
    rw [← List.singleton_append,
      (spelled i (List.mem_cons_of_mem id member)).trim [' '] (List.forall_mem_singleton.mpr rfl)]
  have rest : (ids.map (' ' :: ·)).filterMap (fun entry => leadingToken? (Text.trim entry)) =
      ids.filterMap leadingToken? := by
    rw [List.filterMap_map]
    exact List.filterMap_congr later
  rw [List.filterMap_cons, List.filterMap_cons, first, rest]

theorem embedded_list (shaped : ∀ id ∈ ids, ∃ kind ≠ IdKind.component, Shaped kind id) :
    embedded (Text.join ", " ids) = ids := by
  induction ids with
  | nil => rfl
  | cons id ids ih =>
    obtain ⟨⟨kind, other, own⟩, rest⟩ := List.forall_mem_cons.mp shaped
    cases ids with
    | nil =>
      have read := Identifier.reference_alone own (t := []) rfl (fun _ _ => rfl) other
      rw [List.append_nil] at read
      exact Identifier.embedded_of_some read
    | cons next ids =>
      rw [Text.join_cons_cons]
      have read := Identifier.reference_alone own
        (t := ',' :: ' ' :: Text.join ", " (next :: ids)) rfl (fun _ _ => rfl) other
      refine (Identifier.embedded_of_some read).trans (congrArg _ ?_)
      rw [Identifier.embedded_of_none rfl, Identifier.embedded_of_none rfl, ih rest]

end List

namespace Marker

open Identifier (Spelled leadingToken?)

variable {line : Text} {ids : List Text}

theorem map_id_scanEntries (kind : MarkerKind) (path : Text) (number column : Nat)
    (entries : List Text) : (scanEntries kind path number column entries).markers.map (·.id) =
      entries.filterMap fun entry => leadingToken? (Text.trim entry) := by
  induction entries generalizing column with
  | nil => rfl
  | cons entry entries ih =>
    rw [scanEntries_cons, List.map_append, ih, List.filterMap_cons]
    cases found : leadingToken? (Text.trim entry) with
    | none => rw [scanEntry_of_none found]; rfl
    | some id => rw [markers_scanEntry found]; rfl

/-- A text of one line without directives is scanned as that line. -/
theorem scan_line (unbroken : Text.Unbroken line) (filled : line ≠ [])
    (undirected : Undirected line) (tokens : List Text) (path : Text) :
    scan tokens path line = scanLine tokens path (line, 1) := by
  have visible : visibleLines [line] = [(line, 1)] := by
    simp [visibleLines, Hiding.keep, Hiding.step, undirected _]
  rw [scan, Text.lines_of_unbroken unbroken filled, visible]
  simp [MarkerScan.merge]

theorem entriesBehind?_join {c : Char} {t : Text} (first : c ∈ t.head?)
    (full : Text.isBlank c = false) (ts : List Text) :
    entriesBehind? (' ' :: Text.join ", " (t :: ts)) = some (1, Text.join ", " (t :: ts)) := by
  obtain ⟨more, rfl⟩ := List.head?_eq_some_iff.mp first
  obtain ⟨rest, shape⟩ : ∃ rest, Text.join ", " ((c :: more) :: ts) = c :: rest := by
    cases ts with
    | nil => exact ⟨more, rfl⟩
    | cons next ts => exact ⟨_, Text.join_cons_cons _ _ _ _⟩
  have blank : ∀ d ∈ [' '], Text.isBlank d = true := List.forall_mem_singleton.mpr rfl
  have trimmed : Text.trimStart (' ' :: c :: rest) = c :: rest :=
    Text.trimStart_eq blank (by simpa using full)
  rw [shape, entriesBehind?, trimmed]
  simp

/-- A comment that names identifiers behind a token. -/
def listing (ids : List Text) : Text := "# @spec-impl: ".toList ++ Text.join ", " ids

section Listing

variable (spelled : ∀ id ∈ ids, Spelled id)

include spelled

theorem unbroken_listing : Text.Unbroken (listing ids) := by
  have front : Text.Unbroken "# @spec-impl: ".toList := by decide
  have comma : Text.Unbroken ", ".toList := by decide
  exact List.forall_mem_append.mpr
    ⟨front, Text.forall_mem_join comma fun id member => (spelled id member).unbroken⟩

theorem undirected_listing : Undirected (listing ids) := by
  have front : listing ids =
      '#' :: ' ' :: ("@spec-impl".toList ++ ':' :: ' ' :: Text.join ", " ids) := rfl
  rw [front]
  exact undirected_announcement (by decide +kernel) fun id member =>
    undirected_of_not_mem ((spelled id member).not_mem (by decide))

omit spelled in
theorem entriesOf?_listing {found : Nat × Text}
    (behind : entriesBehind? (' ' :: Text.join ", " ids) = some found) :
    entriesOf? defaultTokens (listing ids) =
      some ("@spec-impl".toList, 2 + (11 + found.1), found.2) := by
  have tokens : tokenOrder defaultTokens =
      ["@spec-component".toList, "@spec-impl".toList, "@spec-test".toList] := by
    decide +kernel
  have plain : ∀ token ∈ tokenOrder defaultTokens, ':' ∉ token := by decide +kernel
  have here := findSome?_entriesAt? (w := "@spec-impl".toList) (by decide) plain behind
  rw [tokens, if_pos (by decide)] at here
  have front : listing ids =
    '#' :: ' ' :: ("@spec-impl".toList ++ ':' :: ' ' :: Text.join ", " ids) := rfl
  rw [entriesOf?, tokens, front]
  exact entriesFrom?_of_findSome? here (List.cons_ne_nil _ _) 2

/-- The markers of a listing are the tokens of its identifiers. -/
theorem map_id_scan_listing (path : Text) :
    (scan defaultTokens path (listing ids)).markers.map (·.id) = ids.filterMap leadingToken? := by
  rw [scan_line (unbroken_listing spelled) (List.cons_ne_nil _ _) (undirected_listing spelled)]
  cases ids with
  | nil =>
    rw [scanLine_of_some (entriesOf?_listing rfl) rfl, map_id_scanEntries]
    rfl
  | cons id ids =>
    have first := spelled id List.mem_cons_self
    obtain ⟨c, more, rfl, _⟩ := first.capital
    have behind := entriesBehind?_join (c := c) (t := c :: more) rfl
      (first.not_isBlank c List.mem_cons_self) ids
    rw [scanLine_of_some (entriesOf?_listing behind) rfl, map_id_scanEntries,
      filterMap_list spelled]

end Listing

end Marker

namespace Spec

open Identifier (Shaped embedded)
open Document (keywordIn?)

variable {ids : List Text}

/-- A line that refers to identifiers behind a keyword. -/
def listing (ids : List Text) : Text := "IMPLEMENTS: ".toList ++ Text.join ", " ids

/-- A listing refers to its identifiers, where none is the name of a component. -/
theorem crossRefs_read_listing (shaped : ∀ id ∈ ids, ∃ kind ≠ IdKind.component, Shaped kind id)
    (path : Text) : (Document.read ({} : Config).crossRefKeywords path (listing ids)).crossRefs =
      if ids = [] then [] else [⟨.implements, ids, 1, none⟩] := by
  have unbroken : Text.Unbroken (listing ids) := by
    have front : Text.Unbroken "IMPLEMENTS: ".toList := by decide
    have comma : Text.Unbroken ", ".toList := by decide
    refine List.forall_mem_append.mpr ⟨front, Text.forall_mem_join comma fun id member => ?_⟩
    obtain ⟨_, _, own⟩ := shaped id member
    exact (Identifier.spelled_of_shaped own).unbroken
  have undeclared : Declaration.ofLine? (listing ids) = none := rfl
  have announced : keywordIn? ({} : Config).crossRefKeywords (listing ids) =
      some ("IMPLEMENTS:".toList, ' ' :: Text.join ", " ids) := rfl
  have targets : embedded (' ' :: Text.join ", " ids) = ids :=
    (Identifier.embedded_of_none rfl).trans (embedded_list shaped)
  have implements : CrossRefKind.ofKeyword "IMPLEMENTS:" = .implements := by decide
  simp only [Document.read, Text.lines_of_unbroken unbroken (List.cons_ne_nil _ _),
    List.zipIdx_singleton, Document.referencesBelow, undeclared, Document.reference?, announced,
    targets, implements]
  cases ids <;> rfl

end Spec

namespace Spec.Declaration

open Identifier (Shaped Plain leadingToken? embedded)

variable {ds : List Declaration} {d : Declaration}

theorem shaped_of_declared (declared : ∃ line, ofLine? line = some d) : Shaped d.kind d.id := by
  obtain ⟨_, found⟩ := declared
  exact Identifier.shaped_of_lexical (lexical_of_ofLine? found)

/-- What is declared can be referred to by its identifier, and can be marked by it just where it is
ASCII up to its first point; the same holds of lists. -/
theorem referable [CharacterNames] (declared : ∀ d ∈ ds, ∃ line, ofLine? line = some d) :
    (∀ d ∈ ds, (leadingToken? d.id = some d.id ↔ Plain d.id) ∧
      (d.kind ≠ .component → embedded d.id = [d.id] ∧
        ∃ form, PatternNode.use {} ({} : Config).idPattern = .ok form ∧
          form.matchesAll d.id = true)) ∧
    ∀ path,
      ((Marker.scan Marker.defaultTokens path (Marker.listing (ds.map (·.id)))).markers.map (·.id) =
        ds.map (·.id) ↔ ∀ d ∈ ds, Plain d.id) ∧
      ((∀ d ∈ ds, d.kind ≠ .component) →
        (Document.read ({} : Config).crossRefKeywords path (listing (ds.map (·.id)))).crossRefs =
          if ds = [] then [] else [⟨.implements, ds.map (·.id), 1, none⟩]) := by
  have shaped (d) (member : d ∈ ds) := shaped_of_declared (declared d member)
  refine ⟨fun d member => ⟨?_, fun other => ⟨?_, ?_⟩⟩, fun path => ⟨?_, fun others => ?_⟩⟩
  · exact Identifier.leadingToken?_eq_self_iff (shaped d member)
  · have single : ∀ id ∈ [d.id], ∃ kind ≠ IdKind.component, Shaped kind id :=
      List.forall_mem_singleton.mpr ⟨d.kind, other, shaped d member⟩
    exact embedded_list single
  · exact ⟨PatternNode.idForm, PatternNode.use_idPattern,
      PatternNode.matchesAll_idForm (shaped d member) other⟩
  · have spelled : ∀ id ∈ ds.map (·.id), Identifier.Spelled id :=
      List.forall_mem_map.mpr fun d member => Identifier.spelled_of_shaped (shaped d member)
    rw [Marker.map_id_scan_listing spelled, List.filterMap_map,
      List.filterMap_eq_map_iff_forall_eq_some]
    exact forall₂_congr fun d member => Identifier.leadingToken?_eq_self_iff (shaped d member)
  · have named : ∀ id ∈ ds.map (·.id), ∃ kind ≠ IdKind.component, Shaped kind id :=
      List.forall_mem_map.mpr fun d member => ⟨d.kind, others d member, shaped d member⟩
    simpa using crossRefs_read_listing named path

/-- Declarations with points; behind a point the digits may be any. -/
def dotted : List Declaration :=
  [⟨.requirement, "X-1.2", "T"⟩, ⟨.criterion, "X-1.٢_AC-٣", "U"⟩, ⟨.property, "X_P-4", "V"⟩]

theorem referable_dotted :
    (∀ d ∈ dotted, ∃ line, ofLine? line = some d) ∧
      (Marker.scan Marker.defaultTokens "a.py"
        (Marker.listing (dotted.map (·.id)))).markers.map (·.id) = dotted.map (·.id) ∧
      (Document.read ({} : Config).crossRefKeywords "a.md" (listing (dotted.map (·.id)))).crossRefs =
        [⟨.implements, dotted.map (·.id), 1, none⟩] := by
  have declared : ∀ d ∈ dotted, ∃ line, ofLine? line = some d := by
    intro d member
    simp only [dotted, List.mem_cons, List.not_mem_nil, or_false] at member
    rcases member with rfl | rfl | rfl
    · exact ⟨"### X-1.2: T", by decide +kernel⟩
    · exact ⟨"- X-1.٢_AC-٣ U", by decide +kernel⟩
    · exact ⟨"- X_P-4 V", by decide +kernel⟩
  obtain ⟨_, lists⟩ := referable declared
  exact ⟨declared, (lists "a.py").1.mpr (by decide +kernel),
    (lists "a.md").2 (by decide +kernel)⟩

/-- An identifier with another digit in front of a point is marked by a part of it only. -/
theorem cut_short : ofLine? "### X-١: T" = some ⟨.requirement, "X-١", "T"⟩ ∧
    leadingToken? "X-١" = some "X".toList ∧
    (Marker.scan Marker.defaultTokens "a.py" (Marker.listing ["X-١"])).markers =
      [⟨.implementation, "X", "a.py", 1, 14, 15⟩] := by
  decide +kernel

end Spec.Declaration

end Traceability
