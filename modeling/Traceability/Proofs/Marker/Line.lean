import Traceability.Proofs.Marker.Entry
import Traceability.Proofs.Marker.Word

/-!
# Marker lines renamed

Renaming within a line leaves its directives alone, and the entries of the line stay behind the
colon where they were found: no token holds a colon, so a token is found where the text up to the
next colon is one of the tokens.
-/
namespace Traceability.Marker

open Editor (Replaced dropStem?_replaced continuesWord_replaced)
open Identifier (Spelled)

variable {old new line t t' w : Text}

/-! ## Directives -/

section Directive

variable (spelled : Spelled old) (spelled' : Spelled new)

include spelled spelled'

theorem startsWithWord_replaced (small : w.any Identifier.isCapital = false)
    (replaced : Replaced old new t t') : startsWithWord w t = startsWithWord w t' := by
  rw [startsWithWord, startsWithWord]
  have behind := dropStem?_replaced spelled spelled' small replaced
  generalize Text.dropStem? w t = rest, Text.dropStem? w t' = rest' at behind
  cases behind with
  | none => rfl
  | some inner => simp only [continuesWord_replaced spelled spelled' inner]

theorem isOn_replaced (replaced : Replaced old new t t') (d : Directive) :
    d.isOn t' = d.isOn t := by
  obtain ⟨w, shape, small⟩ := exists_word d
  rw [Directive.isOn, Directive.isOn]
  induction replaced with
  | nil => rfl
  | keep c rest ih =>
    rw [hasWord, hasWord, ih,
      startsWithWord_replaced spelled spelled' small (.keep c rest)]
  | swap rest ih =>
    have sign : Identifier.isTokenChar '@' = false := by decide
    rw [shape, hasWord_append (spelled.not_mem sign), hasWord_append (spelled'.not_mem sign),
      ← shape, ih]

end Directive

theorem Hiding.step_congr (same : ∀ d : Directive, d.isOn t' = d.isOn t) (h : Hiding) :
    h.step t' = h.step t := by
  simp only [Hiding.step, same]

section Visible

variable {lines : List (Text × Nat)} {f : Text × Nat → Text}

theorem Hiding.keep_map (same : ∀ l ∈ lines, ∀ d : Directive, d.isOn (f l) = d.isOn l.1)
    (h : Hiding) : h.keep (lines.map fun l => (f l, l.2)) =
      (h.keep lines).map fun l => (f l, l.2) := by
  induction lines generalizing h with
  | nil => rfl
  | cons l rest ih =>
    obtain ⟨here, later⟩ := List.forall_mem_cons.mp same
    rw [List.map_cons, Hiding.keep, Hiding.keep, Hiding.step_congr here]
    generalize h.step l.1 = outcome
    obtain ⟨kept, h⟩ := outcome
    cases kept with
    | false => exact ih later h
    | true => exact congrArg _ (ih later h)

theorem map_zipIdx_map (f : Text × Nat → Text) (lines : List Text) (n : Nat) :
    ((lines.zipIdx n).map f).zipIdx n = (lines.zipIdx n).map fun l => (f l, l.2) := by
  induction lines generalizing n with
  | nil => rfl
  | cons l rest ih => simp [ih]

/-- Lines that keep their directives stay as visible as they are. -/
theorem visibleLines_map {lines : List Text}
    (same : ∀ l ∈ lines.zipIdx 1, ∀ d : Directive, d.isOn (f l) = d.isOn l.1) :
    visibleLines ((lines.zipIdx 1).map f) = (visibleLines lines).map fun l => (f l, l.2) := by
  have file : ((lines.zipIdx 1).map f).any Directive.file.isOn = lines.any Directive.file.isOn := by
    conv_rhs => rw [← List.zipIdx_map_fst 1 lines]
    rw [List.any_map, List.any_map, Bool.eq_iff_iff, List.any_eq_true, List.any_eq_true]
    exact exists_congr fun l => and_congr_right fun member => by
      rw [Function.comp, Function.comp, same l member]
  rw [visibleLines, visibleLines, file, map_zipIdx_map, Hiding.keep_map same]
  split <;> rfl

end Visible

/-! ## The entries of a line -/

section Entries

variable {tokens : List Text} {token entries entries' : Text} {column offset : Nat}

/-- Whether entries can stand behind a colon in the place of others: they are the same, or none of
the two starts with a blank. -/
def Alike (entries entries' : Text) : Prop :=
  entries' = entries ∨ ((∃ c ∈ entries.head?, Text.isBlank c = false) ∧
    ∃ c ∈ entries'.head?, Text.isBlank c = false)

/-- Whether entries do not start with a blank, unless it is all there is. -/
def Trimmed (entries : Text) : Prop :=
  (∃ c ∈ entries.head?, Text.isBlank c = false) ∨ ∃ c, entries = [c] ∧ Text.isBlank c = true

theorem Trimmed.ne_nil (trimmed : Trimmed entries) : entries ≠ [] := by
  rcases trimmed with ⟨c, first, _⟩ | ⟨c, rfl, _⟩
  · rintro rfl
    cases first
  · exact List.cons_ne_nil c []

theorem exists_entriesBehind? (filled : t ≠ []) : ∃ gap entries,
    t = gap ++ entries ∧ Trimmed entries ∧ ∀ entries', Alike entries entries' →
      entriesBehind? (gap ++ entries') = some (gap.length, entries') := by
  cases trimmed : Text.trimStart t with
  | nil =>
    -- All is blank, and the last character is the entries.
    have blank : Text.isBlank (t.getLast filled) = true :=
      List.dropWhile_eq_nil_iff.mp trimmed _ (List.getLast_mem filled)
    refine ⟨t.dropLast, [t.getLast filled], (List.dropLast_concat_getLast filled).symm,
      .inr ⟨_, rfl, blank⟩, ?_⟩
    rintro entries' (rfl | ⟨⟨c, first, full⟩, _⟩)
    · rw [List.dropLast_concat_getLast filled, entriesBehind?, trimmed]
      simp [List.getLast?_eq_some_getLast filled]
    · cases first
      rw [blank] at full
      cases full
  | cons c body =>
    have parts : t.takeWhile Text.isBlank ++ Text.trimStart t = t := List.takeWhile_append_dropWhile
    have gap : ∀ c ∈ t.takeWhile Text.isBlank, Text.isBlank c = true :=
      fun c member => List.mem_takeWhile_imp member
    have first : Text.isBlank c = false := by
      have stop := List.head?_dropWhile_not Text.isBlank t
      rw [Text.trimStart] at trimmed
      rwa [trimmed] at stop
    refine ⟨t.takeWhile Text.isBlank, c :: body, by rw [← trimmed, parts], .inl ⟨c, rfl, first⟩, ?_⟩
    intro entries' alike
    obtain ⟨d, rest, rfl, full⟩ : ∃ d rest, entries' = d :: rest ∧ Text.isBlank d = false := by
      rcases alike with rfl | ⟨_, d, first', full⟩
      · exact ⟨c, body, rfl, first⟩
      · obtain ⟨rest, rfl⟩ := List.head?_eq_some_iff.mp first'
        exact ⟨d, rest, rfl, full⟩
    rw [entriesBehind?, Text.trimStart_eq gap (by simpa using full)]
    simp

theorem entriesBehind?_ne_none (filled : t ≠ []) : ∃ behind, entriesBehind? t = some behind := by
  obtain ⟨gap, entries, rfl, _, again⟩ := exists_entriesBehind? filled
  exact ⟨_, again entries (.inl rfl)⟩

theorem Alike.ne_nil (alike : Alike entries entries') (filled : entries ≠ []) : entries' ≠ [] := by
  rcases alike with rfl | ⟨_, c, first, _⟩
  · exact filled
  · rintro rfl
    cases first

theorem exists_of_entriesAt? {x : Text × Nat × Text} (found : entriesAt? t token = some x) :
    ∃ rest behind, t = token ++ ':' :: rest ∧ entriesBehind? rest = some behind ∧
      x = (token, token.length + 1 + behind.1, behind.2) := by
  simp only [entriesAt?, Option.bind_eq_bind, Option.bind_eq_some_iff, Option.pure_def,
    Option.some.injEq, Text.dropStem?_eq_some_iff] at found
  obtain ⟨_, rfl, rest, rfl, behind, here, rfl⟩ := found
  exact ⟨rest, behind, rfl, here, rfl⟩

theorem entriesAt?_self (token : Text) {behind : Nat × Text}
    (here : entriesBehind? t = some behind) : entriesAt? (token ++ ':' :: t) token =
      some (token, token.length + 1 + behind.1, behind.2) := by
  simp only [entriesAt?, Option.bind_eq_bind, Option.bind_eq_some_iff, Option.pure_def,
    Option.some.injEq, Text.dropStem?_eq_some_iff]
  exact ⟨_, rfl, t, rfl, behind, here, rfl⟩

/-- Only one token stands in front of the first colon. -/
theorem entriesAt?_of_ne (free : ':' ∉ w) (plain : ':' ∉ token) (other : w ≠ token) (t : Text) :
    entriesAt? (w ++ ':' :: t) token = none := by
  rw [Option.eq_none_iff_forall_ne_some]
  intro x found
  obtain ⟨rest, _, shape, _⟩ := exists_of_entriesAt? found
  have behind : t = rest := Text.eq_behind_first free plain shape
  exact other (List.append_cancel_right (behind ▸ shape))

theorem findSome?_entriesAt? (free : ':' ∉ w) (plain : ∀ token ∈ tokens, ':' ∉ token)
    {found : Nat × Text} (behind : entriesBehind? t = some found) :
    tokens.findSome? (entriesAt? (w ++ ':' :: t)) =
      if w ∈ tokens then some (w, w.length + 1 + found.1, found.2) else none := by
  induction tokens with
  | nil => simp
  | cons token tokens ih =>
    obtain ⟨first, plain⟩ := List.forall_mem_cons.mp plain
    rw [List.findSome?_cons]
    by_cases same : w = token
    · subst same
      rw [entriesAt?_self w behind]
      simp
    · rw [entriesAt?_of_ne free first same, ih plain]
      simp [same]

theorem exists_gap (found : entriesBehind? t = some (offset, entries)) :
    ∃ gap, t = gap ++ entries ∧ offset = gap.length := by
  have filled : t ≠ [] := by
    rintro rfl
    cases found
  obtain ⟨gap, behind, rfl, _, again⟩ := exists_entriesBehind? filled
  cases (again behind (.inl rfl)).symm.trans found
  exact ⟨gap, rfl, rfl⟩

/-- The entries end the line, and start at their column. -/
theorem exists_before (found : entriesFrom? tokens column t = some (token, offset, entries)) :
    ∃ before, t = before ++ entries ∧ offset = column + before.length := by
  induction t generalizing column with
  | nil => cases found
  | cons c t ih =>
    rw [entriesFrom?] at found
    cases here : tokens.findSome? (entriesAt? (c :: t)) with
    | some x =>
      rw [here] at found
      cases found
      obtain ⟨token, _, at'⟩ := List.exists_of_findSome?_eq_some here
      obtain ⟨rest, ⟨skipped, entries⟩, shape, behind, rfl⟩ := exists_of_entriesAt? at'
      obtain ⟨gap, rfl, rfl⟩ := exists_gap behind
      refine ⟨token ++ ':' :: gap, by simp [shape], ?_⟩
      simp only [List.length_append, List.length_cons]
      omega
    | none =>
      rw [here] at found
      obtain ⟨before, rfl, rfl⟩ := ih found
      refine ⟨c :: before, rfl, ?_⟩
      rw [List.length_cons]
      omega

theorem entriesFrom?_of_findSome? (found : tokens.findSome? (entriesAt? t) =
    some (token, offset, entries)) (filled : t ≠ []) (column : Nat) :
    entriesFrom? tokens column t = some (token, column + offset, entries) := by
  obtain ⟨c, t, rfl⟩ := List.exists_cons_of_ne_nil filled
  rw [entriesFrom?, found]

/-- Whether a token stands in front of the next colon does not depend on what is behind it. -/
theorem findSome?_entriesAt?_eq_none (plain : ∀ token ∈ tokens, ':' ∉ token) {before : Text}
    (colon : ':' ∈ before) {entries' : Text} (filled : entries ≠ []) (filled' : entries' ≠ [])
    (here : tokens.findSome? (entriesAt? (before ++ entries)) = none) :
    tokens.findSome? (entriesAt? (before ++ entries')) = none := by
  obtain ⟨w, rest, rfl, free⟩ := List.eq_append_cons_of_mem colon
  have whole (entries : Text) : w ++ ':' :: rest ++ entries = w ++ ':' :: (rest ++ entries) := by
    rw [List.append_assoc, List.cons_append]
  rw [whole] at here ⊢
  have absent : w ∉ tokens := by
    intro member
    obtain ⟨behind, skipped⟩ :=
      entriesBehind?_ne_none (List.append_ne_nil_of_right_ne_nil rest filled)
    rw [findSome?_entriesAt? free plain skipped, if_pos member] at here
    cases here
  obtain ⟨behind, skipped⟩ :=
    entriesBehind?_ne_none (List.append_ne_nil_of_right_ne_nil rest filled')
  rw [findSome?_entriesAt? free plain skipped, if_neg absent]

/-- The entries are found again where others stand in their place. -/
theorem exists_of_entriesFrom? (plain : ∀ token ∈ tokens, ':' ∉ token) {column' : Nat}
    (found : entriesFrom? tokens column t = some (token, column', entries)) :
    ∃ before, t = before ++ entries ∧ column' = column + before.length ∧ ':' ∈ before ∧
      Trimmed entries ∧ ∀ entries', Alike entries entries' →
        entriesFrom? tokens column (before ++ entries') = some (token, column', entries') := by
  induction t generalizing column with
  | nil => cases found
  | cons c t ih =>
    rw [entriesFrom?] at found
    cases here : tokens.findSome? (entriesAt? (c :: t)) with
    | some x =>
      rw [here] at found
      cases found
      obtain ⟨token, member, at'⟩ := List.exists_of_findSome?_eq_some here
      obtain ⟨rest, behind, shape, skipped, rfl⟩ := exists_of_entriesAt? at'
      have filled : rest ≠ [] := by
        rintro rfl
        cases skipped
      obtain ⟨gap, entries, rfl, trimmed, again⟩ := exists_entriesBehind? filled
      cases (again entries (.inl rfl)).symm.trans skipped
      refine ⟨token ++ ':' :: gap, by simp [shape], ?_, by simp, trimmed, fun entries' alike => ?_⟩
      · simp only [List.length_append, List.length_cons]
        omega
      · have next : tokens.findSome? (entriesAt? (token ++ ':' :: (gap ++ entries'))) =
            some (token, token.length + 1 + gap.length, entries') := by
          rw [findSome?_entriesAt? (plain token member) plain (again entries' alike), if_pos member]
        rw [List.append_assoc, List.cons_append]
        exact entriesFrom?_of_findSome? next (by simp) column
    | none =>
      rw [here] at found
      obtain ⟨before, rfl, rfl, colon, trimmed, again⟩ := ih found
      refine ⟨c :: before, rfl, by simp only [List.length_cons]; omega,
        List.mem_cons_of_mem _ colon, trimmed, fun entries' alike => ?_⟩
      have inside := List.mem_cons_of_mem c colon
      have none := findSome?_entriesAt?_eq_none plain inside trimmed.ne_nil
        (alike.ne_nil trimmed.ne_nil) here
      rw [List.cons_append] at none ⊢
      rw [entriesFrom?, none]
      exact again entries' alike

end Entries

/-! ## A marker line -/

section Line

variable {tokens : List Text} {path entries : Text} {number : Nat}

theorem plain_tokenOrder (plain : ∀ token ∈ tokens, ':' ∉ token) :
    ∀ token ∈ tokenOrder tokens, ':' ∉ token := by
  intro token member
  unfold tokenOrder at member
  split at member
  · rw [List.mem_singleton.mp member]
    exact List.not_mem_nil
  · exact plain token (mem_sortBy.mp member)

/-- A text whose entries are renamed. -/
def renameEntries (old new entries : Text) : Text :=
  Text.join [','] ((Text.splitOn ',' entries).map (renameEntry old new))

theorem replaced_renameEntries (old new entries : Text) :
    Replaced old new entries (renameEntries old new entries) := by
  have replaced := replaced_join old new (Text.splitOn ',' entries)
  rwa [Text.join_splitOn] at replaced

theorem renameEntries_eq_self (absent : ∀ entry ∈ Text.splitOn ',' entries,
    Identifier.leadingToken? (Text.trim entry) ≠ some old) :
    renameEntries old new entries = entries := by
  have same : (Text.splitOn ',' entries).map (renameEntry old new) = Text.splitOn ',' entries :=
    (List.map_congr_left fun entry member => if_neg (absent entry member)).trans (List.map_id _)
  rw [renameEntries, same, Text.join_splitOn]

theorem renameEntries_of_not_spelled (other : ¬ Spelled old) (entries : Text) :
    renameEntries old new entries = entries :=
  renameEntries_eq_self fun _ _ found => other (Identifier.spelled_of_leadingToken? found)

theorem splitOn_renameEntries (spelled' : Spelled new) (entries : Text) :
    Text.splitOn ',' (renameEntries old new entries) =
      (Text.splitOn ',' entries).map (renameEntry old new) := by
  refine Text.splitOn_join (by simp [Text.splitOn_ne_nil]) ?_
  simp only [List.forall_mem_map]
  exact fun entry member => (replaced_renameEntry old new entry).not_mem
    (spelled'.not_mem (by decide)) (Text.not_mem_of_mem_splitOn member)

theorem alike_renameEntries (spelled' : Spelled new) (trimmed : Trimmed entries) :
    Alike entries (renameEntries old new entries) := by
  by_cases spelled : Spelled old
  · rcases trimmed with filled | ⟨c, rfl, blank⟩
    · refine .inr ⟨filled, ?_⟩
      rcases (replaced_renameEntries old new entries).head_eq spelled.ne_nil spelled'.ne_nil with
        same | ⟨_, first⟩
      · rwa [← same]
      · obtain ⟨c, more, rfl, _⟩ := spelled'.capital
        exact ⟨c, first, spelled'.not_isBlank c List.mem_cons_self⟩
    · refine .inl (renameEntries_eq_self fun entry member => ?_)
      have comma : c ≠ ',' := by
        rintro rfl
        exact absurd blank (by decide)
      have empty : Text.trim [c] = [] := by
        simp [Text.trim, Text.trimStart, Text.trimEnd, Text.dropEndWhile, blank]
      rw [Text.splitOn_of_not_mem (by simpa using comma.symm), List.mem_singleton] at member
      have nothing : Identifier.leadingToken? [] = none := rfl
      rw [member, empty, nothing]
      intro never
      cases never
  · exact .inl (renameEntries_of_not_spelled spelled entries)

theorem scanLine_of_some {token : Text} {column : Nat} {kind : MarkerKind}
    (found : entriesOf? tokens line = some (token, column, entries))
    (known : kindOfToken? tokens token = some kind) :
    scanLine tokens path (line, number) =
      scanEntries kind path number column (Text.splitOn ',' entries) := by
  rw [scanLine, found]
  simp only [known]

/-- A line has no markers, or they are those of the entries that end it. -/
theorem scanLine_cases (plain : ∀ token ∈ tokens, ':' ∉ token) (path line : Text) (number : Nat) :
    scanLine tokens path (line, number) = {} ∨ ∃ before entries kind,
      line = before ++ entries ∧ Trimmed entries ∧ ∀ entries', Alike entries entries' →
        scanLine tokens path (before ++ entries', number) =
          scanEntries kind path number before.length (Text.splitOn ',' entries') := by
  cases found : entriesOf? tokens line with
  | none =>
    left
    rw [scanLine, found]
  | some x =>
    obtain ⟨token, column, entries⟩ := x
    cases known : kindOfToken? tokens token with
    | none =>
      left
      rw [scanLine, found]
      simp only [known]
    | some kind =>
      right
      obtain ⟨before, rfl, rfl, _, trimmed, again⟩ :=
        exists_of_entriesFrom? (plain_tokenOrder plain) found
      rw [Nat.zero_add] at again
      exact ⟨before, entries, kind, rfl, trimmed,
        fun entries' alike => scanLine_of_some (again entries' alike) known⟩

/-- The markers of a line, if it has any, are those of the entries that end it. -/
theorem scanLine_eq (tokens : List Text) (path line : Text) (number : Nat) :
    scanLine tokens path (line, number) = {} ∨ ∃ before entries kind, line = before ++ entries ∧
      scanLine tokens path (line, number) =
        scanEntries kind path number before.length (Text.splitOn ',' entries) := by
  cases found : entriesOf? tokens line with
  | none =>
    left
    rw [scanLine, found]
  | some x =>
    obtain ⟨token, column, entries⟩ := x
    cases known : kindOfToken? tokens token with
    | none =>
      left
      rw [scanLine, found]
      simp only [known]
    | some kind =>
      obtain ⟨before, rfl, rfl⟩ := exists_before found
      rw [Nat.zero_add] at found
      exact .inr ⟨before, entries, kind, rfl, scanLine_of_some found known⟩

theorem standsIn_of_mem_scanLine {m : Marker}
    (member : m ∈ (scanLine tokens path (line, number)).markers) : m.StandsIn number 0 line := by
  rcases scanLine_eq tokens path line number with none | ⟨before, entries, kind, rfl, scanned⟩
  · rw [none] at member
    cases member
  · rw [scanned] at member
    have stands := standsIn_of_mem_scanEntries member
    rw [Text.join_splitOn, ← Nat.zero_add before.length] at stands
    exact stands.behind

theorem pairwise_scanLine (tokens : List Text) (path line : Text) (number : Nat) :
    (scanLine tokens path (line, number)).markers.Pairwise fun m m' => m.stop ≤ m'.start := by
  rcases scanLine_eq tokens path line number with none | ⟨before, entries, kind, rfl, scanned⟩
  · rw [none]
    exact .nil
  · rw [scanned]
    exact pairwise_scanEntries kind path number _ _

/-- A line with its markers renamed. -/
def renameLine (tokens : List Text) (old new path : Text) : Text × Nat → Text
  | (line, number) =>
    Editor.spliceFrom 0 (Editor.markerEdits old new (scanLine tokens path (line, number)).markers)
      line

/-- Renaming in a line changes its entries, which are found again. -/
theorem renameLine_cases (plain : ∀ token ∈ tokens, ':' ∉ token) (spelled' : Spelled new)
    (old path line : Text) (number : Nat) :
    renameLine tokens old new path (line, number) = line ∧
        (scanLine tokens path (line, number)).markers = [] ∨
      ∃ before entries kind, line = before ++ entries ∧
        renameLine tokens old new path (line, number) = before ++ renameEntries old new entries ∧
        scanLine tokens path (line, number) =
          scanEntries kind path number before.length (Text.splitOn ',' entries) ∧
        scanLine tokens path (before ++ renameEntries old new entries, number) =
          scanEntries kind path number before.length
            ((Text.splitOn ',' entries).map (renameEntry old new)) := by
  rcases scanLine_cases plain path line number with
    none | ⟨before, entries, kind, rfl, trimmed, scanned⟩
  · left
    rw [renameLine, none]
    exact ⟨rfl, rfl⟩
  · right
    have here := scanned entries (.inl rfl)
    refine ⟨before, entries, kind, rfl, ?_, here, ?_⟩
    · have behind : ∀ e ∈ Editor.markerEdits old new
          (scanEntries kind path number before.length (Text.splitOn ',' entries)).markers,
          0 + before.length ≤ e.span.start ∧ e.span.start ≤ e.span.stop :=
        fun e member => by simpa using behind_of_mem_markerEdits member
      have spliced := @spliceFrom_entries kind path old new number before.length
        (Text.splitOn ',' entries)
      rw [Text.join_splitOn] at spliced
      rw [renameLine, here, Editor.spliceFrom_append behind, Nat.zero_add, spliced]
      rfl
    · rw [scanned _ (alike_renameEntries spelled' trimmed), splitOn_renameEntries spelled']

theorem renameLine_eq_or_replaced (plain : ∀ token ∈ tokens, ':' ∉ token) (spelled' : Spelled new)
    (old path line : Text) (number : Nat) :
    renameLine tokens old new path (line, number) = line ∨
      Spelled old ∧ Replaced old new line (renameLine tokens old new path (line, number)) := by
  rcases renameLine_cases plain spelled' old path line number with
    ⟨same, _⟩ | ⟨before, entries, kind, rfl, renamed, _⟩
  · exact .inl same
  · rw [renamed]
    by_cases spelled : Spelled old
    · exact .inr ⟨spelled, (Replaced.refl before).append (replaced_renameEntries old new entries)⟩
    · exact .inl (by rw [renameEntries_of_not_spelled spelled])

theorem map_key_scanLine (plain : ∀ token ∈ tokens, ':' ∉ token)
    (whole : Identifier.leadingToken? new = some new)
    (clean : Clean (scanLine tokens path (line, number))) :
    (scanLine tokens path (renameLine tokens old new path (line, number), number)).markers.map key =
      (scanLine tokens path (line, number)).markers.map (renamedKey old new) := by
  have spelled' := Identifier.spelled_of_leadingToken? whole
  rcases renameLine_cases plain spelled' old path line number with
    ⟨same, none⟩ | ⟨before, entries, kind, rfl, renamed, here, again⟩
  · rw [same, none]
    rfl
  · rw [here] at clean
    rw [renamed, here, again, map_key_scanEntries clean whole]

end Line

end Traceability.Marker
