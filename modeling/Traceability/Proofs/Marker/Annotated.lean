import Traceability.Proofs.Listing

/-!
# Marker lines read back

A comment of a token, a colon and entries between commas, each an identifier with or without a remark
in parentheses, is scanned to just these identifiers. The list is cut at its commas before anything
else is read, so a remark must not hold any. A token that ends with another one, with no more than the
sign of the comment in front, announces in its place.
-/
namespace Traceability.Marker

open Identifier (Spelled EndsToken leadingToken?)

variable {t : Text} {c : Char}

/-! ## Entries -/

/-- An identifier with or without a remark behind it. -/
structure Entry where
  id : Text
  remark : Option Text
deriving DecidableEq, Repr

namespace Entry

/-- The remark in parentheses. -/
def tail (e : Entry) : Text := e.remark.elim [] fun r => " (" ++ r ++ ")"

def text (e : Entry) : Text := e.id ++ e.tail

/-- An identifier that is one token, and a remark on one line without parentheses, commas and
directives. -/
structure Regular (e : Entry) : Prop where
  whole : leadingToken? e.id = some e.id
  unbroken : ∀ r ∈ e.remark, Text.Unbroken r
  undirected : ∀ r ∈ e.remark, Undirected r
  enclosed : ∀ r ∈ e.remark, '(' ∉ r ∧ ')' ∉ r
  uncut : ∀ r ∈ e.remark, ',' ∉ r

variable {e : Entry}

theorem tail_cases (e : Entry) :
    e.tail = [] ∨ ∃ r ∈ e.remark, e.tail = ' ' :: '(' :: (r ++ [')']) := by
  obtain ⟨id, remark⟩ := e
  cases remark with
  | none => exact .inl rfl
  | some r => exact .inr ⟨r, rfl, rfl⟩

theorem Regular.spelled (regular : e.Regular) : Spelled e.id :=
  Identifier.spelled_of_leadingToken? regular.whole

theorem Regular.unbroken_text (regular : e.Regular) : Text.Unbroken e.text := by
  refine List.forall_mem_append.mpr ⟨regular.spelled.unbroken, ?_⟩
  rcases tail_cases e with none | ⟨r, own, some⟩
  · rw [none]
    exact List.forall_mem_nil _
  · rw [some, List.forall_mem_cons, List.forall_mem_cons, List.forall_mem_append]
    exact ⟨rfl, rfl, regular.unbroken r own, List.forall_mem_singleton.mpr rfl⟩

theorem Regular.undirected_text (regular : e.Regular) : Undirected e.text := by
  have id : Undirected e.id := undirected_of_not_mem (regular.spelled.not_mem (by decide))
  rw [text]
  rcases tail_cases e with none | ⟨r, own, some⟩
  · rwa [none, List.append_nil]
  · have remark : Undirected (r ++ [')']) :=
      .append (parts_of_mem (by decide)) (regular.undirected r own) undirected_nil
    have opened : Undirected ('(' :: (r ++ [')'])) := .cons (parts_of_mem (by decide)) remark
    rw [some]
    exact .append (parts_of_mem (by decide)) id opened

theorem Regular.uncut_text (regular : e.Regular) : ',' ∉ e.text := by
  rw [text, List.mem_append, not_or]
  refine ⟨regular.spelled.not_mem (by decide), ?_⟩
  rcases tail_cases e with none | ⟨r, own, some⟩
  · rw [none]
    exact List.not_mem_nil
  · rw [some]
    simpa using regular.uncut r own

theorem trimEnd_closed (t : Text) : Text.trimEnd (t ++ [')']) = t ++ [')'] := by
  have full : Text.isBlank ')' = false := by decide
  simp [Text.trimEnd, Text.dropEndWhile, full]

theorem trimEnd_tail (e : Entry) : Text.trimEnd e.tail = e.tail := by
  rcases tail_cases e with none | ⟨r, -, some⟩
  · rw [none]
    rfl
  · rw [some]
    exact trimEnd_closed (' ' :: '(' :: r)

theorem endsToken_tail (e : Entry) : EndsToken e.tail := by
  rcases tail_cases e with none | ⟨r, -, some⟩
  · rw [none]
    exact Identifier.endsToken_nil
  · rw [some]
    exact Identifier.endsToken_cons (by decide) _

theorem dropRemark?_closed (enclosed : '(' ∉ t ∧ ')' ∉ t) :
    dropRemark? ('(' :: (t ++ [')'])) = some [] := by
  have inner : ∀ c ∈ t, (c ≠ '(' && c ≠ ')') = true := by
    intro c member
    simp only [Bool.and_eq_true, decide_eq_true_eq]
    exact ⟨ne_of_mem_of_not_mem member enclosed.1, ne_of_mem_of_not_mem member enclosed.2⟩
  have opened : Text.dropStem? "(" ('(' :: (t ++ [')'])) = some (t ++ [')']) :=
    Text.dropStem?_eq_some_iff.mpr rfl
  rw [dropRemark?, opened]
  simp only [Option.bind_eq_bind, Option.bind_some, List.dropWhile_append_of_pos inner]
  rfl

/-- A remark is nothing unexpected. -/
theorem Regular.trailingText_tail (regular : e.Regular) : trailingText e.tail = [] := by
  rcases tail_cases e with none | ⟨r, own, some⟩
  · rw [none]
    decide
  · have trimmed : Text.trim e.tail = '(' :: (r ++ [')']) := by
      have blank : ∀ c ∈ [' '], Text.isBlank c = true := List.forall_mem_singleton.mpr rfl
      have full : ∀ c ∈ ['('], Text.isBlank c = false := List.forall_mem_singleton.mpr rfl
      rw [some]
      refine (Text.trim_eq blank (List.cons_ne_nil _ _) full (r ++ [')'])).trans ?_
      rw [trimEnd_closed]
      rfl
    have nothing : Text.trim [] = [] := rfl
    rw [trailingText, trimmed, dropRemark?_closed (regular.enclosed r own), Option.map_some,
      Option.getD_some, nothing]
    decide

end Entry

variable {e : Entry} {entries : List Entry} {kind : MarkerKind} {path : Text} {line column : Nat}

/-- An entry is scanned to its identifier. -/
theorem scanEntry_text (regular : e.Regular) {lead : Text}
    (blank : ∀ c ∈ lead, Text.isBlank c = true) :
    scanEntry kind path line column (lead ++ e.text) =
      ⟨[⟨kind, e.id, path, line, column + lead.length, column + lead.length + e.id.length⟩], []⟩ := by
  have trimmed : Text.trim (lead ++ e.text) = e.id ++ e.tail := by
    rw [Entry.text, trim_entry regular.spelled blank, Entry.trimEnd_tail]
  have found := Identifier.leadingToken?_append regular.whole e.endsToken_tail
  have indent : Text.indent (lead ++ e.text) = lead.length := indent_entry regular.spelled blank
  simp only [scanEntry, trimmed, found, indent, List.drop_left, regular.trailingText_tail, if_pos]

/-- Entries behind commas are scanned to their identifiers, one after the other. -/
theorem scanEntries_texts (regular : ∀ e ∈ entries, e.Regular) (column : Nat) :
    (scanEntries kind path line column (entries.map (' ' :: ·.text))).markers.map
        (fun m => (m.kind, m.id)) = entries.map (fun e => (kind, e.id)) ∧
      (scanEntries kind path line column (entries.map (' ' :: ·.text))).findings = [] := by
  induction entries generalizing column with
  | nil => exact ⟨rfl, rfl⟩
  | cons e rest ih =>
    obtain ⟨first, regular⟩ := List.forall_mem_cons.mp regular
    have here := @scanEntry_text e kind path line column first [' ']
      (List.forall_mem_singleton.mpr rfl)
    obtain ⟨markers, findings⟩ := ih regular (column + (' ' :: e.text).length + 1)
    rw [List.singleton_append] at here
    rw [List.map_cons, scanEntries, here, MarkerScan.append, List.map_append, markers, findings]
    exact ⟨rfl, rfl⟩

theorem scanEntries_join (filled : entries ≠ []) (regular : ∀ e ∈ entries, e.Regular) :
    let scanned := scanEntries kind path line column
      (Text.splitOn ',' (Text.join ", " (entries.map (·.text))))
    scanned.markers.map (fun m => (m.kind, m.id)) = entries.map (fun e => (kind, e.id)) ∧
      scanned.findings = [] := by
  obtain ⟨e, rest, rfl⟩ := List.exists_cons_of_ne_nil filled
  have free : ∀ i ∈ e.text :: rest.map (·.text), ',' ∉ i := by
    rw [← List.map_cons (f := Entry.text), List.forall_mem_map]
    exact fun e member => (regular e member).uncut_text
  obtain ⟨first, regular⟩ := List.forall_mem_cons.mp regular
  have here := @scanEntry_text e kind path line column first [] (List.forall_mem_nil _)
  obtain ⟨markers, findings⟩ := @scanEntries_texts rest kind path line regular
    (column + e.text.length + 1)
  rw [List.nil_append] at here
  rw [List.map_cons, Text.splitOn_list free, List.map_map, scanEntries, here, MarkerScan.append]
  dsimp only [Function.comp_def]
  rw [List.map_append, markers, findings]
  exact ⟨rfl, rfl⟩

/-! ## The line -/

variable {tokens : List Text} {token : Text}

/-- A comment of a token and entries. -/
def comment (token : Text) (entries : List Entry) : Text :=
  "# " ++ token ++ ": " ++ Text.join ", " (entries.map (·.text))

/-- The token that stands first in the comment of a token: the longest one that ends with it. -/
def announced (tokens : List Text) (token : Text) : Text :=
  if "# " ++ token ∈ tokens then "# " ++ token
  else if " " ++ token ∈ tokens then " " ++ token
  else token

theorem announced_mem (member : token ∈ tokens) : announced tokens token ∈ tokens := by
  rw [announced]
  split
  · assumption
  · split <;> assumption

theorem mem_tokenOrder_iff (listed : tokens ≠ []) : token ∈ tokenOrder tokens ↔ token ∈ tokens := by
  rw [tokenOrder, if_neg listed, mem_sortBy]

theorem entriesFrom?_cons_of_none (none : tokens.findSome? (entriesAt? (c :: t)) = none)
    (column : Nat) : entriesFrom? tokens column (c :: t) = entriesFrom? tokens (column + 1) t := by
  rw [entriesFrom?, none]

/-- The entries of a comment are found behind the token that stands first. -/
theorem entriesOf?_comment (plain : ∀ token ∈ tokens, ':' ∉ token) (member : token ∈ tokens)
    {list : Text} {found : Nat × Text} (behind : entriesBehind? (' ' :: list) = some found) :
    ∃ column, entriesOf? tokens ('#' :: ' ' :: (token ++ ':' :: ' ' :: list)) =
      some (announced tokens token, column, found.2) := by
  have listed : tokens ≠ [] := List.ne_nil_of_mem member
  have alone : ':' ∉ token := plain token member
  have here {w t : Text} (shape : t = w ++ ':' :: ' ' :: list) (free : ':' ∉ w) :
      (tokenOrder tokens).findSome? (entriesAt? t) =
        if w ∈ tokens then some (w, w.length + 1 + found.1, found.2) else none := by
    rw [shape, findSome?_entriesAt? free (plain_tokenOrder plain) behind]
    simp only [mem_tokenOrder_iff listed]
  have first := @here ('#' :: ' ' :: token) ('#' :: ' ' :: (token ++ ':' :: ' ' :: list)) rfl
    (by simpa using alone)
  have second := @here (' ' :: token) (' ' :: (token ++ ':' :: ' ' :: list)) rfl
    (by simpa using alone)
  have third := here rfl alone
  rw [if_pos member] at third
  have stands : announced tokens token = if '#' :: ' ' :: token ∈ tokens then '#' :: ' ' :: token
      else if ' ' :: token ∈ tokens then ' ' :: token else token := rfl
  rw [entriesOf?, stands]
  by_cases signed : '#' :: ' ' :: token ∈ tokens
  · rw [if_pos signed] at first ⊢
    exact ⟨_, entriesFrom?_of_findSome? first (List.cons_ne_nil _ _) 0⟩
  rw [if_neg signed] at first ⊢
  by_cases spaced : ' ' :: token ∈ tokens
  · rw [if_pos spaced] at second ⊢
    rw [entriesFrom?_cons_of_none first]
    exact ⟨_, entriesFrom?_of_findSome? second (List.cons_ne_nil _ _) 1⟩
  · rw [if_neg spaced] at second ⊢
    rw [entriesFrom?_cons_of_none first, entriesFrom?_cons_of_none second]
    exact ⟨_, entriesFrom?_of_findSome? third (by simp) 2⟩

/-- Every one of at most three tokens announces the kind of its place. -/
theorem exists_kindOfToken? (few : tokens.length ≤ 3) (member : token ∈ tokens) :
    ∃ (kind : MarkerKind) (i : Nat), kindOfToken? tokens token = some kind ∧
      tokens[i]? = some token ∧ kindOrder[i]? = some kind := by
  have paired : ∃ x ∈ (tokens.zip kindOrder).reverse, decide (x.1 = token) = true := by
    have names : (tokens.zip kindOrder).map Prod.fst = tokens := List.map_fst_zip few
    rw [← names] at member
    obtain ⟨x, inside, rfl⟩ := List.mem_map.mp member
    exact ⟨x, List.mem_reverse.mpr inside, decide_eq_true rfl⟩
  obtain ⟨⟨t, kind⟩, found⟩ := Option.isSome_iff_exists.mp (List.find?_isSome.mpr paired)
  obtain rfl : t = token := by simpa using List.find?_some found
  obtain ⟨i, place⟩ :=
    List.mem_iff_getElem?.mp (List.mem_reverse.mp (List.mem_of_find?_eq_some found))
  obtain ⟨own, kinds⟩ := List.getElem?_zip_eq_some.mp place
  refine ⟨kind, i, ?_, own, kinds⟩
  rw [kindOfToken?, found]
  rfl

theorem unbroken_comment (unbroken : Text.Unbroken token) (regular : ∀ e ∈ entries, e.Regular) :
    Text.Unbroken (comment token entries) := by
  have sign : Text.Unbroken "# ".toList := by decide
  have colon : Text.Unbroken ": ".toList := by decide
  have comma : Text.Unbroken ", ".toList := by decide
  have list := Text.forall_mem_join comma
    (List.forall_mem_map.mpr fun e member => (regular e member).unbroken_text)
  simp only [comment, Text.Unbroken, List.forall_mem_append]
  exact ⟨⟨⟨sign, unbroken⟩, colon⟩, list⟩

theorem comment_eq (token : Text) (entries : List Entry) : comment token entries =
    '#' :: ' ' :: (token ++ ':' :: ' ' :: Text.join ", " (entries.map (·.text))) := by
  simp [comment]

theorem undirected_comment (undirected : token.includes "@spec-ignore" = false)
    (regular : ∀ e ∈ entries, e.Regular) : Undirected (comment token entries) := by
  rw [comment_eq]
  exact undirected_announcement undirected <|
    List.forall_mem_map.mpr fun e member => (regular e member).undirected_text

/-- A comment of a token and regular entries is scanned to the identifiers of the entries, with the
kind of the token that stands first, and nothing in it is unexpected. -/
theorem scan_comment (few : tokens.length ≤ 3) (plain : ∀ token ∈ tokens, ':' ∉ token)
    (member : token ∈ tokens) (unbroken : Text.Unbroken token)
    (undirected : token.includes "@spec-ignore" = false) (filled : entries ≠ [])
    (regular : ∀ e ∈ entries, e.Regular) (path : Text) :
    ∃ (kind : MarkerKind) (i : Nat), tokens[i]? = some (announced tokens token) ∧
      kindOrder[i]? = some kind ∧
      (scan tokens path (comment token entries)).markers.map (fun m => (m.kind, m.id)) =
        entries.map (fun e => (kind, e.id)) ∧
      (scan tokens path (comment token entries)).findings = [] := by
  obtain ⟨kind, i, known, place, kinds⟩ := exists_kindOfToken? few (announced_mem member)
  have behind : entriesBehind? (' ' :: Text.join ", " (entries.map (·.text))) =
      some (1, Text.join ", " (entries.map (·.text))) := by
    obtain ⟨e, rest, rfl⟩ := List.exists_cons_of_ne_nil filled
    have spelled := (regular e List.mem_cons_self).spelled
    obtain ⟨c, more, capital, -⟩ := spelled.capital
    have first : c ∈ e.text.head? := by
      rw [Entry.text, capital]
      rfl
    exact entriesBehind?_join first (spelled.not_isBlank c (capital ▸ List.mem_cons_self)) _
  obtain ⟨column, found⟩ := entriesOf?_comment plain member behind
  have scanned : scan tokens path (comment token entries) = scanEntries kind path 1 column
      (Text.splitOn ',' (Text.join ", " (entries.map (·.text)))) := by
    have nonempty : comment token entries ≠ [] := comment_eq token entries ▸ List.cons_ne_nil _ _
    rw [scan_line (unbroken_comment unbroken regular) nonempty
      (undirected_comment undirected regular), comment_eq, scanLine_of_some found known]
  rw [scanned]
  exact ⟨kind, i, place, kinds, scanEntries_join filled regular⟩

/-- Two entries, the first with a remark. -/
def remarked : List Entry := [⟨"X-1_AC-2", some "partial: the rest is open"⟩, ⟨"X-1.2_AC-3", none⟩]

theorem scan_comment_remarked :
    (defaultTokens.length ≤ 3 ∧ (∀ token ∈ defaultTokens, ':' ∉ token) ∧ remarked ≠ [] ∧
      ∀ e ∈ remarked, e.Regular) ∧
    (scan defaultTokens "a.py" (comment "@spec-test" remarked)).markers.map
        (fun m => (m.kind, m.id)) =
      [(.test, "X-1_AC-2".toList), (.test, "X-1.2_AC-3".toList)] ∧
    (scan defaultTokens "a.py" (comment "@spec-test" remarked)).findings = [] := by
  have few : defaultTokens.length ≤ 3 := by decide
  have plain : ∀ token ∈ defaultTokens, ':' ∉ token := by decide +kernel
  have member : "@spec-test".toList ∈ defaultTokens := by decide
  have regular : ∀ e ∈ remarked, e.Regular := by
    refine List.forall_mem_cons.mpr ⟨⟨by decide +kernel, ?_, ?_, ?_, ?_⟩,
      List.forall_mem_singleton.mpr ⟨by decide +kernel, nofun, nofun, nofun, nofun⟩⟩
    · rintro r ⟨⟩
      decide
    · rintro r ⟨⟩ d
      cases d <;> decide +kernel
    · rintro r ⟨⟩
      decide
    · rintro r ⟨⟩
      decide
  obtain ⟨kind, i, place, kinds, markers, findings⟩ := scan_comment few plain member (by decide)
    (by decide +kernel) (List.cons_ne_nil _ _) regular "a.py"
  have stands : announced defaultTokens "@spec-test" = "@spec-test".toList := by decide +kernel
  have second : i = 1 := by
    have inside : i < 3 := (List.getElem?_eq_some_iff.mp place).1
    have alone : ∀ i < 3, defaultTokens[i]? = some "@spec-test".toList → i = 1 := by
      decide +kernel
    exact alone i inside (stands ▸ place)
  rw [second] at kinds
  cases kinds
  exact ⟨⟨few, plain, List.cons_ne_nil _ _, regular⟩, markers, findings⟩

/-- Behind a comma in a remark another entry starts; and a token with the sign of the comment takes
the place of the token that it ends with. -/
theorem scan_comment_cut :
    (scan defaultTokens "a.py" (comment "@spec-impl" [⟨"X-1", some "a, b"⟩])).findings ≠ [] ∧
    (scan ["a", "# a", "b"] "a.py" (comment "a" [⟨"X-1", none⟩])).markers.map (·.kind) =
      [.test] := by
  decide +kernel

end Traceability.Marker
