import Mathlib.Data.List.Basic
import Traceability.Glob.Brace
import Traceability.Proofs.Path

/-!
# The language of a pattern with alternatives

A pattern whose braces are balanced is a tree: its groups hold alternatives, which are patterns again.
It stands for what choosing one alternative in every group leads to. Expansion replaces the groups of
the text one at a time, from the inside; each replacement is a step in the tree that loses nothing, and
where no group is nested it keeps the order, too.
-/
namespace Traceability.Glob

variable {t u v before body rest choice : Text} {n m : Nat}

/-! ## The recursion -/

/-- The calls that the expansion of a pattern makes, and what they return. -/
inductive Unfolds : Text → List Text → Prop
  | whole {t : Text} : group? t = none → Unfolds t [t]
  | replace {t before body rest : Text} {results : Text → List Text} :
      group? t = some (before, body, rest) →
      (∀ choice ∈ Text.splitOn ',' body, Unfolds (before ++ choice ++ rest) (results choice)) →
      Unfolds t ((Text.splitOn ',' body).flatMap results)

/-- Every replacement removes a brace that opens a group, and adds none. -/
theorem count_replaced (found : group? t = some (before, body, rest))
    (member : choice ∈ Text.splitOn ',' body) :
    (before ++ choice ++ rest).count '{' + 1 = t.count '{' := by
  obtain ⟨rfl, unbraced⟩ := eq_of_group?_eq_some found
  have closed : ∀ c ∈ body, c ≠ '{' := by
    rintro _ inside rfl
    exact absurd (unbraced _ inside) (by decide)
  have inBody : body.count '{' = 0 := List.count_eq_zero.mpr fun inside => closed _ inside rfl
  have inChoice : choice.count '{' = 0 :=
    List.count_eq_zero.mpr fun inside => closed _ (Text.mem_of_mem_splitOn member inside) rfl
  simp [inBody, inChoice]
  omega

theorem count_pos_of_group? (found : group? t = some (before, body, rest)) : 0 < t.count '{' := by
  obtain ⟨rfl, _⟩ := eq_of_group?_eq_some found
  exact List.count_pos_iff.mpr (List.mem_append_right before List.mem_cons_self)

theorem expandWithin_of_none (none : group? t = none) (n : Nat) : expandWithin n t = [t] := by
  cases n with
  | zero => rfl
  | succ n => rw [expandWithin, none]

/-- A bound that is at least the number of groups changes nothing. -/
theorem expandWithin_congr (enough : t.count '{' ≤ n) (enough' : t.count '{' ≤ m) :
    expandWithin n t = expandWithin m t := by
  induction n generalizing m t with
  | zero =>
    have none : group? t = none := by
      rw [Option.eq_none_iff_forall_ne_some]
      intro _ found
      exact absurd (count_pos_of_group? found) (Nat.not_lt_of_le enough)
    rw [expandWithin_of_none none, expandWithin_of_none none]
  | succ n ih =>
    cases found : group? t with
    | none => rw [expandWithin_of_none found, expandWithin_of_none found]
    | some group =>
      obtain ⟨before, body, rest⟩ := group
      obtain ⟨m, rfl⟩ : ∃ k, m = k + 1 :=
        Nat.exists_eq_succ_of_ne_zero
          (Nat.ne_of_gt (Nat.lt_of_lt_of_le (count_pos_of_group? found) enough'))
      rw [expandWithin, expandWithin, found]
      refine List.flatMap_congr fun choice member => ?_
      have fewer := count_replaced found member
      exact ih (by omega) (by omega)

theorem expand_of_none (none : group? t = none) : expand t = [t] :=
  expandWithin_of_none none _

theorem expand_of_some (found : group? t = some (before, body, rest)) :
    expand t = (Text.splitOn ',' body).flatMap fun choice => expand (before ++ choice ++ rest) := by
  obtain ⟨n, groups⟩ : ∃ n, t.count '{' = n + 1 :=
    Nat.exists_eq_succ_of_ne_zero (Nat.ne_of_gt (count_pos_of_group? found))
  rw [expand, groups, expandWithin, found]
  refine List.flatMap_congr fun choice member => expandWithin_congr ?_ (Nat.le_refl _)
  have fewer := count_replaced found member
  omega

theorem unfolds_expand (t : Text) : Unfolds t (expand t) := by
  induction groups : t.count '{' using Nat.strongRecOn generalizing t with
  | ind n ih =>
    cases found : group? t with
    | none =>
      rw [expand_of_none found]
      exact .whole found
    | some group =>
      obtain ⟨before, body, rest⟩ := group
      rw [expand_of_some found]
      refine .replace found fun choice member => ih _ ?_ _ rfl
      have fewer := count_replaced found member
      omega

/-! ## Trees -/

mutual

/-- A pattern with balanced braces, or an alternative in a group, where no comma stands alone. -/
inductive Braced : (inGroup : Bool) → Type
  | nil {inGroup : Bool} : Braced inGroup
  | char {inGroup : Bool} (c : Char) (plain : isBrace c = false) (alone : inGroup = true → c ≠ ',')
      (rest : Braced inGroup) : Braced inGroup
  | group {inGroup : Bool} (choices : Choices) (rest : Braced inGroup) : Braced inGroup

/-- The alternatives of a group. -/
inductive Choices : Type
  | last (p : Braced true) : Choices
  | more (p : Braced true) (rest : Choices) : Choices

end

mutual

def Braced.text {b : Bool} : Braced b → Text
  | .nil => []
  | .char c _ _ rest => c :: rest.text
  | .group choices rest => '{' :: (choices.text ++ '}' :: rest.text)

def Choices.text : Choices → Text
  | .last p => p.text
  | .more p rest => p.text ++ ',' :: rest.text

end

mutual

/-- What a pattern stands for: one alternative is chosen in every group, and in its groups again. -/
def Braced.readings {b : Bool} : Braced b → List Text
  | .nil => [[]]
  | .char c _ _ rest => rest.readings.map (c :: ·)
  | .group choices rest => choices.readings.flatMap fun x => rest.readings.map (x ++ ·)

def Choices.readings : Choices → List Text
  | .last p => p.readings
  | .more p rest => p.readings ++ rest.readings

end

def Choices.alternatives : Choices → List (Braced true)
  | .last p => [p]
  | .more p rest => p :: rest.alternatives

/-- Whether a pattern has no group. -/
def Braced.isPlain {b : Bool} : Braced b → Bool
  | .nil => true
  | .char _ _ _ rest => rest.isPlain
  | .group _ _ => false

/-- Whether no group of a pattern is nested. -/
def Braced.isFlat {b : Bool} : Braced b → Bool
  | .nil => true
  | .char _ _ _ rest => rest.isFlat
  | .group choices rest => choices.alternatives.all (·.isPlain) && rest.isFlat

/-- An alternative in front of a pattern. -/
def Braced.append {b : Bool} : Braced true → Braced b → Braced b
  | .nil, q => q
  | .char c plain alone p, q => .char c plain (fun _ => alone rfl) (p.append q)
  | .group choices p, q => .group choices (p.append q)

mutual

/-- The pattern with its first group without groups replaced, by each alternative in turn; if there is
one. -/
def Braced.expandOnce? {b : Bool} : Braced b → Option (List (Braced b))
  | .nil => none
  | .char c plain alone rest => rest.expandOnce?.map (List.map (.char c plain alone))
  | .group choices rest =>
    match choices.expandOnce? with
    | some replaced => some (replaced.map fun choices => .group choices rest)
    | none => some (choices.alternatives.map (·.append rest))

def Choices.expandOnce? : Choices → Option (List Choices)
  | .last p => p.expandOnce?.map (List.map .last)
  | .more p rest =>
    match p.expandOnce? with
    | some replaced => some (replaced.map fun p => .more p rest)
    | none => rest.expandOnce?.map (List.map (.more p))

end

variable {b : Bool} {x : Text}

/-! ## Patterns without groups -/

theorem Braced.expandOnce?_eq_none_iff : (p : Braced b) → (p.expandOnce? = none ↔ p.isPlain = true)
  | .nil => by simp [expandOnce?, isPlain]
  | .char c plain alone rest => by simp [expandOnce?, isPlain, rest.expandOnce?_eq_none_iff]
  | .group choices rest => by
    rw [expandOnce?, isPlain]
    split <;> simp

theorem Choices.expandOnce?_eq_none_iff :
    (choices : Choices) → (choices.expandOnce? = none ↔ ∀ p ∈ choices.alternatives, p.isPlain = true)
  | .last p => by simp [expandOnce?, alternatives, p.expandOnce?_eq_none_iff]
  | .more p rest => by
    rw [alternatives, List.forall_mem_cons, ← p.expandOnce?_eq_none_iff,
      ← rest.expandOnce?_eq_none_iff, expandOnce?]
    cases p.expandOnce? <;> simp

theorem Braced.unbraced_text : (p : Braced b) → p.isPlain = true → ∀ c ∈ p.text, isBrace c = false
  | .nil, _ => List.forall_mem_nil _
  | .char c plain _ rest, whole => by
    rw [text]
    exact List.forall_mem_cons.mpr ⟨plain, rest.unbraced_text whole⟩

theorem Braced.comma_not_mem_text : (p : Braced true) → p.isPlain = true → ',' ∉ p.text
  | .nil, _ => List.not_mem_nil
  | .char c _ alone rest, whole => by
    rw [text, List.mem_cons, not_or]
    exact ⟨(alone rfl).symm, rest.comma_not_mem_text whole⟩

theorem Braced.readings_of_isPlain : (p : Braced b) → p.isPlain = true → p.readings = [p.text]
  | .nil, _ => rfl
  | .char c _ _ rest, whole => by
    rw [readings, rest.readings_of_isPlain whole, text, List.map_singleton]

theorem Braced.text_append : (p : Braced true) → (q : Braced b) → (p.append q).text = p.text ++ q.text
  | .nil, _ => by simp [append, text]
  | .char c _ _ rest, q => by simp [append, text, rest.text_append q]
  | .group choices rest, q => by simp [append, text, rest.text_append q]

theorem Braced.readings_append : (p : Braced true) → (q : Braced b) → p.isPlain = true →
    (p.append q).readings = q.readings.map (p.text ++ ·)
  | .nil, q, _ => by simp [append, text]
  | .char c _ _ rest, q, whole => by
    rw [append, readings, rest.readings_append q whole, List.map_map, text]
    rfl

theorem Braced.isFlat_append : (p : Braced true) → (q : Braced b) → p.isPlain = true →
    (p.append q).isFlat = q.isFlat
  | .nil, _, _ => by rw [append]
  | .char c _ _ rest, q, whole => by rw [append, isFlat, rest.isFlat_append q whole]

theorem Choices.alternatives_ne_nil (choices : Choices) : choices.alternatives ≠ [] := by
  cases choices <;> exact List.cons_ne_nil _ _

theorem Choices.text_eq_join : (choices : Choices) →
    choices.text = Text.join [','] (choices.alternatives.map (·.text))
  | .last p => rfl
  | .more p rest => by
    rw [text, rest.text_eq_join, alternatives, List.map_cons]
    cases shape : rest.alternatives with
    | nil => exact absurd shape rest.alternatives_ne_nil
    | cons q others => exact (Text.join_cons_cons [','] _ _ _).symm

/-- Where no alternative has a group, the commas of a group are those between its alternatives. -/
theorem Choices.splitOn_text (choices : Choices)
    (plain : ∀ p ∈ choices.alternatives, p.isPlain = true) :
    Text.splitOn ',' choices.text = choices.alternatives.map (·.text) := by
  rw [text_eq_join]
  refine Text.splitOn_join (by simpa using choices.alternatives_ne_nil) fun piece member => ?_
  obtain ⟨p, among, rfl⟩ := List.mem_map.mp member
  exact p.comma_not_mem_text (plain p among)

theorem Choices.unbraced_text : (choices : Choices) →
    (∀ p ∈ choices.alternatives, p.isPlain = true) → ∀ c ∈ choices.text, isBrace c = false
  | .last p, plain => p.unbraced_text (plain p List.mem_cons_self)
  | .more p rest, plain => by
    rw [alternatives, List.forall_mem_cons] at plain
    rw [text, List.forall_mem_append, List.forall_mem_cons]
    exact ⟨p.unbraced_text plain.1, rfl, rest.unbraced_text plain.2⟩

theorem Choices.readings_of_plain : (choices : Choices) →
    (∀ p ∈ choices.alternatives, p.isPlain = true) →
    choices.readings = choices.alternatives.map (·.text)
  | .last p, plain => p.readings_of_isPlain (plain p List.mem_cons_self)
  | .more p rest, plain => by
    rw [alternatives, List.forall_mem_cons] at plain
    rw [readings, p.readings_of_isPlain plain.1, rest.readings_of_plain plain.2]
    rfl

/-! ## The first group without groups -/

theorem inside?_append (unbraced : ∀ c ∈ body, isBrace c = false) (rest : Text) :
    inside? (body ++ '}' :: rest) = some (body, rest) := by
  induction body with
  | nil => rfl
  | cons c body ih =>
    obtain ⟨plain, unbraced⟩ := List.forall_mem_cons.mp unbraced
    simp only [isBrace, Bool.or_eq_false_iff, decide_eq_false_iff_not] at plain
    rw [List.cons_append, inside?, if_neg plain.2, if_neg plain.1, ih unbraced]
    rfl

theorem inside?_eq_none (opens : '}' ∉ u) (v : Text) : inside? (u ++ '{' :: v) = none := by
  induction u with
  | nil => rfl
  | cons c u ih =>
    rw [List.mem_cons, not_or] at opens
    rw [List.cons_append, inside?, if_neg (Ne.symm opens.1), ih opens.2]
    simp

/-- The first group that closes has no group inside it. -/
theorem group?_append (opens : '}' ∉ before) (unbraced : ∀ c ∈ body, isBrace c = false)
    (rest : Text) : group? (before ++ '{' :: (body ++ '}' :: rest)) = some (before, body, rest) := by
  induction before with
  | nil =>
    rw [List.nil_append, group?, if_pos rfl, inside?_append unbraced]
    rfl
  | cons c before ih =>
    rw [List.mem_cons, not_or] at opens
    rw [List.cons_append, group?, ih opens.2, inside?_eq_none opens.2]
    simp

/-- What replacing the first group without groups does to a text. -/
structure Replaces (whole : Text) (results : List Text) (before body rest : Text) : Prop where
  shape : whole = before ++ '{' :: (body ++ '}' :: rest)
  opens : '}' ∉ before
  unbraced : ∀ c ∈ body, isBrace c = false
  results : results = (Text.splitOn ',' body).map fun choice => before ++ choice ++ rest

/-- A replacement within a text is one within what holds the text. -/
theorem Replaces.within {results : List Text} (replaces : Replaces t results before body rest)
    (opens : '}' ∉ u) (v : Text) :
    Replaces (u ++ t ++ v) (results.map fun r => u ++ r ++ v) (u ++ before) body (rest ++ v) where
  shape := by simp [replaces.shape]
  opens := by simp [opens, replaces.opens]
  unbraced := replaces.unbraced
  results := by simp [replaces.results]

theorem Replaces.ne_nil {α : Type} {f : α → Text} {l : List α}
    (replaces : Replaces t (l.map f) before body rest) : l ≠ [] := by
  rintro rfl
  have none := replaces.results
  rw [List.map_nil, eq_comm, List.map_eq_nil_iff] at none
  exact Text.splitOn_ne_nil ',' body none

theorem not_brace_of_isBrace {c : Char} (plain : isBrace c = false) : '}' ≠ c := by
  rintro rfl
  cases plain

mutual

theorem Braced.replaces_of_expandOnce? {b : Bool} : (p : Braced b) → {l : List (Braced b)} →
    p.expandOnce? = some l → ∃ before body rest, Replaces p.text (l.map (·.text)) before body rest
  | .nil, l, found => by simp [Braced.expandOnce?] at found
  | .char c plain alone rest, l, found => by
    rw [Braced.expandOnce?] at found
    obtain ⟨l, inner, rfl⟩ := Option.map_eq_some_iff.mp found
    obtain ⟨before, body, behind, replaces⟩ := rest.replaces_of_expandOnce? inner
    refine ⟨[c] ++ before, body, behind ++ [], ?_⟩
    have wider := replaces.within (u := [c]) (by simp [not_brace_of_isBrace plain]) []
    simpa [Braced.text, Function.comp_def] using wider
  | .group choices rest, l, found => by
    rw [Braced.expandOnce?] at found
    split at found
    · next replaced inner =>
      obtain ⟨before, body, behind, replaces⟩ := choices.replaces_of_expandOnce? inner
      refine ⟨['{'] ++ before, body, behind ++ '}' :: rest.text, ?_⟩
      have wider := replaces.within (u := ['{']) (by decide) ('}' :: rest.text)
      cases found
      simpa [Braced.text, Function.comp_def] using wider
    · next inner =>
      have plain := choices.expandOnce?_eq_none_iff.mp inner
      refine ⟨[], choices.text, rest.text, rfl, List.not_mem_nil, choices.unbraced_text plain, ?_⟩
      cases found
      rw [choices.splitOn_text plain, List.map_map, List.map_map]
      exact List.map_congr_left fun p _ => p.text_append rest

theorem Choices.replaces_of_expandOnce? : (choices : Choices) → {l : List Choices} →
    choices.expandOnce? = some l →
      ∃ before body rest, Replaces choices.text (l.map (·.text)) before body rest
  | .last p, l, found => by
    rw [Choices.expandOnce?] at found
    obtain ⟨l, inner, rfl⟩ := Option.map_eq_some_iff.mp found
    simpa [Choices.text, Function.comp_def] using p.replaces_of_expandOnce? inner
  | .more p rest, l, found => by
    rw [Choices.expandOnce?] at found
    split at found
    · next replaced inner =>
      obtain ⟨before, body, behind, replaces⟩ := p.replaces_of_expandOnce? inner
      refine ⟨[] ++ before, body, behind ++ ',' :: rest.text, ?_⟩
      have wider := replaces.within (u := []) List.not_mem_nil (',' :: rest.text)
      cases found
      simpa [Choices.text, Function.comp_def] using wider
    · next inner =>
      obtain ⟨l, further, rfl⟩ := Option.map_eq_some_iff.mp found
      obtain ⟨before, body, behind, replaces⟩ := rest.replaces_of_expandOnce? further
      refine ⟨p.text ++ [','] ++ before, body, behind ++ [], ?_⟩
      have plain := p.unbraced_text (p.expandOnce?_eq_none_iff.mp inner)
      have opens : '}' ∉ p.text ++ [','] := by
        rw [List.mem_append, not_or]
        exact ⟨fun inside => not_brace_of_isBrace (plain _ inside) rfl, by decide⟩
      have wider := replaces.within opens []
      simpa [Choices.text, Function.comp_def] using wider

end

/-! ## What a replacement keeps -/

theorem Braced.mem_readings_char {c : Char} {plain : isBrace c = false} {alone : b = true → c ≠ ','}
    {rest : Braced b} :
    x ∈ (char c plain alone rest).readings ↔ ∃ y ∈ rest.readings, x = c :: y := by
  simp only [readings, List.mem_map, eq_comm]

theorem Braced.mem_readings_group {choices : Choices} {rest : Braced b} :
    x ∈ (group choices rest).readings ↔ ∃ y ∈ choices.readings, ∃ z ∈ rest.readings, x = y ++ z := by
  simp only [readings, List.mem_flatMap, List.mem_map, eq_comm]

theorem Choices.mem_readings_more {p : Braced true} {rest : Choices} :
    x ∈ (more p rest).readings ↔ x ∈ p.readings ∨ x ∈ rest.readings := by
  rw [readings, List.mem_append]

/-- What one of some lists or another one holds. -/
theorem exists_mem_or {α : Type} {l : List α} (filled : l ≠ []) {p : α → Prop} {r : Prop} :
    (∃ a ∈ l, p a ∨ r) ↔ (∃ a ∈ l, p a) ∨ r := by
  obtain ⟨a, member⟩ := List.exists_mem_of_ne_nil l filled
  constructor
  · rintro ⟨a, inside, holds | other⟩
    · exact .inl ⟨a, inside, holds⟩
    · exact .inr other
  · rintro (⟨a, inside, holds⟩ | other)
    · exact ⟨a, inside, .inl holds⟩
    · exact ⟨a, member, .inr other⟩

mutual

/-- A replacement keeps what a pattern stands for. -/
theorem Braced.mem_readings_iff {b : Bool} {x : Text} : (p : Braced b) → {l : List (Braced b)} →
    p.expandOnce? = some l → (x ∈ p.readings ↔ ∃ q ∈ l, x ∈ q.readings)
  | .nil, l, found => by simp [Braced.expandOnce?] at found
  | .char c plain alone rest, l, found => by
    rw [Braced.expandOnce?] at found
    obtain ⟨l, inner, rfl⟩ := Option.map_eq_some_iff.mp found
    simp only [List.mem_map, exists_exists_and_eq_and, Braced.mem_readings_char,
      fun y => rest.mem_readings_iff (x := y) inner]
    grind
  | .group choices rest, l, found => by
    rw [Braced.expandOnce?] at found
    split at found
    · next replaced inner =>
      cases found
      simp only [List.mem_map, exists_exists_and_eq_and, Braced.mem_readings_group,
        fun y => choices.mem_readings_iff (x := y) inner]
      grind
    · next inner =>
      cases found
      have plain := choices.expandOnce?_eq_none_iff.mp inner
      simp only [Braced.mem_readings_group, choices.readings_of_plain plain, List.mem_map,
        exists_exists_and_eq_and]
      refine exists_congr fun p => and_congr_right fun member => ?_
      rw [p.readings_append rest (plain p member), List.mem_map]
      simp only [eq_comm]

theorem Choices.mem_readings_iff {x : Text} : (choices : Choices) → {l : List Choices} →
    choices.expandOnce? = some l → (x ∈ choices.readings ↔ ∃ q ∈ l, x ∈ q.readings)
  | .last p, l, found => by
    rw [Choices.expandOnce?] at found
    obtain ⟨l, inner, rfl⟩ := Option.map_eq_some_iff.mp found
    simp only [List.mem_map, exists_exists_and_eq_and, Choices.readings, p.mem_readings_iff inner]
  | .more p rest, l, found => by
    rw [Choices.expandOnce?] at found
    split at found
    · next replaced inner =>
      cases found
      obtain ⟨_, _, _, replaces⟩ := p.replaces_of_expandOnce? inner
      simp only [List.mem_map, exists_exists_and_eq_and, Choices.mem_readings_more,
        p.mem_readings_iff inner, exists_mem_or replaces.ne_nil]
    · next inner =>
      obtain ⟨l, further, rfl⟩ := Option.map_eq_some_iff.mp found
      obtain ⟨_, _, _, replaces⟩ := rest.replaces_of_expandOnce? further
      simp only [List.mem_map, exists_exists_and_eq_and, Choices.mem_readings_more,
        rest.mem_readings_iff further, or_comm (a := x ∈ p.readings), exists_mem_or replaces.ne_nil]

end

/-- Where no group is nested, a replacement keeps the order, too. -/
theorem Braced.readings_of_flat : (p : Braced b) → {l : List (Braced b)} → p.expandOnce? = some l →
    p.isFlat = true → p.readings = l.flatMap (·.readings) ∧ ∀ q ∈ l, q.isFlat = true
  | .nil, l, found, _ => by simp [expandOnce?] at found
  | .char c plain alone rest, l, found, flat => by
    rw [expandOnce?] at found
    obtain ⟨l, inner, rfl⟩ := Option.map_eq_some_iff.mp found
    obtain ⟨same, all⟩ := rest.readings_of_flat inner flat
    refine ⟨?_, List.forall_mem_map.mpr all⟩
    rw [readings, same, List.map_flatMap, List.flatMap_map]
    rfl
  | .group choices rest, l, found, flat => by
    rw [isFlat, Bool.and_eq_true, List.all_eq_true] at flat
    obtain ⟨plain, flat⟩ := flat
    rw [expandOnce?, choices.expandOnce?_eq_none_iff.mpr plain] at found
    cases found
    constructor
    · rw [readings, choices.readings_of_plain plain, List.flatMap_map, List.flatMap_map]
      exact List.flatMap_congr fun p member => (p.readings_append rest (plain p member)).symm
    · refine List.forall_mem_map.mpr fun p member => ?_
      rw [p.isFlat_append rest (plain p member), flat]

/-! ## Expansion -/

theorem Braced.expand_text_of_some {p : Braced b} {l : List (Braced b)}
    (found : p.expandOnce? = some l) :
    expand p.text = l.flatMap (fun q => expand q.text) ∧
      ∀ q ∈ l, q.text.count '{' + 1 = p.text.count '{' := by
  obtain ⟨before, body, rest, replaces⟩ := p.replaces_of_expandOnce? found
  have group : group? p.text = some (before, body, rest) := by
    rw [replaces.shape, group?_append replaces.opens replaces.unbraced]
  constructor
  · have mapped := congrArg (List.flatMap expand) replaces.results
    rw [List.flatMap_map, List.flatMap_map] at mapped
    rw [expand_of_some group, mapped]
  · intro q member
    have result := List.mem_map_of_mem (f := Braced.text) member
    rw [replaces.results] at result
    obtain ⟨choice, among, same⟩ := List.mem_map.mp result
    rw [← same]
    exact count_replaced group among

theorem Braced.expand_text_of_none {p : Braced b} (none : p.expandOnce? = none) :
    expand p.text = [p.text] ∧ p.readings = [p.text] := by
  have plain := p.expandOnce?_eq_none_iff.mp none
  refine ⟨expand_of_none ?_, p.readings_of_isPlain plain⟩
  rw [Option.eq_none_iff_forall_ne_some]
  rintro ⟨before, body, rest⟩ found
  have opened : '{' ∈ p.text := by
    rw [(eq_of_group?_eq_some found).1]
    exact List.mem_append_right before List.mem_cons_self
  exact absurd (p.unbraced_text plain _ opened) (by decide)

/-- What holds of patterns without groups, and of a pattern when it holds of its replacements, holds of
all patterns. The induction is on the number of groups: a replacement leaves one less. -/
theorem Braced.expandOnce_induction {motive : Braced b → Prop}
    (whole : ∀ p, p.expandOnce? = none → motive p)
    (replace : ∀ p l, p.expandOnce? = some l → (∀ q ∈ l, motive q) → motive p) (p : Braced b) :
    motive p := by
  induction groups : p.text.count '{' using Nat.strongRecOn generalizing p with
  | ind n ih =>
    cases found : p.expandOnce? with
    | none => exact whole p found
    | some l =>
      refine replace p l found fun q member => ih _ ?_ q rfl
      have fewer := (expand_text_of_some found).2 q member
      omega

theorem Braced.mem_expand_text_iff (p : Braced b) : x ∈ expand p.text ↔ x ∈ p.readings := by
  induction p using expandOnce_induction with
  | whole p none => rw [(expand_text_of_none none).1, (expand_text_of_none none).2]
  | replace p l found ih =>
    rw [(expand_text_of_some found).1, p.mem_readings_iff found, List.mem_flatMap]
    exact exists_congr fun q => and_congr_right fun member => ih q member

theorem Braced.expand_text_of_isFlat (p : Braced b) (flat : p.isFlat = true) :
    expand p.text = p.readings := by
  induction p using expandOnce_induction with
  | whole p none => rw [(expand_text_of_none none).1, (expand_text_of_none none).2]
  | replace p l found ih =>
    obtain ⟨same, all⟩ := p.readings_of_flat found flat
    rw [(expand_text_of_some found).1, same]
    exact List.flatMap_congr fun q member => ih q member (all q member)

/-- A list of options for each place, from left to right. -/
def product : List (List Text) → List Text
  | [] => [[]]
  | options :: rest => options.flatMap fun x => (product rest).map (x ++ ·)

/-- The options that a pattern leaves where none of its groups is nested: a character outside of groups
is the only option for its place, and a group has its alternatives. -/
def Braced.options {b : Bool} : Braced b → List (List Text)
  | .nil => []
  | .char c _ _ rest => [[c]] :: rest.options
  | .group choices rest => choices.alternatives.map (·.text) :: rest.options

theorem Braced.readings_eq_product : (p : Braced b) → p.isFlat = true → p.readings = product p.options
  | .nil, _ => rfl
  | .char c _ _ rest, flat => by
    rw [readings, rest.readings_eq_product flat, options, product, List.flatMap_singleton]
    rfl
  | .group choices rest, flat => by
    rw [isFlat, Bool.and_eq_true, List.all_eq_true] at flat
    rw [readings, choices.readings_of_plain flat.1, rest.readings_eq_product flat.2, options, product]

mutual

theorem Braced.unbraced_of_mem_readings {b : Bool} {x : Text} :
    (p : Braced b) → x ∈ p.readings → ∀ c ∈ x, isBrace c = false
  | .nil, read => by
    rw [Braced.readings, List.mem_singleton] at read
    simp [read]
  | .char c plain alone rest, read => by
    obtain ⟨y, behind, rfl⟩ := Braced.mem_readings_char.mp read
    exact List.forall_mem_cons.mpr ⟨plain, rest.unbraced_of_mem_readings behind⟩
  | .group choices rest, read => by
    obtain ⟨y, first, z, second, rfl⟩ := Braced.mem_readings_group.mp read
    exact List.forall_mem_append.mpr
      ⟨choices.unbraced_of_mem_readings first, rest.unbraced_of_mem_readings second⟩

theorem Choices.unbraced_of_mem_readings {x : Text} :
    (choices : Choices) → x ∈ choices.readings → ∀ c ∈ x, isBrace c = false
  | .last p, read => p.unbraced_of_mem_readings read
  | .more p rest, read => by
    rcases Choices.mem_readings_more.mp read with first | later
    · exact p.unbraced_of_mem_readings first
    · exact rest.unbraced_of_mem_readings later

end

/-! ## Balanced texts -/

/-- Whether every brace of a text has its partner, where some groups are open. -/
def balancedFrom : (opened : Nat) → Text → Bool
  | opened, [] => opened = 0
  | opened, c :: t =>
    if c = '{' then balancedFrom (opened + 1) t
    else if c = '}' then opened ≠ 0 && balancedFrom (opened - 1) t
    else balancedFrom opened t

def Balanced (t : Text) : Prop := balancedFrom 0 t = true

instance (t : Text) : Decidable (Balanced t) := inferInstanceAs (Decidable (balancedFrom 0 t = true))

/-- The commas of a group may be taken for those between its alternatives. -/
theorem Braced.exists_choices : (p : Braced false) → ∃ choices : Choices, choices.text = p.text
  | .nil => ⟨.last .nil, rfl⟩
  | .char c plain alone rest => by
    obtain ⟨choices, same⟩ := rest.exists_choices
    by_cases comma : c = ','
    · exact ⟨.more .nil choices, by simp [Choices.text, text, same, comma]⟩
    · cases choices with
      | last p =>
        refine ⟨.last (.char c plain (fun _ => comma) p), ?_⟩
        simpa [Choices.text, text] using same
      | more p others =>
        refine ⟨.more (.char c plain (fun _ => comma) p) others, ?_⟩
        simpa [Choices.text, text] using same
  | .group inner rest => by
    obtain ⟨choices, same⟩ := rest.exists_choices
    cases choices with
    | last p =>
      refine ⟨.last (.group inner p), ?_⟩
      simpa [Choices.text, text] using same
    | more p others =>
      refine ⟨.more (.group inner p) others, ?_⟩
      simpa [Choices.text, text] using same

/-- A balanced text is a pattern up to its end, or up to the brace that closes what is open. -/
theorem exists_braced (balanced : balancedFrom n t = true) : ∃ p : Braced false,
    (n = 0 ∧ p.text = t) ∨
      ∃ m rest, n = m + 1 ∧ t = p.text ++ '}' :: rest ∧ balancedFrom m rest = true := by
  induction size : t.length using Nat.strongRecOn generalizing n t with
  | ind k ih =>
    cases t with
    | nil =>
      rw [balancedFrom, decide_eq_true_eq] at balanced
      exact ⟨.nil, .inl ⟨balanced, by rw [Braced.text]⟩⟩
    | cons c t =>
      rw [List.length_cons] at size
      rw [balancedFrom] at balanced
      split at balanced
      · next opens =>
        -- The group up to the brace that closes it, and then what follows it.
        obtain ⟨inner, ⟨none, _⟩ | ⟨m, rest, open', shape, balanced⟩⟩ := ih _ (by omega) balanced rfl
        · cases none
        · obtain rfl := Nat.succ.inj open'
          obtain ⟨choices, same⟩ := inner.exists_choices
          have shorter : rest.length < k := by
            rw [shape, List.length_append, List.length_cons] at size
            omega
          obtain ⟨p, ⟨closed, rfl⟩ | ⟨m, rest, one, rfl, behind⟩⟩ := ih _ shorter balanced rfl
          · exact ⟨.group choices p, .inl ⟨closed, by simp [Braced.text, same, shape, opens]⟩⟩
          · exact ⟨.group choices p,
              .inr ⟨m, rest, one, by simp [Braced.text, same, shape, opens], behind⟩⟩
      · next other =>
        split at balanced
        · next closes =>
          rw [Bool.and_eq_true, decide_eq_true_eq] at balanced
          refine ⟨.nil, .inr ⟨n - 1, t, ?_, by simp [Braced.text, closes], balanced.2⟩⟩
          have := balanced.1
          omega
        · next plain =>
          have plain : isBrace c = false := by simp [isBrace, other, plain]
          have outside (inGroup : false = true) : c ≠ ',' := absurd inGroup Bool.false_ne_true
          obtain ⟨p, ⟨closed, rfl⟩ | ⟨m, rest, one, rfl, behind⟩⟩ := ih _ (by omega) balanced rfl
          · exact ⟨.char c plain outside p, .inl ⟨closed, by rw [Braced.text]⟩⟩
          · exact ⟨.char c plain outside p,
              .inr ⟨m, rest, one, by rw [Braced.text, List.cons_append], behind⟩⟩

/-- Expansion computes the language of a pattern. For a pattern with balanced braces the recursion ends;
the pattern is a tree of groups and alternatives, and the results are what choosing one alternative in
every group leads to, in its groups again, and nothing else; no result has a brace; and where no group
is nested the results are the product of the alternatives, in order and with repetitions. -/
theorem expand_balanced (balanced : Balanced t) :
    Unfolds t (expand t) ∧ (∃ p : Braced false, p.text = t) ∧
      (∀ p : Braced false, p.text = t → (∀ x, x ∈ expand t ↔ x ∈ p.readings) ∧
        (p.isFlat = true → expand t = product p.options)) ∧
      ∀ x ∈ expand t, ∀ c ∈ x, isBrace c = false := by
  obtain ⟨p, ⟨_, rfl⟩ | ⟨_, _, opened, _⟩⟩ := exists_braced balanced
  · refine ⟨unfolds_expand _, ⟨p, rfl⟩, fun q same => ?_, fun x member => ?_⟩
    · rw [← same]
      refine ⟨fun x => q.mem_expand_text_iff, fun flat => ?_⟩
      rw [q.expand_text_of_isFlat flat, q.readings_eq_product flat]
    · exact p.unbraced_of_mem_readings (p.mem_expand_text_iff.mp member)
  · cases opened

/-- A group in the second alternative of a group. -/
theorem expand_balanced_nested :
    let t : Text := "\x7ba,\x7bb,\x7dd\x7d-\x7bx,x\x7d"
    Balanced t ∧
      expand t = ["a-x", "a-x", "bd-x", "bd-x", "a-x", "a-x", "d-x", "d-x"].map String.toList ∧
      Unfolds t (expand t) ∧ (∃ p : Braced false, p.text = t) ∧
      (∀ p : Braced false, p.text = t → (∀ x, x ∈ expand t ↔ x ∈ p.readings) ∧
        (p.isFlat = true → expand t = product p.options)) ∧
      ∀ x ∈ expand t, ∀ c ∈ x, isBrace c = false := by
  intro t
  have balanced : Balanced t := by decide +kernel
  exact ⟨balanced, by decide +kernel, expand_balanced balanced⟩

end Traceability.Glob
