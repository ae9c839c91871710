import Traceability.Proofs.Joined
import Traceability.Proofs.Outline.Fence
import Traceability.Report.Content

/-!
# Code in fences

In the Markdown document of excerpts, code stands between two fences. Read line by line, it stays
between them exactly if no line of it is a fence: each of its lines is fenced, the fence behind it ends
the block, and no heading is found in it. One fence in it turns everything behind it inside out.
-/
namespace Traceability

namespace Outline

variable {text line t : Text} {lines above content : List Text} {c : Char} {i : Nat}

theorem isFence_mark (t : Text) : isFence (fenceMark ++ t) = true := by
  have cut : Text.dropStem? fenceMark (fenceMark ++ t) = some t := Text.dropStem?_eq_some_iff.mpr rfl
  refine isFence_of_isFlushFence ?_
  rw [isFlushFence, Text.startsWith, cut]
  rfl

/-- A line that starts with anything but a blank or a backtick is no fence, whatever follows. -/
theorem isFence_append {front : Text}
    (starts : front.head?.any (fun c => !Text.isBlank c && c ≠ '\x60') = true) (t : Text) :
    isFence (front ++ t) = false := by
  obtain ⟨c, first, fits⟩ := Option.any_eq_true _ _ |>.mp starts
  obtain ⟨more, rfl⟩ := List.head?_eq_some_iff.mp first
  obtain ⟨filled, other⟩ : Text.isBlank c = false ∧ c ≠ '\x60' := by simpa using fits
  have same : Text.trimStart (c :: more ++ t) = c :: more ++ t :=
    List.dropWhile_cons_of_neg (by simp [filled])
  have apart : Text.dropStem? fenceMark (c :: more ++ t) = none := if_neg (Ne.symm other)
  rw [isFence, same, Text.startsWith, apart]
  rfl

theorem countP_fedLines (t : Text) :
    (Text.fedLines t).countP isFence = (Text.lines t).countP isFence := by
  rcases Text.fedLines_eq t with same | more
  · rw [same]
  · rw [more, List.countP_append]
    rfl

theorem free_fedLines_iff : (∀ line ∈ Text.fedLines t, isFence line = false) ↔
    ∀ line ∈ Text.lines t, isFence line = false := by
  simp only [← Bool.not_eq_true, ← List.countP_eq_zero, countP_fedLines]

theorem fencedBehind_append (inside : Bool) (above below : List Text) :
    fencedBehind inside (above ++ below) = fencedBehind (fencedBehind inside above) below :=
  List.foldl_append

theorem fencedBehind_take_succ (found : lines[i]? = some line) :
    fencedBehind false (lines.take (i + 1)) =
      (fencedBehind false (lines.take i) != isFence line) := by
  rw [List.take_add_one, found, Option.toList_some, fencedBehind_append]
  rfl

/-- Whether lines of a document, behind those above, stand in a block of their own: each of them is
fenced, the line behind them ends the block, and none of them is the heading of a section. -/
structure Enclosed (text : Text) (above content : List Text) : Prop where
  placed : ∃ below, Text.lines text = above ++ content ++ fenceMark :: below
  fenced : ∀ i < content.length,
    fencedBehind false ((Text.lines text).take (above.length + i)) = true
  closed : fencedBehind false ((Text.lines text).take (above.length + content.length + 1)) = false
  bare : ∀ s ∈ (Document.read text).nodes,
    ¬ (above.length < s.line ∧ s.line ≤ above.length + content.length)

theorem getElem?_closing {below : List Text}
    (shape : Text.lines text = above ++ content ++ fenceMark :: below) :
    (Text.lines text)[above.length + content.length]? = some fenceMark := by
  rw [shape, ← List.length_append, List.getElem?_append_right (Nat.le_refl _), Nat.sub_self]
  rfl

/-- Lines without a fence among them are enclosed by a fence that opens a block and one behind them. -/
theorem enclosed_of_free (placed : ∃ below, Text.lines text = above ++ content ++ fenceMark :: below)
    (opened : fencedBehind false above = true) (free : ∀ line ∈ content, isFence line = false) :
    Enclosed text above content := by
  obtain ⟨below, shape⟩ := placed
  have fenced (i : Nat) (inside : i ≤ content.length) :
      fencedBehind false ((Text.lines text).take (above.length + i)) = true := by
    have front : (Text.lines text).take (above.length + i) = above ++ content.take i := by
      rw [shape, List.append_assoc, List.take_length_add_append,
        List.take_append_of_le_length inside]
    have none : (content.take i).countP isFence = 0 := List.countP_eq_zero.mpr fun line member => by
      simp [free line (List.mem_of_mem_take member)]
    rw [front, fencedBehind_append, opened, fencedBehind_eq, none]
    rfl
  refine ⟨⟨below, shape⟩, fun i inside => fenced i (Nat.le_of_lt inside), ?_, ?_⟩
  · rw [fencedBehind_take_succ (getElem?_closing shape), fenced _ (Nat.le_refl _)]
    rfl
  · rintro s member ⟨behind, before⟩
    obtain ⟨line, stands, -⟩ := Document.exists_mem_nodes_line_iff (i := s.line - 1) |>.mp
      ⟨s, member, by omega⟩
    have inside := fenced (s.line - 1 - above.length) (by omega)
    rw [Nat.add_sub_cancel' (by omega), fencedBehind_eq_false_iff.mpr stands.even] at inside
    cases inside

/-- Lines that are enclosed have no fence among them: it would end their block. -/
theorem Enclosed.free (enclosed : Enclosed text above content) :
    ∀ line ∈ content, isFence line = false := by
  intro line member
  obtain ⟨below, shape⟩ := enclosed.placed
  obtain ⟨i, inside, here⟩ := List.mem_iff_getElem.mp member
  have found : (Text.lines text)[above.length + i]? = some line := by
    rw [shape, List.append_assoc, List.getElem?_append_right (Nat.le_add_right _ _),
      Nat.add_sub_cancel_left, List.getElem?_append_left inside, ← here]
    exact List.getElem?_eq_getElem inside
  have behind := fencedBehind_take_succ found
  rw [enclosed.fenced i inside] at behind
  cases fence : isFence line with
  | false => rfl
  | true =>
    rw [fence] at behind
    by_cases last : i + 1 = content.length
    · have closed := enclosed.closed
      rw [fencedBehind_take_succ (getElem?_closing shape), ← last, ← Nat.add_assoc, behind] at closed
      cases closed
    · have still := enclosed.fenced (i + 1) (by omega)
      rw [← Nat.add_assoc, behind] at still
      cases still

end Outline

namespace Report

open Outline

variable {e : Excerpt} {es pre post : List Excerpt} {last : Option ExcerptKind} {label : Text}
  {footer : Option Text}

/-! ## The lines of the document -/

def titleLine (kind : ExcerptKind) : Text := "## " ++ kindTitle kind

def sourceLine (e : Excerpt) : Text :=
  "> From: " ++ e.path ++ " (lines " ++ Text.ofInt e.first ++ "-" ++ Text.ofInt e.last ++ ")"

/-- The title of a kind, unless it stands already, and where an excerpt is from. -/
def headLines (last : Option ExcerptKind) (e : Excerpt) : List Text :=
  (if last = some e.kind then [] else [titleLine e.kind, []]) ++ [sourceLine e, []]

def bodyPieces (e : Excerpt) : List Text :=
  if e.kind.isCode then [fenceMark ++ languageOf e.path, e.content, fenceMark] else [e.content]

/-- The lines of the document above the content of a piece of code: those of the document of the
excerpts before it, a blank line, its head and the fence. -/
def linesAbove (label : Text) (pre : List Excerpt) (e : Excerpt) : List Text :=
  Text.lines (contentMarkdown pre label none) ++
    [] :: (headLines (pre.getLast?.map (·.kind)) e ++ [fenceMark ++ languageOf e.path])

theorem excerptsLines_cons (last : Option ExcerptKind) (e : Excerpt) (rest : List Excerpt) :
    excerptsLines last (e :: rest) =
      headLines last e ++ bodyPieces e ++ [[]] ++ excerptsLines (some e.kind) rest := by
  have lines : excerptLines e = [sourceLine e, []] ++ bodyPieces e ++ [[]] := rfl
  have title : (if last = some e.kind then [] else ["## " ++ kindTitle e.kind, []]) ++
      [sourceLine e, []] = headLines last e := rfl
  rw [excerptsLines, lines, ← title]
  simp only [List.append_assoc]

theorem excerptsLines_append (last : Option ExcerptKind) (pre rest : List Excerpt) :
    excerptsLines last (pre ++ rest) = excerptsLines last pre ++
      excerptsLines ((pre.getLast?.map (·.kind)).or last) rest := by
  induction pre generalizing last with
  | nil => rfl
  | cons e pre ih =>
    have kind : ((e :: pre).getLast?.map (·.kind)).or last =
        (pre.getLast?.map (·.kind)).or (some e.kind) := by
      rw [List.getLast?_cons]
      cases pre.getLast? <;> rfl
    rw [List.cons_append, excerptsLines_cons, excerptsLines_cons, ih, kind, ← List.append_assoc]

def footerPieces (footer : Option Text) : List Text :=
  match shownFooter footer with
  | some f => ["---", f, []]
  | none => []

/-- The pieces that the document joins. -/
def documentPieces (es : List Excerpt) (label : Text) (footer : Option Text) : List Text :=
  ["# Context: " ++ label, []] ++ excerptsLines none es ++ footerPieces footer

theorem exists_excerptsLines (front : List Text) (last : Option ExcerptKind) (es : List Excerpt) :
    ∃ init, front ++ [[]] ++ excerptsLines last es = init ++ [[]] := by
  induction es generalizing front last with
  | nil => exact ⟨front, List.append_nil _⟩
  | cons e es ih =>
    rw [excerptsLines_cons, ← List.append_assoc, ← List.append_assoc]
    exact ih _ _

theorem lines_contentMarkdown (es : List Excerpt) (label : Text) (footer : Option Text) :
    Text.lines (contentMarkdown es label footer) ++ [[]] =
      (documentPieces es label footer).flatMap Text.fedLines := by
  obtain ⟨init, shape⟩ : ∃ init, documentPieces es label footer = init ++ [[]] := by
    rw [documentPieces, footerPieces]
    cases shownFooter footer with
    | none =>
      rw [List.append_nil]
      exact exists_excerptsLines ["# Context: " ++ label] none es
    | some f => exact ⟨_, (List.append_assoc _ ["---".toList, f] [[]]).symm⟩
  have whole : contentMarkdown es label footer = Text.join ['\n'] (documentPieces es label footer) :=
    rfl
  rw [whole, shape, Text.lines_join_feeds, List.flatMap_append]
  rfl

theorem unbroken_languageOf (path : Text) : Text.Unbroken (languageOf path) := by
  have all : ∀ entry ∈ languages, Text.Unbroken entry.2 := by decide
  have shape : languageOf path =
      ((languages.find? fun entry => path.endsWith entry.1).map Prod.snd).getD [] := rfl
  rw [shape]
  cases found : languages.find? fun entry => path.endsWith entry.1 with
  | none => exact List.forall_mem_nil _
  | some entry => exact all entry (List.mem_of_find?_eq_some found)

theorem unbroken_titleLine (kind : ExcerptKind) : Text.Unbroken (titleLine kind) := by
  cases kind <;> decide

theorem unbroken_sourceLine (path : Text.Unbroken e.path) : Text.Unbroken (sourceLine e) := by
  have start : Text.Unbroken ("> From: " ++ e.path ++ " (lines ") :=
    .append (.append (by decide) path) (by decide)
  have bounds : Text.Unbroken (Text.ofInt e.first ++ "-" ++ Text.ofInt e.last) :=
    .append (.append (Text.unbroken_ofInt _) (by decide)) (Text.unbroken_ofInt _)
  have whole := (start.append bounds).append (t := ")".toList) (by decide)
  unfold sourceLine
  simpa only [List.append_assoc] using whole

theorem unbroken_headLines (path : Text.Unbroken e.path) :
    ∀ t ∈ headLines last e, Text.Unbroken t := by
  have blank : Text.Unbroken [] := List.forall_mem_nil _
  rw [headLines]
  split <;> simp [unbroken_titleLine, unbroken_sourceLine path, blank]

theorem countP_headLines (last : Option ExcerptKind) (e : Excerpt) :
    (headLines last e).countP isFence = 0 := by
  have title : isFence (titleLine e.kind) = false := isFence_append (by decide) _
  have source : isFence (sourceLine e) = false := by
    unfold sourceLine
    simp only [List.append_assoc]
    exact isFence_append (by decide) _
  have blank : isFence [] = false := rfl
  rw [headLines]
  split <;> simp [title, source, blank]

theorem flatMap_headLines (path : Text.Unbroken e.path) :
    (headLines last e).flatMap Text.fedLines = headLines last e :=
  Text.flatMap_fedLines (unbroken_headLines path)

theorem fedLines_mark (path : Text) :
    Text.fedLines (fenceMark ++ languageOf path) = [fenceMark ++ languageOf path] :=
  Text.fedLines_of_unbroken (.append (by decide) (unbroken_languageOf path))

theorem linesAbove_eq (label : Text) (pre : List Excerpt) (path : Text.Unbroken e.path) :
    linesAbove label pre e = (documentPieces pre label none).flatMap Text.fedLines ++
      (headLines (pre.getLast?.map (·.kind)) e ++
        [fenceMark ++ languageOf e.path]).flatMap Text.fedLines := by
  rw [← lines_contentMarkdown, List.flatMap_append, flatMap_headLines path, List.flatMap_singleton,
    fedLines_mark, linesAbove, List.append_assoc]
  rfl

/-- Behind the lines above it, the document has the lines of a piece of code and a fence. -/
theorem exists_lines_contentMarkdown (path : Text.Unbroken e.path) (code : e.kind.isCode = true) :
    ∃ below, Text.lines (contentMarkdown (pre ++ e :: post) label footer) =
      linesAbove label pre e ++ Text.fedLines e.content ++ fenceMark :: below := by
  let behind := excerptsLines (some e.kind) post ++ footerPieces footer
  have pieces : documentPieces (pre ++ e :: post) label footer = documentPieces pre label none ++
      (headLines (pre.getLast?.map (·.kind)) e ++ [fenceMark ++ languageOf e.path]) ++
        [e.content] ++ fenceMark :: [] :: behind := by
    have body : bodyPieces e = [fenceMark ++ languageOf e.path, e.content, fenceMark] := if_pos code
    rw [documentPieces, documentPieces, excerptsLines_append, excerptsLines_cons, body,
      Option.or_none]
    simp only [behind, footerPieces, shownFooter, Option.filter_none, List.append_assoc, List.cons_append,
      List.nil_append]
  have mark : Text.Unbroken fenceMark := by decide
  have whole := lines_contentMarkdown (pre ++ e :: post) label footer
  rw [pieces, List.flatMap_append, List.flatMap_append, List.flatMap_append,
    ← linesAbove_eq label pre path, List.flatMap_singleton, List.flatMap_cons,
    Text.fedLines_of_unbroken mark, List.flatMap_cons] at whole
  refine ⟨([[]] ++ behind.flatMap Text.fedLines).dropLast, ?_⟩
  have front := congrArg List.dropLast whole
  rw [List.dropLast_concat] at front
  rw [front]
  exact List.dropLast_append_cons

/-! ## The fences of the document -/

/-- Whether the fences in an excerpt come in pairs; in code there are none. -/
def Settled (e : Excerpt) : Prop :=
  if e.kind.isCode then ∀ line ∈ Text.lines e.content, isFence line = false
  else Even ((Text.lines e.content).countP isFence)

/-- The pieces of a settled excerpt open as many blocks as they close. -/
theorem even_bodyPieces (settled : Settled e) :
    Even (((bodyPieces e).flatMap Text.fedLines).countP isFence) := by
  have closing : Text.fedLines fenceMark = [fenceMark] := Text.fedLines_of_unbroken (by decide)
  rw [Settled] at settled
  rw [bodyPieces]
  split at settled
  · next code =>
    have none : (Text.lines e.content).countP isFence = 0 :=
      List.countP_eq_zero.mpr fun line member => by simp [settled line member]
    rw [if_pos code, List.flatMap_cons, List.flatMap_cons, List.flatMap_singleton, fedLines_mark,
      closing, List.countP_append, List.countP_append, countP_fedLines, none,
      List.countP_singleton, List.countP_singleton, isFence_mark]
    decide
  · next text =>
    rw [if_neg text, List.flatMap_singleton, countP_fedLines]
    exact settled

theorem even_excerptsLines (settled : ∀ e ∈ es, Settled e) (paths : ∀ e ∈ es, Text.Unbroken e.path)
    (last : Option ExcerptKind) :
    Even (((excerptsLines last es).flatMap Text.fedLines).countP isFence) := by
  induction es generalizing last with
  | nil => exact Even.zero
  | cons e es ih =>
    obtain ⟨here, settled⟩ := List.forall_mem_cons.mp settled
    obtain ⟨path, paths⟩ := List.forall_mem_cons.mp paths
    rw [excerptsLines_cons, List.flatMap_append, List.flatMap_append, List.flatMap_append,
      flatMap_headLines path, List.countP_append, List.countP_append, List.countP_append,
      countP_headLines, Nat.zero_add]
    exact ((even_bodyPieces here).add Even.zero).add (ih settled paths _)

/-- Where the excerpts before it are settled, a piece of code stands behind an open fence. -/
theorem fencedBehind_linesAbove (labelled : Text.Unbroken label)
    (settled : ∀ e ∈ pre, Settled e) (paths : ∀ e ∈ pre, Text.Unbroken e.path)
    (path : Text.Unbroken e.path) : fencedBehind false (linesAbove label pre e) = true := by
  have title : Text.fedLines ("# Context: " ++ label) = ["# Context: " ++ label] :=
    Text.fedLines_of_unbroken (.append (by decide) labelled)
  have plain : isFence ("# Context: " ++ label) = false := isFence_append (by decide) _
  have even : Even (((documentPieces pre label none).flatMap Text.fedLines).countP isFence) := by
    have pieces : documentPieces pre label none =
        ["# Context: " ++ label, []] ++ excerptsLines none pre := List.append_nil _
    rw [pieces, List.flatMap_append, List.flatMap_cons, title, List.countP_append,
      List.countP_append, List.countP_singleton, plain]
    exact Even.add Even.zero (even_excerptsLines settled paths none)
  rw [linesAbove_eq label pre path, List.flatMap_append, flatMap_headLines path,
    List.flatMap_singleton, fedLines_mark, fencedBehind_append,
    fencedBehind_eq_false_iff.mpr even, fencedBehind_eq, List.countP_append, countP_headLines,
    List.countP_singleton, isFence_mark]
  rfl

/-- In the document of excerpts whose other contents have their fences in pairs, every piece of code is
enclosed by its fences, and no heading is found in it, exactly if no piece of code has a fence among
its lines. -/
theorem enclosed_iff (labelled : Text.Unbroken label) (paths : ∀ e ∈ es, Text.Unbroken e.path)
    (pairs : ∀ e ∈ es, e.kind.isCode = false → Even ((Text.lines e.content).countP isFence)) :
    (∀ pre e post, es = pre ++ e :: post → e.kind.isCode = true →
      Enclosed (contentMarkdown es label footer) (linesAbove label pre e)
        (Text.fedLines e.content)) ↔
    ∀ e ∈ es, e.kind.isCode = true → ∀ line ∈ Text.lines e.content, isFence line = false := by
  constructor
  · intro enclosed e member code line inside
    obtain ⟨pre, post, split⟩ := List.append_of_mem member
    exact free_fedLines_iff.mp (enclosed pre e post split code).free line inside
  · rintro free pre e post rfl code
    have member : e ∈ pre ++ e :: post := by simp
    have settled (e' : Excerpt) (before : e' ∈ pre) : Settled e' := by
      have among := List.mem_append_left (e :: post) before
      rw [Settled]
      split
      · next code => exact free e' among code
      · next text => exact pairs e' among (Bool.eq_false_iff.mpr text)
    exact enclosed_of_free (exists_lines_contentMarkdown (paths e member) code)
      (fencedBehind_linesAbove labelled settled
        (fun e' before => paths e' (List.mem_append_left _ before)) (paths e member))
      (free_fedLines_iff.mpr (free e member code))

/-- A task with a fenced block, and two pieces of code that look like headings. -/
def fencedTask : Excerpt := ⟨.task, "t.md", 1, 3, "```\n# plan\n```"⟩

def commentedCode : Excerpt := ⟨.implementation, "src/a.py", 4, 5, "# @spec-impl: X-1\nx = 1\n"⟩

def commentedTest : Excerpt := ⟨.test, "tests/a.py", 1, 1, "# @spec-test: X-1"⟩

theorem enclosed_iff_commented :
    Enclosed (contentMarkdown [fencedTask, commentedCode, commentedTest] "X-1" none)
      (linesAbove "X-1" [fencedTask, commentedCode] commentedTest)
      (Text.fedLines commentedTest.content) ∧
    (linesAbove "X-1" [fencedTask, commentedCode] commentedTest).length = 25 ∧
    (Text.lines (contentMarkdown [fencedTask, commentedCode, commentedTest] "X-1" none))[25]? =
      some commentedTest.content :=
  ⟨(enclosed_iff (by decide) (by decide +kernel) (by decide +kernel)).mpr (by decide +kernel)
      [fencedTask, commentedCode] commentedTest [] rfl rfl,
    by decide +kernel, by decide +kernel⟩

/-- A piece of code whose text shows an example in fences. -/
def documentedCode : Excerpt :=
  ⟨.implementation, "a.py", 1, 7, "\"\"\"Loads.\n\n```\n# Usage\nload()\n```\n\"\"\""⟩

/-- Code that has fences of its own leaves its fences. -/
theorem exists_unenclosed :
    ¬ ∀ (es given : List Excerpt) (label : Text) (limit : Int), Text.Unbroken label →
      (∀ e ∈ es, Text.Unbroken e.path) →
      (∀ e ∈ es, e.kind.isCode = false → Even ((Text.lines e.content).countP isFence)) →
      ∀ pre e post, es = pre ++ e :: post → e.kind.isCode = true →
        Enclosed (contentMarkdown es label (BudgetedExcerpts.within limit given).footer)
          (linesAbove label pre e) (Text.fedLines e.content) := by
  intro always
  have enclosed := always [documentedCode] [] "X-1" 0 (by decide) (by decide) (by decide) []
    documentedCode [] rfl rfl
  have found : (Document.read (contentMarkdown [documentedCode] "X-1" none)).nodes.any
      (fun s => s.line = 11) = true := by decide +kernel
  obtain ⟨s, member, here⟩ := List.any_eq_true.mp found
  have place : s.line = 11 := by simpa using here
  have above : (linesAbove "X-1" [] documentedCode).length = 7 := by decide +kernel
  have size : (Text.fedLines documentedCode.content).length = 7 := by decide +kernel
  exact enclosed.bare s member (by rw [place, above, size]; decide)

end Report

end Traceability
