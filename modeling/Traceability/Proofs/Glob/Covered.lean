import Traceability.Proofs.Cut
import Traceability.Proofs.Glob.Collect
import Traceability.Proofs.Glob.Mask
import Traceability.Proofs.Glob.Name
import Traceability.Proofs.Live.Files

/-!
# What is collected is covered

A glob leads to files name by name, and a mask reads the text of a path. Where a glob is a list of
components between slashes, the text of every file that it leads to is in the language of its text,
so the glob covers the file when it is taken for a mask: the specs that a build collects are specs for
the editor as well.
-/
namespace Traceability

namespace Glob

open NamePattern (fits isPattern)

/-- Whether a text is one component of a glob: two stars, or a pattern for a name without two stars in
a row and without brackets, and neither empty nor one of the names of one and of two points. -/
structure IsComponent (c : Text) : Prop where
  filled : c ≠ []
  notHere : c ≠ ['.']
  notUp : c ≠ ['.', '.']
  unbracketed : '[' ∉ c
  stars : c = ['*', '*'] ∨ ¬ ['*', '*'] <:+: c

instance (c : Text) : Decidable (IsComponent c) :=
  decidable_of_iff
    (c ≠ [] ∧ c ≠ ['.'] ∧ c ≠ ['.', '.'] ∧ '[' ∉ c ∧ (c = ['*', '*'] ∨ ¬ ['*', '*'] <:+: c))
    ⟨fun ⟨filled, notHere, notUp, unbracketed, stars⟩ =>
        ⟨filled, notHere, notUp, unbracketed, stars⟩,
      fun component => ⟨component.filled, component.notHere, component.notUp,
        component.unbracketed, component.stars⟩⟩

/-- Whether a glob is, for every choice of alternatives, a list of components between slashes. -/
def Regular (glob : Text) : Prop := ∀ e ∈ expand glob, ∀ c ∈ Text.splitOn '/' e, IsComponent c

instance (glob : Text) : Decidable (Regular glob) :=
  inferInstanceAs (Decidable (∀ e ∈ expand glob, ∀ c ∈ Text.splitOn '/' e, IsComponent c))

variable {c e n w : Text} {names : List Text}

/-! ## Components -/

theorem IsComponent.isName (component : IsComponent c) : Path.isName c = true := by
  simp [Path.isName, component.filled, component.notHere]

/-- What fits a component as a pattern for a name is what the component stands for in a mask, where no
further star follows. -/
theorem stands_of_fits (apart : ¬ ['*', '*'] <:+: c) (next : e.head? ≠ some '*') (whole : '/' ∉ n)
    (fitted : fits (c.map .ofChar) n = true) (rest : Stands e w) : Stands (c ++ e) (n ++ w) := by
  induction c generalizing n with
  | nil =>
    have nothing : n = [] := by simpa [fits] using fitted
    rw [nothing]
    exact rest
  | cons d c ih =>
    have apart' : ¬ ['*', '*'] <:+: c := fun inside =>
      apart (inside.trans (List.suffix_cons d c).isInfix)
    rw [List.map_cons, NamePiece.ofChar] at fitted
    rw [List.cons_append]
    split_ifs at fitted with star mark
    · -- a star takes a front part of the name
      subst star
      obtain ⟨behind, among, fitted'⟩ := List.any_eq_true.mp fitted
      obtain ⟨x, rfl⟩ := mem_tails_iff.mp among
      have second : (c ++ e).head? ≠ some '*' := by
        cases c with
        | nil => exact next
        | cons d c =>
          rintro ⟨⟩
          exact apart ⟨[], c, rfl⟩
      have free : '/' ∉ x := fun inside => whole (List.mem_append_left _ inside)
      have whole' : '/' ∉ behind := fun inside => whole (List.mem_append_right _ inside)
      rw [List.append_assoc]
      exact .segment second free (ih apart' whole' fitted')
    · subst mark
      cases n with
      | nil => cases fitted
      | cons x n =>
        obtain ⟨other, whole'⟩ := not_or.mp (mt List.mem_cons.mpr whole)
        exact .one (Ne.symm other) (ih apart' whole' fitted)
    · cases n with
      | nil => cases fitted
      | cons x n =>
        obtain ⟨same, fitted'⟩ := Bool.and_eq_true_iff.mp fitted
        obtain rfl : x = d := by simpa [NamePattern.holds] using same
        have whole' := (not_or.mp (mt List.mem_cons.mpr whole)).2
        exact .exactly star mark (ih apart' whole' fitted')

theorem stepOf_stars : stepOf ['*', '*'] = .ok .directories := rfl

/-- The step of another component takes a name that fits the component. -/
theorem exists_stepOf (component : IsComponent c) (apart : ¬ ['*', '*'] <:+: c) :
    ∃ step, stepOf c = .ok step ∧ ∀ rest names, leads (step :: rest) names →
      ∃ n after, names = n :: after ∧ fits (c.map .ofChar) n = true ∧ leads rest after := by
  have notStars : c ≠ ['*', '*'] := by
    rintro rfl
    exact apart (List.infix_refl _)
  have single : ¬ c.includes "**" = true := fun found => apart (Text.includes_iff_infix.mp found)
  unfold stepOf
  rw [if_neg notStars, if_neg single]
  by_cases pattern : isPattern c = true
  · rw [if_pos pattern]
    refine ⟨_, rfl, fun rest names taken => ?_⟩
    obtain ⟨n, after, rfl, fitted, taken⟩ := taken
    rw [ofText_eq_map component.unbracketed] at fitted
    exact ⟨n, after, rfl, fitted, taken⟩
  · rw [if_neg pattern]
    refine ⟨_, rfl, fun rest names taken => ?_⟩
    obtain ⟨after, rfl, taken⟩ := taken
    exact ⟨c, after, rfl, fits_self (Bool.eq_false_iff.mpr pattern), taken⟩

theorem exists_stepOf_component (component : IsComponent c) : ∃ step, stepOf c = .ok step := by
  rcases component.stars with rfl | apart
  · exact ⟨_, stepOf_stars⟩
  · obtain ⟨step, read, _⟩ := exists_stepOf component apart
    exact ⟨step, read⟩

/-! ## Globs -/

/-- The directories before a name, each with its slash, are what two stars and a slash stand for. -/
theorem join_append_eq (before : List Text) {after : List Text} (filled : after ≠ []) :
    ∃ x : Text, (x = [] ∨ ∃ y, x = y ++ ['/']) ∧
      Text.join ['/'] (before ++ after) = x ++ Text.join ['/'] after := by
  induction before with
  | nil => exact ⟨[], .inl rfl, rfl⟩
  | cons n before ih =>
    obtain ⟨x, ends, split⟩ := ih
    obtain ⟨first, rest, shape⟩ :=
      List.exists_cons_of_ne_nil (List.append_ne_nil_of_right_ne_nil before filled)
    refine ⟨n ++ '/' :: x, .inr ?_, ?_⟩
    · rcases ends with rfl | ⟨y, rfl⟩
      · exact ⟨n, rfl⟩
      · exact ⟨n ++ '/' :: y, by simp⟩
    · rw [List.cons_append, shape, Text.join_cons_cons, ← shape, split]
      simp

/-- The names that the steps of a glob take are, joined, in the language of its text. -/
theorem stands_of_leads {components : List Text} {steps : List GlobStep}
    (regular : ∀ c ∈ components, IsComponent c) (filled : components ≠ [])
    (read : List.Forall₂ (fun c step => stepOf c = .ok step) components steps)
    (whole : ∀ n ∈ names, '/' ∉ n) (taken : leads steps names) :
    Stands (Text.join ['/'] components) (Text.join ['/'] names) := by
  induction read generalizing names with
  | nil => exact absurd rfl filled
  | @cons c step components steps here later ih =>
    obtain ⟨component, regular'⟩ := List.forall_mem_cons.mp regular
    have more (next : components ≠ []) : steps ≠ [] := by
      rintro rfl
      exact next (List.forall₂_nil_right_iff.mp later)
    rcases component.stars with rfl | apart
    · cases stepOf_stars.symm.trans here
      obtain ⟨before, after, rfl, behind, taken⟩ := taken
      cases later with
      | nil => exact absurd taken behind
      | @cons d _ components _ first later =>
        obtain ⟨x, ends, split⟩ := join_append_eq before behind
        rw [split, Text.join_cons_cons]
        refine .directories ends (ih regular' (by simp) ?_ taken)
        exact fun n member => whole n (List.mem_append_right _ member)
    · obtain ⟨step', here', takes⟩ := exists_stepOf component apart
      cases here'.symm.trans here
      obtain ⟨n, after, rfl, fitted, taken⟩ := takes _ _ taken
      obtain ⟨wholeName, whole⟩ := List.forall_mem_cons.mp whole
      cases later with
      | nil =>
        rw [show after = [] from taken, Text.join, Text.join, ← List.append_nil c,
          ← List.append_nil n]
        exact stands_of_fits apart (by simp) wholeName fitted .nil
      | @cons d _ components _ first later =>
        obtain ⟨m, after, rfl⟩ := List.exists_cons_of_ne_nil (ne_nil_of_leads (by simp) taken)
        rw [Text.join_cons_cons, Text.join_cons_cons]
        refine stands_of_fits apart (by simp) wholeName fitted ?_
        exact .exactly (by decide) (by decide) (ih regular' (by simp) whole taken)

theorem ofText_of_components (regular : ∀ c ∈ Text.splitOn '/' e, IsComponent c) :
    Path.ofText e = ⟨.relative, Text.splitOn '/' e⟩ := by
  have named : ∀ c ∈ Text.splitOn '/' e, Path.ProperName c := fun c member =>
    ⟨(regular c member).isName, Text.not_mem_of_mem_splitOn member⟩
  have anchor := Path.anchorOf_slashes named .relative
  rw [Anchor.slashes, List.nil_append, Text.join_splitOn] at anchor
  rw [Path.ofText, anchor, List.filter_eq_self.mpr fun c member => (regular c member).isName]

theorem not_endsWith_slash (regular : ∀ c ∈ Text.splitOn '/' e, IsComponent c) :
    ¬ e.endsWith "/" = true := by
  intro ends
  obtain ⟨front, found⟩ := Option.isSome_iff_exists.mp ends
  have shape : e = front ++ ['/'] := Text.dropTail?_eq_some_iff.mp found
  rw [shape, Text.splitOn_append] at regular
  exact (regular [] (List.mem_append_right _ List.mem_cons_self)).filled rfl

/-- A list of components spells one step for each of them. -/
theorem exists_stepsOf (regular : ∀ c ∈ Text.splitOn '/' e, IsComponent c) :
    ∃ steps, stepsOf e = .ok steps ∧
      List.Forall₂ (fun c step => stepOf c = .ok step) (Text.splitOn '/' e) steps := by
  obtain ⟨steps, read⟩ :=
    mapM_isOk_iff.mpr fun c member => exists_stepOf_component (regular c member)
  refine ⟨steps, ?_, mapM_eq_ok_iff.mp read⟩
  have filled : e ≠ [] := by
    rintro rfl
    exact (regular [] List.mem_cons_self).filled rfl
  have parts : (Path.ofText e).parts = Text.splitOn '/' e := by rw [ofText_of_components regular]
  unfold stepsOf
  dsimp only
  rw [if_neg filled, parts, if_neg (Text.splitOn_ne_nil '/' e)]
  refine bind_eq_ok_iff.mpr ⟨steps, read, ?_⟩
  rw [Bool.eq_false_iff.mpr (not_endsWith_slash regular), Bool.and_false]
  rfl

theorem start_of_components (regular : ∀ c ∈ Text.splitOn '/' e, IsComponent c) (root : Path) :
    start root e = root := by
  simp [start, ofText_of_components regular, Path.isAbsolute]

/-! ## What is collected -/

section Collected

variable {d : Disk} {root p : Path} {globs ignored : List Text} {found : List Path}

theorem relativeTo?_descendant (root : Path) (names : List Text) :
    (descendant root names).relativeTo? root = some ⟨.relative, names⟩ := by
  rw [Path.relativeTo?, descendant, if_pos rfl, Path.dropLeading?_eq_some_iff.mpr rfl,
    Option.map_some]

/-- Regular globs can be used. -/
theorem exists_collect_of_regular (regular : ∀ glob ∈ globs, Regular glob) :
    ∃ found, collect d root globs ignored = .ok found := by
  refine collect_isOk_iff.mpr fun e member => ?_
  obtain ⟨glob, given, chosen⟩ := List.mem_flatMap.mp member
  obtain ⟨steps, spelled, _⟩ := exists_stepsOf (regular glob given e chosen)
  exact ⟨steps, spelled⟩

/-- A file that regular globs lead to lies below the root, and they cover it. -/
theorem covers_of_mem_collect (sound : d.Sound) (regular : ∀ glob ∈ globs, Regular glob)
    (done : collect d root globs ignored = .ok found) (member : p ∈ found) :
    ∃ w, p.relativeTo? root = some w ∧ ('\n' ∉ w.toText → covers globs w = true) := by
  obtain ⟨file, _, e, among, steps, spelled, directory, inside⟩ := (mem_collect done).mp member
  obtain ⟨glob, given, chosen⟩ := List.mem_flatMap.mp among
  have components := regular glob given e chosen
  obtain ⟨steps', spelled', read⟩ := exists_stepsOf components
  cases spelled'.symm.trans spelled
  rw [start_of_components components] at directory inside
  obtain ⟨names, rfl, taken⟩ := leads_of_mem_select sound file (fun _ => directory) inside
  have whole : ∀ n ∈ names, '/' ∉ n := by
    obtain ⟨names', same, named⟩ := descendant_of_mem_select sound inside
    rw [descendant_injective same]
    intro n part
    rcases named n part with entry | step
    · exact entry.1.2
    · exact (Path.proper_ofText e n ((stepsOf_eq_ok spelled).2 n step)).2
  refine ⟨⟨.relative, names⟩, relativeTo?_descendant root names, fun unbroken => ?_⟩
  have spelledOut : (⟨.relative, names⟩ : Path).toText = Text.join ['/'] names := by
    obtain ⟨n, rest, rfl⟩ :=
      List.exists_cons_of_ne_nil (ne_nil_of_leads (stepsOf_eq_ok spelled).1 taken)
    rfl
  have stands := stands_of_leads components (Text.splitOn_ne_nil '/' e) read whole taken
  rw [Text.join_splitOn] at stands
  rw [spelledOut] at unbroken
  refine List.any_eq_true.mpr ⟨glob, given, ?_⟩
  rw [spelledOut]
  exact (coversText_iff unbroken).mpr
    ⟨[], Text.join ['/'] names, [], .inl rfl, .inl rfl, ⟨e, chosen, stands⟩, by simp⟩

end Collected

end Glob

namespace LiveIndex

/-- Every file that regular globs lead to is covered by them, so that under regular globs for specs an
index takes every spec that its build collects for one. -/
theorem isSpec_of_collected {d : Disk} (sound : d.Sound) :
    (∀ root globs ignored, (∀ glob ∈ globs, Glob.Regular glob) →
      ∃ found, Glob.collect d root globs ignored = .ok found ∧ ∀ p ∈ found,
        ∃ w, p.relativeTo? root = some w ∧ ('\n' ∉ w.toText → Glob.covers globs w = true)) ∧
    ∀ config root (i i' : LiveIndex), (∀ glob ∈ config.specGlobs, Glob.Regular glob) →
      i.rebuild d config root = (i', none) →
        ∃ specs, (⟨d, i'.root, config⟩ : Project).specPaths = .ok specs ∧ ∀ p ∈ specs,
          ∃ w, p.relativeTo? i'.root = some w ∧ ('\n' ∉ w.toText → i'.isSpec p = true) := by
  constructor
  · intro root globs ignored regular
    obtain ⟨found, done⟩ := Glob.exists_collect_of_regular regular
    exact ⟨found, done, fun p member => Glob.covers_of_mem_collect sound regular done member⟩
  · intro config root i i' regular built
    obtain ⟨_, paths, done, _, sameConfig, _⟩ := rebuild_eq_none built
    obtain ⟨specs, code, specFiles, _, _⟩ := filesOf_eq_ok done
    refine ⟨specs, specFiles, fun p member => ?_⟩
    have collected := Project.collect_eq_ok specFiles
    obtain ⟨w, below, covered⟩ := Glob.covers_of_mem_collect sound regular collected member
    obtain ⟨_, kept, _⟩ := (Glob.mem_collect collected).mp member
    refine ⟨w, below, fun unbroken => ?_⟩
    rw [isSpec, sameConfig, kept, Path.relativeOrSelf, below, Option.getD_some, covered unbroken]
    rfl

/-- A glob with alternatives, stars for any number of directories and a star within a name leads to a
spec without a directory of its own and to one below two directories. -/
theorem isSpec_of_collected_docs :
    let file (names : List Text) (d : Disk) : Disk := d.write ("p" :: names) []
    let d := file ["docs", "x.txt"] <| file ["docs", "a", "b", "REQ-1.md"] <|
      file ["docs", "REQ-2.md"] (.blank ["p"])
    let root : Path := ⟨.root, ["p"]⟩
    let globs : List Text := ["\x7bdocs,spec?\x7d/**/REQ-*.md"]
    let config : Config := { specGlobs := globs, codeGlobs := ["**/*.py"] }
    let i' := (({} : LiveIndex).rebuild d config root).1
    d.Sound ∧ (∀ glob ∈ globs, Glob.Regular glob) ∧
      Glob.collect d root globs [] = .ok [⟨.root, ["p", "docs", "REQ-2.md"]⟩,
        ⟨.root, ["p", "docs", "a", "b", "REQ-1.md"]⟩] ∧
      Glob.covers globs ⟨.relative, ["docs", "REQ-2.md"]⟩ = true ∧
      ({} : LiveIndex).rebuild d config root = (i', none) ∧
      i'.isSpec ⟨.root, ["p", "docs", "a", "b", "REQ-1.md"]⟩ = true := by
  intro file d root globs config i'
  have sound : d.Sound := by decide +kernel
  have regular : ∀ glob ∈ globs, Glob.Regular glob := by decide +kernel
  have collected : Glob.collect d root globs [] = .ok [⟨.root, ["p", "docs", "REQ-2.md"]⟩,
      ⟨.root, ["p", "docs", "a", "b", "REQ-1.md"]⟩] := by decide +kernel
  have built : ({} : LiveIndex).rebuild d config root = (i', none) :=
    Prod.ext rfl (by decide +kernel)
  have sameRoot : i'.root = root := by decide +kernel
  refine ⟨sound, regular, collected, ?_, built, ?_⟩
  · obtain ⟨found, done, covered⟩ := (isSpec_of_collected sound).1 root globs [] regular
    cases collected.symm.trans done
    obtain ⟨w, below, covered⟩ := covered ⟨.root, ["p", "docs", "REQ-2.md"]⟩ (by decide)
    cases below
    exact covered (by decide +kernel)
  · obtain ⟨specs, done, told⟩ := (isSpec_of_collected sound).2 config root {} i' regular built
    have files : (⟨d, i'.root, config⟩ : Project).specPaths =
        .ok [⟨.root, ["p", "docs", "REQ-2.md"]⟩, ⟨.root, ["p", "docs", "a", "b", "REQ-1.md"]⟩] := by
      decide +kernel
    cases files.symm.trans done
    obtain ⟨w, below, told⟩ := told ⟨.root, ["p", "docs", "a", "b", "REQ-1.md"]⟩ (by decide)
    rw [sameRoot] at below
    cases below
    exact told (by decide +kernel)

end LiveIndex

end Traceability
