import Mathlib.Data.List.Sort
import Traceability.Proofs.Glob.Collect

/-!
# The collected files in order

The collected files stand in the strict order of their texts, so they are known by which files they
are: the order of globs and masks, and whether they are given twice, changes nothing, and what two
lists of globs lead to together is the union of what they lead to apart.
-/
namespace Traceability

/-- Whether the text of a path comes strictly before that of another one. -/
def Path.Before (p q : Path) : Prop := Text.le p.toText q.toText = true ∧ p.toText ≠ q.toText

instance : Std.Irrefl Path.Before := ⟨fun _ before => before.2 rfl⟩

instance : Std.Antisymm Path.Before :=
  ⟨fun _ _ before after => absurd (Text.le_antisymm before.1 after.1) before.2⟩

instance (p q : Path) : Decidable (p.Before q) := inferInstanceAs (Decidable (_ ∧ _))

namespace Glob

variable {d : Disk} {root p : Path} {globs ignored : List Text} {found paths' : List Path}

/-- The paths of a list, each of them once, in the order of their texts. -/
def inOrder (paths : List Path) : List Path :=
  sortBy (fun p q => Text.le p.toText q.toText) (distinct paths)

theorem mem_inOrder : p ∈ inOrder paths' ↔ p ∈ paths' := by
  rw [inOrder, mem_sortBy, mem_distinct]

/-- Different paths with proper names have different texts, so the order is strict. -/
theorem pairwise_inOrder (proper : ∀ p ∈ paths', p.Proper) :
    (inOrder paths').Pairwise Path.Before := by
  have once : (inOrder paths').Nodup :=
    (sortBy_perm _ _).nodup_iff.mpr (OrderedMap.nodup_keys_ofList _)
  have ordered : (inOrder paths').Pairwise fun p q => Text.le p.toText q.toText = true :=
    pairwise_sortBy (fun p q : Path => Text.le_total p.toText q.toText)
      (fun _ _ _ => Text.le_trans) _
  refine (ordered.and once).imp_of_mem fun {p q} first second both => ⟨both.1, fun same => ?_⟩
  exact both.2 (Path.toText_injective (proper p (mem_inOrder.mp first))
    (proper q (mem_inOrder.mp second)) same)

/-! ## What is collected -/

theorem proper_of_mem_collected (sound : d.Sound) (proper : root.Proper)
    (done : collect d root globs ignored = .ok found) (member : p ∈ found) : p.Proper := by
  obtain ⟨_, _, glob, _, steps, spelled, _, inside⟩ := (mem_collect done).mp member
  exact proper_of_mem_select sound spelled (proper_start proper glob) inside

theorem pairwise_collect (sound : d.Sound) (proper : root.Proper)
    (done : collect d root globs ignored = .ok found) : found.Pairwise Path.Before := by
  have named : ∀ p ∈ found, p.Proper := fun p => proper_of_mem_collected sound proper done
  obtain ⟨led, _, rfl⟩ := collect_eq_ok done
  exact pairwise_inOrder fun p member => named p (mem_inOrder.mpr member)

theorem ignores_eq_false_iff : ignores ignored root p = false ↔
    covers ignored (p.relativeOrSelf root) = false ∧ covers ignored p = false :=
  Bool.or_eq_false_iff

theorem ignores_congr {ignored' : List Text} (same : ∀ mask, mask ∈ ignored' ↔ mask ∈ ignored) :
    ignores ignored' root p = ignores ignored root p := by
  have covered (q : Path) : covers ignored' q = covers ignored q := by
    rw [Bool.eq_iff_iff, covers, covers, List.any_eq_true, List.any_eq_true]
    exact exists_congr fun mask => and_congr_left fun _ => same mask
  rw [ignores, ignores, covered, covered]

theorem exists_collect (usable : ∀ glob ∈ globs, ∀ e ∈ expand glob, ∃ led, paths d root e = .ok led)
    (ignored : List Text) : ∃ found, collect d root globs ignored = .ok found := by
  refine collect_isOk_iff.mpr fun e member => ?_
  obtain ⟨glob, given, chosen⟩ := List.mem_flatMap.mp member
  exact paths_isOk_iff.mp (usable glob given e chosen)

theorem mem_collect_iff_expansions (done : collect d root globs ignored = .ok found) :
    p ∈ found ↔ d.isFile p = true ∧
      (∃ glob ∈ globs, ∃ e ∈ expand glob, ∃ led, paths d root e = .ok led ∧ p ∈ led) ∧
      covers ignored (p.relativeOrSelf root) = false ∧ covers ignored p = false := by
  rw [mem_collect_iff_paths done, ignores_eq_false_iff]
  simp only [List.mem_flatMap]
  tauto

/-- For every disk, root, list of globs that can be used and list of masks, the collected files stand
in the strict order of their texts, and they are the files that a glob leads to and no mask covers.
The same files are collected for the same globs and masks in another order or given again, and for two
lists of globs one behind the other the union of what each of them leads to is collected. -/
theorem collect_canonical (sound : d.Sound) (proper : root.Proper)
    (usable : ∀ glob ∈ globs, ∀ e ∈ expand glob, ∃ led, paths d root e = .ok led)
    (ignored : List Text) :
    ∃ found, collect d root globs ignored = .ok found ∧ found.Pairwise Path.Before ∧
      (∀ p, p ∈ found ↔ d.isFile p = true ∧
        (∃ glob ∈ globs, ∃ e ∈ expand glob, ∃ led, paths d root e = .ok led ∧ p ∈ led) ∧
        covers ignored (p.relativeOrSelf root) = false ∧ covers ignored p = false) ∧
      (∀ globs' ignored', (∀ glob, glob ∈ globs' ↔ glob ∈ globs) →
        (∀ mask, mask ∈ ignored' ↔ mask ∈ ignored) →
          collect d root globs' ignored' = .ok found) ∧
      ∀ first second, globs = first ++ second → ∃ found₁ found₂,
        collect d root first ignored = .ok found₁ ∧ collect d root second ignored = .ok found₂ ∧
          found = inOrder (found₁ ++ found₂) := by
  obtain ⟨found, done⟩ := exists_collect usable ignored
  have ordered := pairwise_collect sound proper done
  refine ⟨found, done, ordered, fun p => mem_collect_iff_expansions done, ?_, ?_⟩
  · intro globs' ignored' sameGlobs sameMasks
    obtain ⟨found', done'⟩ :=
      exists_collect (fun glob given => usable glob ((sameGlobs glob).mp given)) ignored'
    have same : found' = found := by
      refine (pairwise_collect sound proper done').eq_of_mem_iff ordered fun p => ?_
      rw [mem_collect_iff_paths done', mem_collect_iff_paths done, ignores_congr sameMasks]
      simp only [List.mem_flatMap, sameGlobs]
    rw [done', same]
  · rintro first second rfl
    obtain ⟨found₁, done₁⟩ :=
      exists_collect (fun glob given => usable glob (List.mem_append_left _ given)) ignored
    obtain ⟨found₂, done₂⟩ :=
      exists_collect (fun glob given => usable glob (List.mem_append_right _ given)) ignored
    refine ⟨found₁, found₂, done₁, done₂, ?_⟩
    have named : ∀ p ∈ found₁ ++ found₂, p.Proper := by
      intro p member
      rcases List.mem_append.mp member with left | right
      · exact proper_of_mem_collected sound proper done₁ left
      · exact proper_of_mem_collected sound proper done₂ right
    refine ordered.eq_of_mem_iff (pairwise_inOrder named) fun p => ?_
    rw [mem_inOrder, List.mem_append, mem_collect_iff_paths done, mem_collect_iff_paths done₁,
      mem_collect_iff_paths done₂]
    simp only [List.flatMap_append, List.mem_append, or_and_right, exists_or, and_or_left]

/-- Files whose texts are in another order than their names, and files that masks cover. -/
def crowded : Disk :=
  let file (directory name : Text) (d : Disk) : Disk := d.write ["p", directory, name] []
  file "b" "a.md" <| file "a" "b.md" <| file "a-" "a.md" <| file "a" "a.md" <| file "a" "c.txt" <|
    file "tmp" "a.md" (.blank ["p"])

/-- Two globs lead to the same file; one mask is for the path below the root, one for the whole
path. -/
theorem collect_canonical_crowded :
    let root : Path := ⟨.root, ["p"]⟩
    let first : List Text := ["**/a.md"]
    let second : List Text := ["a/*.\x7bmd,txt\x7d"]
    let ignored : List Text := ["tmp/*", "p/b"]
    let found : List Path := [⟨.root, ["p", "a-", "a.md"]⟩, ⟨.root, ["p", "a", "a.md"]⟩,
      ⟨.root, ["p", "a", "b.md"]⟩, ⟨.root, ["p", "a", "c.txt"]⟩]
    crowded.Sound ∧ root.Proper ∧
      (∀ glob ∈ first ++ second, ∀ e ∈ expand glob, ∃ led, paths crowded root e = .ok led) ∧
      collect crowded root (first ++ second) ignored = .ok found ∧
      collect crowded root (second ++ first ++ first) ignored.reverse = .ok found ∧
      ∃ found₁ found₂, collect crowded root first ignored = .ok found₁ ∧
        collect crowded root second ignored = .ok found₂ ∧ found = inOrder (found₁ ++ found₂) := by
  intro root first second ignored found
  have sound : crowded.Sound := by decide +kernel
  have proper : root.Proper := by decide +kernel
  have read : ∀ glob ∈ first ++ second, ∀ e ∈ expand glob, (paths crowded root e).isOk = true := by
    decide +kernel
  have usable : ∀ glob ∈ first ++ second, ∀ e ∈ expand glob, ∃ led, paths crowded root e = .ok led :=
    fun glob given e chosen => exists_of_isOk (read glob given e chosen)
  have collected : collect crowded root (first ++ second) ignored = .ok found := by decide +kernel
  obtain ⟨found', done, -, -, alike, union⟩ := collect_canonical sound proper usable ignored
  obtain rfl : found' = found := by
    rw [collected] at done
    exact (Except.ok.inj done).symm
  refine ⟨sound, proper, usable, collected, ?_, union first second rfl⟩
  exact alike _ _ (by simp [or_comm]) (by simp)

end Glob

end Traceability
