import Traceability.Live.Source
import Traceability.Proofs.Live.Represents
import Traceability.Proofs.Marker.Origin

/-!
# What a file contributes

A file speaks as a spec or as code, never as both, and only of itself.
-/
namespace Traceability

namespace Spec.Document

theorem path_of_mem_definitions {keywords : List Text} {path text : Text} {d : Definition}
    (member : d ∈ (read keywords path text).definitions) : d.location.path = path := by
  obtain ⟨⟨line, number⟩, _, found⟩ := List.mem_filterMap.mp member
  obtain ⟨declared, _, rfl⟩ := Option.map_eq_some_iff.mp found
  rfl

end Spec.Document

namespace LiveIndex

theorem contribution_path (i : LiveIndex) (path : Path) (text? : Option Text) :
    (i.contribution path text?).path = path.toText := by
  unfold contribution
  dsimp only
  split
  · rfl
  · split
    · rfl
    · split <;> rfl

/-- Two indexes with the same settings and root take a file for the same. -/
theorem contribution_congr {i j : LiveIndex} (config : i.config = j.config) (root : i.root = j.root) :
    i.contribution = j.contribution := by
  funext path text?
  unfold contribution isSpec isIgnoredCode
  rw [config, root]

theorem contribution_local (i : LiveIndex) (path : Path) (text? : Option Text) :
    (i.contribution path text?).Local := by
  rw [Contribution.Local, contribution_path]
  unfold contribution
  dsimp only
  split
  · simp
  · split
    · refine ⟨?_, by simp⟩
      dsimp only
      intro d member
      exact Spec.Document.path_of_mem_definitions member
    · split
      · simp
      · refine ⟨by simp, ?_⟩
        dsimp only
        intro m member
        exact Marker.path_of_mem_scan member

theorem contribution_oneSort (i : LiveIndex) (path : Path) (text? : Option Text) :
    (i.contribution path text?).definitions = [] ∨ (i.contribution path text?).markers = [] := by
  unfold contribution
  dsimp only
  split
  · exact Or.inl rfl
  · split
    · exact Or.inr rfl
    · split
      · exact Or.inl rfl
      · exact Or.inl rfl

/-- The markers of a file are those of one scan of it. -/
theorem contribution_markers (i : LiveIndex) (path : Path) (text? : Option Text) :
    (i.contribution path text?).markers = [] ∨ ∃ t,
      (i.contribution path text?).markers = (Marker.scan i.config.markers path.toText t).markers := by
  unfold contribution
  dsimp only
  split
  · exact Or.inl rfl
  · next t =>
    split
    · exact Or.inl rfl
    · split
      · exact Or.inl rfl
      · exact Or.inr ⟨t, rfl⟩

end LiveIndex

end Traceability
