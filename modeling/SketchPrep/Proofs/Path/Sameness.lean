import SketchPrep.Path.Basic

namespace SketchPrep

theorem Path.same_comm (p q : Path) : p.same q = q.same p := Bool.eq_iff_iff.2 (by
  rw [Path.same_iff, Path.same_iff, eq_comm])

theorem hasPath_iff {ps : List Path} {p : Path} :
    hasPath ps p = true ↔ ∃ q ∈ ps, q.components = p.components := by
  simp only [hasPath, List.any_eq_true, Path.same_iff]

theorem hasPath_of_mem {ps : List Path} {p : Path} (h : p ∈ ps) : hasPath ps p = true :=
  hasPath_iff.2 ⟨p, h, rfl⟩

@[simp]
theorem hasPath_append (ps qs : List Path) (p : Path) :
    hasPath (ps ++ qs) p = (hasPath ps p || hasPath qs p) := List.any_append ..

theorem hasPath_of_prefix {ps qs : List Path} {p : Path} (h : ps <+: qs) (hp : hasPath ps p = true) :
    hasPath qs p = true := by
  obtain ⟨q, hq, he⟩ := hasPath_iff.1 hp
  exact hasPath_iff.2 ⟨q, h.subset hq, he⟩

theorem hasPath_congr {ps : List Path} {p q : Path} (h : p.components = q.components) :
    hasPath ps p = hasPath ps q := Bool.eq_iff_iff.2 (by rw [hasPath_iff, hasPath_iff, h])

end SketchPrep
