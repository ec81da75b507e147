import SketchPrep.Discovery.Queue
import SketchPrep.Proofs.Path.Sameness

namespace SketchPrep.SourceQueue

def accepted (seen : List Path) : List Path → List Path
  | [] => []
  | p :: ps => if hasPath seen p then accepted seen ps else p :: accepted (seen ++ [p]) ps

theorem extend_eq (t : FileTree) (q : SourceQueue) (ps : List Path) :
    q.extend t ps =
      ⟨q.pending ++ accepted q.seen (ps.map t.normalize),
        q.seen ++ accepted q.seen (ps.map t.normalize)⟩ := by
  induction ps generalizing q with
  | nil => simp [extend, accepted]
  | cons p ps ih =>
      have hcons : q.extend t (p :: ps) = (q.push t p).2.extend t ps := rfl
      rw [hcons, ih, push, add, List.map_cons, accepted]
      split <;> simp

theorem pending_extend (t : FileTree) (q : SourceQueue) (ps : List Path) :
    (q.extend t ps).pending = q.pending ++ accepted q.seen (ps.map t.normalize) := by
  rw [extend_eq]

theorem seen_extend (t : FileTree) (q : SourceQueue) (ps : List Path) :
    (q.extend t ps).seen = q.seen ++ accepted q.seen (ps.map t.normalize) := by
  rw [extend_eq]

theorem prefix_seen_push (t : FileTree) (q : SourceQueue) (p : Path) :
    q.seen <+: (q.push t p).2.seen :=
  ⟨accepted q.seen [t.normalize p], (seen_extend t q [p]).symm⟩

theorem accepted_sublist (seen ps : List Path) : (accepted seen ps).Sublist ps := by
  induction ps generalizing seen with
  | nil => exact .slnil
  | cons p ps ih =>
      rw [accepted]
      split
      · exact .cons _ (ih _)
      · exact .cons_cons _ (ih _)

theorem length_accepted_le (seen ps : List Path) : (accepted seen ps).length ≤ ps.length :=
  (accepted_sublist seen ps).length_le

/-- Every path that is offered was seen before or is accepted, in one spelling or another. -/
theorem hasPath_append_accepted {seen ps : List Path} {p : Path}
    (h : hasPath (seen ++ ps) p = true) : hasPath (seen ++ accepted seen ps) p = true := by
  induction ps generalizing seen with
  | nil => exact h
  | cons q ps ih =>
      rw [accepted]
      split
      · rename_i hq
        apply ih
        simp only [hasPath_append, Bool.or_eq_true] at h ⊢
        rcases h with h | h
        · exact .inl h
        · obtain ⟨q', hm, he⟩ := hasPath_iff.1 h
          rcases List.mem_cons.1 hm with rfl | hm
          · exact .inl (hasPath_congr he ▸ hq)
          · exact .inr (hasPath_iff.2 ⟨q', hm, he⟩)
      · have hq : hasPath ((seen ++ [q]) ++ ps) p = true := by simpa using h
        simpa using ih hq

theorem accepted_append (seen ps qs : List Path) :
    accepted seen (ps ++ qs) = accepted seen ps ++ accepted (seen ++ accepted seen ps) qs := by
  induction ps generalizing seen with
  | nil => simp [accepted]
  | cons p ps ih =>
      rw [List.cons_append, accepted, accepted]
      split
      · exact ih seen
      · rw [ih, List.cons_append, List.append_assoc, List.singleton_append]

theorem not_hasPath_of_mem_accepted {seen ps : List Path} {p : Path} (h : p ∈ accepted seen ps) :
    hasPath seen p = false := by
  induction ps generalizing seen with
  | nil => cases h
  | cons q ps ih =>
      rw [accepted] at h
      split at h
      · exact ih h
      · rename_i hq
        rcases List.mem_cons.1 h with rfl | h
        · exact Bool.eq_false_iff.2 hq
        · have hnot := ih h
          rw [hasPath_append, Bool.or_eq_false_iff] at hnot
          exact hnot.1

/-- Nothing is accepted twice, in no two spellings. -/
theorem accepted_pairwise (seen ps : List Path) :
    (accepted seen ps).Pairwise fun p q => p.same q = false := by
  induction ps generalizing seen with
  | nil => exact .nil
  | cons p ps ih =>
      rw [accepted]
      split
      · exact ih seen
      · refine .cons (fun q hq => ?_) (ih _)
        have hnot := not_hasPath_of_mem_accepted hq
        rw [hasPath_append, Bool.or_eq_false_iff] at hnot
        simpa [hasPath] using hnot.2

end SketchPrep.SourceQueue
