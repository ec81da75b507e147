import SketchPrep.Path.Basic

namespace SketchPrep

namespace Component

instance : Std.TransOrd Component :=
  inferInstanceAs (Std.TransCmp (compareLex (compareOn rank) (compareOn text)))

theorem eq_of_rank_of_text {a b : Component} (hr : a.rank = b.rank) (ht : a.text = b.text) : a = b := by
  cases a <;> cases b
  case name.name => exact congrArg name ht
  all_goals first | rfl | cases hr

instance : Std.LawfulEqOrd Component where
  compare_self := Std.ReflCmp.compare_self
  eq_of_compare := by
    intro a b h
    obtain ⟨hr, ht⟩ := compareLex_eq_eq.1 h
    exact eq_of_rank_of_text (Std.LawfulEqCmp.eq_of_compare hr) (Std.LawfulEqCmp.eq_of_compare ht)

end Component

namespace Path

variable {p q r : Path}

theorem le_trans (hpq : p.le q = true) (hqr : q.le r = true) : p.le r = true :=
  Std.TransOrd.isLE_trans hpq hqr

theorem le_total (p q : Path) : (p.le q || q.le p) = true := by
  rw [le, le, Std.OrientedOrd.eq_swap (a := p.components)]
  cases compare q.components p.components <;> rfl

theorem same_of_le_of_le (hpq : p.le q = true) (hqp : q.le p = true) : p.same q = true := by
  rw [same_iff]
  exact Std.LawfulEqCmp.eq_of_compare (Std.OrientedCmp.isLE_antisymm hpq hqp)

theorem pairwise_sort (ps : List Path) : (sort ps).Pairwise fun p q => p.le q = true := by
  refine List.pairwise_mergeSort (fun p q r => ?_) (fun p q => ?_) ps
  · exact le_trans
  · exact le_total p q

end Path

end SketchPrep
