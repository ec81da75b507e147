import SketchPrep.Proofs.Selection.Reasons

namespace SketchPrep.Selection

variable {header : String} {candidates : List Library} {imports : Imports} {ps : Platforms}
  {r : Resolution}

theorem resolve_eq_some (h : resolve header candidates imports ps = some r) :
    ∃ choice, choose header candidates imports ps = some choice ∧
      r.library = (imports.findByName? choice.library.name).getD choice.library ∧
      r.fromPlatform = choice.fromPlatform ∧ r.notUsed = candidates.filter (!·.same r.library) := by
  obtain ⟨choice, hc, rfl⟩ := Option.map_eq_some_iff.1 h
  exact ⟨choice, hc, rfl, rfl, rfl⟩

/-- Nothing stands in for a candidate unless it is in use already. -/
theorem resolve_fresh (h : resolve header candidates imports ps = some r)
    (hf : imports.contains r.library = false) :
    r.library ∈ candidates ∧ imports.findByName? r.library.name = none ∧
      r.fromPlatform = bundled ps r.library := by
  obtain ⟨choice, hc, hl, hp, _⟩ := resolve_eq_some h
  cases hn : imports.findByName? choice.library.name with
  | some l =>
      have he : r.library = l := by simpa only [hn, Option.getD_some] using hl
      have hm := Imports.contains_of_findByName? hn
      rw [← he, hf] at hm
      cases hm
  | none =>
      have he : r.library = choice.library := by simpa only [hn, Option.getD_none] using hl
      rw [he, hp]
      exact ⟨mem_of_choose hc, hn, fromPlatform_of_choose hc⟩

theorem contains_of_resolve {l : Library} (h : resolve header candidates imports ps = some r)
    (hl : l ∈ candidates) (hi : imports.contains l = true) : imports.contains r.library = true := by
  obtain ⟨choice, hc, he, _, _⟩ := resolve_eq_some h
  rw [he]
  cases hn : imports.findByName? choice.library.name with
  | some m => exact Imports.contains_of_findByName? hn
  | none => exact contains_of_choose hc hl hi

theorem resolve_eq_none_iff : resolve header candidates imports ps = none ↔ candidates = [] := by
  rw [resolve, Option.map_eq_none_iff, choose_eq_none_iff]

end SketchPrep.Selection
