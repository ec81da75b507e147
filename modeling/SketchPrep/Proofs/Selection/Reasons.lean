import Mathlib.Data.List.Find
import SketchPrep.Proofs.Selection.ByName

namespace SketchPrep

namespace Imports

theorem contains_of_mem {i : Imports} {l : Library} (h : l ∈ i.libraries) : i.contains l = true :=
  List.any_eq_true.2 ⟨l, h, l.same_refl⟩

theorem contains_iff {i : Imports} {l : Library} :
    i.contains l = true ↔ ∃ m ∈ i.libraries, m.same l = true := List.any_eq_true

end Imports

namespace Selection

variable {header : String} {candidates : List Library} {imports : Imports} {ps : Platforms}
  {l : Library} {choice : Choice}

def runsOutside (ps : Platforms) (p : Platform) (l : Library) : Bool :=
  l.architectures.supports p.id && !bundled ps l

def groups (ps : Platforms) : List (Library → Bool) :=
  [runsOutside ps ps.core, runsOutside ps ps.target,
    fun l => ps.core.contains l.folder, fun l => ps.target.contains l.folder]

def reasons (header : String) (imports : Imports) (ps : Platforms) : List (Library → Bool) :=
  imports.contains ::
    (groups ps).flatMap fun group => (nameTests header).map fun test l => group l && test l

theorem foremost?_groups (header : String) (candidates : List Library) (gs : List (Library → Bool)) :
    foremost? (gs.flatMap fun group => (nameTests header).map fun test l => group l && test l) candidates =
      gs.findSome? fun group => bestByName header (candidates.filter group) := by
  induction gs with
  | nil => rfl
  | cons group gs ih =>
      rw [List.flatMap_cons, foremost?_append, ih, List.findSome?_cons, bestByName_eq, foremost?_filter]
      cases foremost? ((nameTests header).map fun test l => group l && test l) candidates <;> rfl

theorem bestOutside_eq (header : String) (candidates : List Library) (ps : Platforms) :
    bestOutside header candidates ps =
      [runsOutside ps ps.core, runsOutside ps ps.target].findSome? fun group =>
        bestByName header (candidates.filter group) := by
  simp only [bestOutside, Platforms.byPriority, List.findSome?_cons, List.filter_filter]
  rfl

theorem filter_inside (ps : Platforms) {p : Platform} (hp : p ∈ ps.byPriority)
    (candidates : List Library) :
    (candidates.filter (bundled ps)).filter (·.folder.isWithin p.folder) =
      candidates.filter fun l => p.contains l.folder := by
  rw [List.filter_filter]
  apply congrArg (List.filter · candidates)
  funext l
  cases hl : l.folder.isWithin p.folder with
  | false => exact hl.symm
  | true =>
      have hb : bundled ps l = true := List.any_eq_true.2 ⟨p, hp, hl⟩
      rw [hb]
      exact hl.symm

theorem bestInside_eq (header : String) (candidates : List Library) (ps : Platforms) :
    bestInside header candidates ps =
      [fun l => ps.core.contains l.folder, fun l => ps.target.contains l.folder].findSome? fun group =>
        bestByName header (candidates.filter group) := by
  have hcore := filter_inside ps (p := ps.core) (by simp [Platforms.byPriority]) candidates
  have htarget := filter_inside ps (p := ps.target) (by simp [Platforms.byPriority]) candidates
  simp only [bestInside, Platforms.byPriority, List.findSome?_cons, hcore, htarget]
  rfl

theorem bundled_of_bestOutside {l : Library} (h : bestOutside header candidates ps = some l) :
    bundled ps l = false := by
  obtain ⟨p, _, hp⟩ := List.exists_of_findSome?_eq_some h
  have hm := (List.mem_filter.1 (mem_of_bestByName hp)).1
  simpa using (List.mem_filter.1 hm).2

theorem bundled_of_bestInside {l : Library} (h : bestInside header candidates ps = some l) :
    bundled ps l = true := by
  obtain ⟨p, _, hp⟩ := List.exists_of_findSome?_eq_some h
  have hm := (List.mem_filter.1 (mem_of_bestByName hp)).1
  exact (List.mem_filter.1 hm).2

theorem choose_eq (header : String) (candidates : List Library) (imports : Imports) (ps : Platforms) :
    choose header candidates imports ps =
      ((foremost? (reasons header imports ps) candidates).or candidates.getLast?).map fun l =>
        ⟨l, bundled ps l⟩ := by
  match candidates with
  | [] =>
      have hnone : foremost? (reasons header imports ps) [] = none :=
        foremost?_eq_none_iff.2 (by simp)
      rw [hnone]
      rfl
  | [only] =>
      cases hf : foremost? (reasons header imports ps) [only] with
      | none => rfl
      | some l =>
          rw [List.mem_singleton.1 (mem_of_foremost? hf)]
          rfl
  | first :: second :: others =>
      have hgroups : (groups ps).findSome? (fun group =>
          bestByName header ((first :: second :: others).filter group)) =
          (bestOutside header (first :: second :: others) ps).or
            (bestInside header (first :: second :: others) ps) := by
        rw [bestOutside_eq, bestInside_eq, ← List.findSome?_append]
        rfl
      rw [reasons, foremost?_cons, foremost?_groups, hgroups]
      simp only [choose]
      cases hf : (first :: second :: others).find? imports.contains with
      | some l => rfl
      | none =>
          cases ho : bestOutside header (first :: second :: others) ps with
          | some l =>
              have hb := bundled_of_bestOutside ho
              simp [hb]
          | none =>
              cases hi : bestInside header (first :: second :: others) ps with
              | some l =>
                  have hb := bundled_of_bestInside hi
                  simp [hb]
              | none => rfl

theorem choose_of_find? (h : candidates.find? imports.contains = some l) :
    choose header candidates imports ps = some ⟨l, bundled ps l⟩ := by
  rw [choose_eq, reasons, foremost?_cons, h]
  rfl

theorem choose_congr {imports' : Imports}
    (h : ∀ m ∈ candidates, imports.contains m = imports'.contains m) :
    choose header candidates imports ps = choose header candidates imports' ps := by
  have hfind : candidates.find? imports.contains = candidates.find? imports'.contains :=
    List.find?_congr h
  rw [choose_eq, choose_eq, reasons, reasons, foremost?_cons, foremost?_cons, hfind]

theorem fromPlatform_of_choose (h : choose header candidates imports ps = some choice) :
    choice.fromPlatform = bundled ps choice.library := by
  rw [choose_eq] at h
  obtain ⟨l, _, rfl⟩ := Option.map_eq_some_iff.1 h
  rfl

theorem choose_eq_none_iff : choose header candidates imports ps = none ↔ candidates = [] := by
  rw [choose_eq, Option.map_eq_none_iff, Option.or_eq_none_iff, List.getLast?_eq_none_iff]
  constructor
  · intro h
    exact h.2
  · rintro rfl
    exact ⟨foremost?_eq_none_iff.2 (by simp), rfl⟩

theorem contains_of_choose (h : choose header candidates imports ps = some choice)
    (hl : l ∈ candidates) (hi : imports.contains l = true) : imports.contains choice.library = true := by
  cases hf : candidates.find? imports.contains with
  | none => exact absurd hi (List.find?_eq_none.1 hf l hl)
  | some m =>
      rw [choose_of_find? hf] at h
      cases h
      exact List.find?_some hf

end Selection

end SketchPrep
