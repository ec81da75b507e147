import SketchPrep.Proofs.Path.Pieces
import SketchPrep.Proofs.Text.Occurrence

namespace SketchPrep.Path

variable {name : String} {extensions : List String}

theorem fileName?_join (p : Path) (h : isPlain name = true) : (p / name).fileName? = some name := by
  have hname := fileName_join p h
  rw [fileName] at hname
  cases hf : (p / name).fileName? with
  | none =>
      rw [hf] at hname
      obtain rfl : "" = name := hname
      exact absurd h (by decide)
  | some other =>
      rw [hf] at hname
      exact congrArg some hname

theorem extension?_join (p : Path) (h : isPlain name = true) :
    (p / name).extension? = (extensionOf name.toList).map String.ofList := by
  rw [extension?, fileName?_join p h]
  exact Option.map_eq_bind.symm

theorem extensionOf_eq_some_iff {name ext : List Char} (hname : name.head? ≠ some '.') (hext : '.' ∉ ext) :
    extensionOf name = some ext ↔ '.' :: ext <:+ name := by
  unfold extensionOf
  constructor
  · intro h
    split at h
    · cases h
    · rename_i before after _ hcut
      cases h
      exact ⟨before, (Text.cutLast_eq_some hcut).1.symm⟩
    · cases h
  · rintro ⟨before, rfl⟩
    rw [Text.cutLast_append hext]
    cases before with
    | nil => exact absurd rfl hname
    | cons => rfl

/-- Whether a name has one of some extensions can be read off its end. -/
theorem any_extension?_join (p : Path) (h : isPlain name = true) (hname : name.toList.head? ≠ some '.')
    (hdots : ∀ ext ∈ extensions, '.' ∉ ext.toList) :
    (p / name).extension?.any extensions.contains = true ↔
      ∃ ext ∈ extensions, '.' :: ext.toList <:+ name.toList := by
  rw [extension?_join p h, Option.any_map, Option.any_eq_true]
  constructor
  · rintro ⟨ext, hext, hmem⟩
    rw [List.contains_iff_mem] at hmem
    have hdot := hdots _ hmem
    rw [String.toList_ofList] at hdot
    refine ⟨_, hmem, ?_⟩
    rw [String.toList_ofList]
    exact (extensionOf_eq_some_iff hname hdot).1 hext
  · rintro ⟨ext, hmem, hsuffix⟩
    refine ⟨ext.toList, (extensionOf_eq_some_iff hname (hdots ext hmem)).2 hsuffix, ?_⟩
    rwa [String.ofList_toList, List.contains_iff_mem]

end SketchPrep.Path
