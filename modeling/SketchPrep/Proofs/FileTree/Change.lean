import SketchPrep.FileTree.Change
import SketchPrep.Proofs.Failure
import SketchPrep.Proofs.FileTree.Way

namespace SketchPrep

namespace FileTree

variable {t t' : FileTree} {p q : Path} {location : Location} {runnable : Option Bool}

theorem makeFolder_eq_ok_iff : t.makeFolder p = .ok t' ↔
    ∃ location, t.reachText false (withoutSlashes p.text) = .vacant location ∧ t' = t.put location .folder := by
  unfold makeFolder
  cases t.reachText false (withoutSlashes p.text) with
  | vacant location => simp [eq_comm]
  | found | failed => simp

theorem find?_of_vacant {last : Bool} {text : String} (h : t.reachText last text = .vacant location) :
    t.find? location = none := by
  have hagrees := t.agrees_reachText last text
  rwa [h] at hagrees

theorem reach_of_place (h : t.place p = .ok (location, runnable)) :
    t.reach p = .vacant location ∨
      ∃ content marked, t.reach p = .found location (.file content marked) := by
  unfold place at h
  split at h
  · split at h <;> cases h
  · split at h
    · rename_i hreach
      cases h
      exact .inr ⟨_, _, hreach⟩
    · cases h
    · rename_i hreach
      cases h
      exact .inl hreach
    · cases h

/-- A file is written to a place below the root where nothing is, or a file. -/
theorem find?_of_place (h : t.place p = .ok (location, runnable)) :
    location ≠ [] ∧ ∀ entry, t.find? location = some entry → entry.isFile = true := by
  have hagrees := t.agrees_reach p
  obtain hreach | ⟨content, marked, hreach⟩ := reach_of_place h
  · rw [hreach] at hagrees
    have hnone : t.find? location = none := hagrees
    constructor
    · exact ne_nil_of_find? (t := t) (by simp [hnone])
    · intro entry he
      rw [hnone] at he
      cases he
  · rw [hreach] at hagrees
    have hfile : t.find? location = some (.file content marked) := hagrees
    constructor
    · exact ne_nil_of_find? (t := t) (by simp [hfile])
    · intro entry he
      rw [hfile] at he
      cases he
      rfl

theorem exists_of_write {content : ByteArray} (h : t.write p content = .ok t') :
    ∃ location runnable marked, t.place p = .ok (location, runnable) ∧
      t' = t.put location (.file content marked) := by
  obtain ⟨⟨location, runnable⟩, hplace, h⟩ := exists_of_bind_ok h
  cases h
  exact ⟨location, runnable, _, hplace, rfl⟩

theorem exists_of_copy (h : t.copy p q = .ok t') :
    ∃ location runnable content marked, t.place q = .ok (location, runnable) ∧
      t' = t.put location (.file content marked) := by
  unfold copy at h
  split at h
  · cases h
  · split at h
    · cases h
    · rename_i hplace
      cases h
      exact ⟨_, _, _, _, hplace, rfl⟩
  · cases h

def after : Except FailedChange FileTree → FileTree
  | .ok t => t
  | .error failed => failed.tree

/-- What each new folder keeps holds after all of them, even if one could not be made. -/
theorem after_makeFolders {P : FileTree → Prop} {ps : List Path} (h : P t)
    (hstep : ∀ p ∈ ps, ∀ u u' : FileTree, P u → u.makeFolder p = .ok u' → P u') :
    P (after (t.makeFolders ps)) := by
  induction ps with
  | nil => exact h
  | cons p ancestors ih =>
      have hlast := hstep p List.mem_cons_self
      have hfirst := ih fun q hq => hstep q (List.mem_cons_of_mem p hq)
      unfold makeFolders
      split
      · exact h
      · split
        · rename_i hmade
          exact hlast _ _ h hmade
        · -- the folders above were missing, and stay even if this one cannot be made
          cases hm : t.makeFolders ancestors with
          | error failed =>
              rw [hm] at hfirst
              exact hfirst
          | ok u =>
              rw [hm] at hfirst
              dsimp only [bind, Except.bind]
              split
              · rename_i hmade
                exact hlast _ _ hfirst hmade
              · split <;> exact hfirst
        · split <;> exact h

theorem after_ensureFolder {P : FileTree → Prop} (h : P t)
    (hstep : ∀ q ∈ p.ancestors (p.text.length + 1), ∀ u u' : FileTree, P u → u.makeFolder q = .ok u' → P u') :
    P (after (t.ensureFolder p)) := by
  unfold ensureFolder
  split
  · exact h
  · exact after_makeFolders h hstep

end FileTree

end SketchPrep
