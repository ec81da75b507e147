import Mathlib.Data.List.Pairwise
import SketchPrep.Proofs.Path.Sameness
import SketchPrep.Proofs.Selection.Priority
import SketchPrep.Proofs.Selection.Resolution

namespace SketchPrep

namespace Imports

variable {i j : Imports} {l : Library} {name : String}

theorem insert_of_contains (h : i.contains l = true) : i.insert l = i := by
  rw [insert, h, if_pos rfl]

theorem libraries_insert (h : i.contains l = false) : (i.insert l).libraries = i.libraries ++ [l] := by
  rw [insert, h, if_neg Bool.false_ne_true]

theorem prefix_insert (i : Imports) (l : Library) : i.libraries <+: (i.insert l).libraries := by
  cases h : i.contains l with
  | true => simp only [insert_of_contains h, List.prefix_refl]
  | false =>
      rw [libraries_insert h]
      exact List.prefix_append _ _

theorem prefix_foldl_insert (i : Imports) (more : List Library) :
    i.libraries <+: (more.foldl insert i).libraries := by
  induction more generalizing i with
  | nil => exact List.prefix_refl _
  | cons l more ih => exact (prefix_insert i l).trans (ih (i.insert l))

theorem contains_insert_self (i : Imports) (l : Library) : (i.insert l).contains l = true := by
  rw [contains_insert, l.same_refl, Bool.or_true]

theorem contains_of_prefix (h : i.libraries <+: j.libraries) (hl : i.contains l = true) :
    j.contains l = true := by
  obtain ⟨m, hm, hs⟩ := contains_iff.1 hl
  exact contains_iff.2 ⟨m, h.subset hm, hs⟩

theorem findByName?_of_prefix (h : i.libraries <+: j.libraries) (hl : i.findByName? name = some l) :
    j.findByName? name = some l := h.find?_eq_some hl

end Imports

namespace Selection

variable {header : String} {candidates : List Library} {imports imports' : Imports} {ps : Platforms}
  {r : Resolution}

/-- The origin is that of the candidate picked. It is the library's own exactly if no stand-in has another
origin than that candidate. -/
theorem resolve_fromPlatform (h : resolve header candidates imports ps = some r) :
    ∃ picked ∈ candidates,
      choose header candidates imports ps = some ⟨picked, ps.contains picked.folder⟩ ∧
      r.fromPlatform = ps.contains picked.folder ∧
      (r.fromPlatform = ps.contains r.library.folder ↔
        ∀ standIn, imports.findByName? picked.name = some standIn →
          ps.contains standIn.folder = ps.contains picked.folder) := by
  obtain ⟨choice, hc, hl, hp, _⟩ := resolve_eq_some h
  have hflag : choice.fromPlatform = ps.contains choice.library.folder := fromPlatform_of_choose hc
  refine ⟨choice.library, mem_of_choose hc, ?_, hp.trans hflag, ?_⟩
  · rw [hc, ← hflag]
  · rw [hl, hp, hflag]
    cases imports.findByName? choice.library.name with
    | none => simp
    | some standIn => simp [eq_comm]

def localServo : Library := .legacyAt ⟨"/local/Servo"⟩

def sharedServo : Library := .legacyAt ⟨"/shared/Servo"⟩

theorem resolve_fromPlatform_sharedServo :
    resolve "Servo.h" [motor, sharedServo] ⟨[localServo], .empty⟩ boards =
        some ⟨localServo, false, [motor, sharedServo]⟩ ∧
      ∃ picked ∈ [motor, sharedServo],
        choose "Servo.h" [motor, sharedServo] ⟨[localServo], .empty⟩ boards =
          some ⟨picked, boards.contains picked.folder⟩ ∧
        false = boards.contains picked.folder ∧
        (false = boards.contains localServo.folder ↔
          ∀ standIn, Imports.findByName? ⟨[localServo], .empty⟩ picked.name = some standIn →
            boards.contains standIn.folder = boards.contains picked.folder) := by
  have h : resolve "Servo.h" [motor, sharedServo] ⟨[localServo], .empty⟩ boards =
      some ⟨localServo, false, [motor, sharedServo]⟩ := by decide +kernel
  exact ⟨h, resolve_fromPlatform h⟩

/-- A library from outside the platforms stands in for one that comes with a platform. -/
theorem fromPlatform_of_localServo :
    resolve "Servo.h" [bundledServo] ⟨[localServo], .empty⟩ boards =
        some ⟨localServo, true, [bundledServo]⟩ ∧
      boards.contains localServo.folder = false := by
  decide +kernel

theorem contains_of_resolve_later (h : resolve header candidates imports ps = some r)
    (hp : imports.libraries <+: imports'.libraries) (hr : imports'.contains r.library = true) :
    ∃ r', resolve header candidates imports' ps = some r' ∧ imports'.contains r'.library = true := by
  obtain ⟨choice, hc, hl, _, _⟩ := resolve_eq_some h
  cases h' : resolve header candidates imports' ps with
  | none =>
      rw [resolve_eq_none_iff.2 (resolve_eq_none_iff.1 h')] at h
      cases h
  | some r' =>
      refine ⟨r', rfl, ?_⟩
      by_cases hany : ∃ m ∈ candidates, imports'.contains m = true
      · obtain ⟨m, hm, hin⟩ := hany
        exact contains_of_resolve h' hm hin
      · -- with no candidate in use the choice is as before, so its stand-in is what was imported
        have hnone (m : Library) (hm : m ∈ candidates) : imports'.contains m = false := by
          apply Bool.eq_false_iff.2
          intro hin
          exact hany ⟨m, hm, hin⟩
        have hsame : choose header candidates imports' ps = some choice := by
          rw [← hc]
          apply choose_congr
          intro m hm
          rw [hnone m hm, eq_comm, Bool.eq_false_iff]
          intro hin
          exact hany ⟨m, hm, Imports.contains_of_prefix hp hin⟩
        obtain ⟨choice', hc', hl', _, _⟩ := resolve_eq_some h'
        rw [hsame] at hc'
        cases hc'
        cases hf : imports.findByName? choice.library.name with
        | some m =>
            have hf' := Imports.findByName?_of_prefix hp hf
            rw [hl', hf']
            exact Imports.contains_of_findByName? hf'
        | none =>
            rw [hf, Option.getD_none] at hl
            rw [hl, hnone _ (mem_of_choose hc)] at hr
            cases hr

theorem resolve_of_choose {choice : Choice} {l : Library}
    (hc : choose header candidates imports ps = some choice)
    (hl : (imports.findByName? choice.library.name).getD choice.library = l) :
    resolve header candidates imports ps =
      some ⟨l, choice.fromPlatform, candidates.filter (!·.same l)⟩ := by
  rw [resolve, hc, ← hl]
  rfl

/-- The library just imported is the only candidate in use. -/
theorem eq_of_contains_insert (h : resolve header candidates imports ps = some r)
    (hd : candidates.Pairwise fun l m => l.same m = false) (hin : imports.contains r.library = false)
    {m : Library} (hm : m ∈ candidates) (hc : (imports.insert r.library).contains m = true) :
    m = r.library := by
  have hsymm : Std.Symm fun l m : Library => l.same m = false :=
    ⟨fun l m hs => by rwa [Library.same, Path.same_comm]⟩
  rw [Imports.contains_insert, Bool.or_eq_true] at hc
  obtain hc | hs := hc
  · rw [contains_of_resolve h hm hc] at hin
    cases hin
  · by_contra hne
    rw [hd.forall (resolve_fresh h hin).1 hm (Ne.symm hne)] at hs
    cases hs

theorem resolve_insert (h : resolve header candidates imports ps = some r)
    (hd : candidates.Pairwise fun l m => l.same m = false) :
    resolve header candidates (imports.insert r.library) ps = some r := by
  cases hin : imports.contains r.library with
  | true => rwa [Imports.insert_of_contains hin]
  | false =>
      obtain ⟨hmem, hname, hflag⟩ := resolve_fresh h hin
      obtain ⟨_, _, _, _, hunused⟩ := resolve_eq_some h
      have hfind : candidates.find? (imports.insert r.library).contains = some r.library := by
        cases hf : candidates.find? (imports.insert r.library).contains with
        | none =>
            exact absurd (Imports.contains_insert_self imports r.library)
              (List.find?_eq_none.1 hf r.library hmem)
        | some m =>
            rw [eq_of_contains_insert h hd hin (List.mem_of_find?_eq_some hf) (List.find?_some hf)]
      have hfound : (imports.insert r.library).findByName? r.library.name = some r.library := by
        rw [Imports.findByName?] at hname
        rw [Imports.findByName?, Imports.libraries_insert hin, List.find?_append, hname]
        simp
      have hagain : resolve header candidates (imports.insert r.library) ps =
          some ⟨r.library, bundled ps r.library, candidates.filter (!·.same r.library)⟩ :=
        resolve_of_choose (choose_of_find? hfind) (by rw [hfound, Option.getD_some])
      rw [hagain, ← hflag, ← hunused]

/-- Once a library was imported for a header, only libraries in use are found for it, whatever else is
imported; and it is found again, if no two candidates have one source folder. -/
theorem resolve_stable (h : resolve header candidates imports ps = some r) :
    (∀ more : List Library, ∃ r',
      resolve header candidates (more.foldl .insert (imports.insert r.library)) ps = some r' ∧
        (more.foldl .insert (imports.insert r.library)).contains r'.library = true) ∧
      (candidates.Pairwise (fun l m => l.same m = false) →
        resolve header candidates (imports.insert r.library) ps = some r) := by
  refine ⟨?_, resolve_insert h⟩
  intro more
  have hmore := Imports.prefix_foldl_insert (imports.insert r.library) more
  apply contains_of_resolve_later h ((Imports.prefix_insert imports r.library).trans hmore)
  exact Imports.contains_of_prefix hmore (Imports.contains_insert_self imports r.library)

theorem resolve_stable_servoFork :
    resolve "Servo.h" [bundledServo, servoFork, motor] .empty boards =
        some ⟨servoFork, false, [bundledServo, motor]⟩ ∧
      ([bundledServo, servoFork, motor].Pairwise fun l m => l.same m = false) ∧
      resolve "Servo.h" [bundledServo, servoFork, motor] (Imports.empty.insert servoFork) boards =
        some ⟨servoFork, false, [bundledServo, motor]⟩ ∧
      ∃ r', resolve "Servo.h" [bundledServo, servoFork, motor]
          ([motor, localServo].foldl .insert (Imports.empty.insert servoFork)) boards = some r' ∧
        ([motor, localServo].foldl .insert (Imports.empty.insert servoFork)).contains r'.library = true := by
  have h : resolve "Servo.h" [bundledServo, servoFork, motor] .empty boards =
      some ⟨servoFork, false, [bundledServo, motor]⟩ := by decide +kernel
  have hd : [bundledServo, servoFork, motor].Pairwise fun l m => l.same m = false := by decide +kernel
  obtain ⟨hlater, hagain⟩ := resolve_stable h
  exact ⟨h, hd, hagain hd, hlater [motor, localServo]⟩

end Selection

end SketchPrep
