import SketchPrep.Proofs.Dictionary
import SketchPrep.Proofs.Discovery.Steps

namespace SketchPrep.Session

/-- The books of a session that began with the include folders `dirs`. -/
structure Orderly (w : Surroundings) (dirs : List Path) (s : Session) : Prop where
  folders : s.imports.libraries.Pairwise fun l m => l.same m = false
  names : s.imports.libraries.Pairwise fun l m => l.name ≠ m.name
  path : s.includeDirs =
    dirs ++ (s.imports.libraries.map (·.sourceFolder)).filter (!hasPath dirs ·)
  notes : ∀ header r, (header, r) ∈ s.imports.resolutions.entries →
    (∃ l ∈ s.imports.libraries, l.same r.library = true) ∧
      r.notUsed = (w.index.candidates header).filter (!·.same r.library)
  stocked : ∀ l ∈ s.imports.libraries, ∃ sources, l.sourceFiles w.tree = .ok sources ∧
    ∀ p ∈ sources, hasPath s.queue.seen (w.tree.normalize p) = true

variable {w : Surroundings} {offers : Set Path} {dirs : List Path} {s s' : Session} {header : String}
  {r : Resolution} {sources : List Path}

theorem sourceFiles_of_sourcesOf {l : Library} (h : sourcesOf w l = .ok sources) :
    l.sourceFiles w.tree = .ok sources := by
  unfold sourcesOf at h
  split at h
  · cases h
  · exact h

theorem Consistent.queued (hc : s.Consistent w dirs) {l : Library} (hl : l ∈ s.imports.libraries) :
    ∃ sources, l.sourceFiles w.tree = .ok sources ∧
      ∀ p ∈ sources, hasPath s.queue.seen (w.tree.normalize p) = true := by
  obtain ⟨sources, hs, hseen⟩ := hc.stocked l hl
  exact ⟨sources, sourceFiles_of_sourcesOf hs, hseen⟩

theorem Brings.contains (h : Brings w s header r sources s') :
    s'.imports.contains r.library = true := by
  apply Imports.contains_of_mem
  rw [h.libraries]
  exact List.mem_append_right _ (List.mem_singleton_self _)

def NamesApart (s : Session) : Prop := s.imports.libraries.Pairwise fun l m => l.name ≠ m.name

theorem Brings.namesApart (h : Brings w s header r sources s') (hn : s.NamesApart) :
    s'.NamesApart := by
  -- a library in use with the name of the new one would have taken its place
  obtain ⟨_, hnone, _⟩ := Selection.resolve_fresh h.resolved h.fresh
  rw [NamesApart, h.libraries, List.pairwise_append]
  refine ⟨hn, List.pairwise_singleton .., fun l hl m hm => ?_⟩
  rw [List.mem_singleton.1 hm]
  simpa using List.find?_eq_none.1 hnone l hl

theorem Step.namesApart (h : Step w offers s s') (hn : s.NamesApart) : s'.NamesApart := by
  cases h with
  | queued | taken | noted => exact hn
  | brought hb => exact hb.namesApart hn

def WellNoted (w : Surroundings) (s : Session) : Prop :=
  ∀ header r, (header, r) ∈ s.imports.resolutions.entries → s.imports.contains r.library = true ∧
    r.notUsed = (w.index.candidates header).filter (!·.same r.library)

theorem WellNoted.insert (hw : s.WellNoted w)
    (hr : Selection.resolve header (w.index.candidates header) s.imports w.platforms = some r)
    (hsub : s.imports.libraries ⊆ s'.imports.libraries) (hin : s'.imports.contains r.library = true)
    (hn : s'.imports.resolutions = s.imports.resolutions.insert header r) : s'.WellNoted w := by
  intro other r' hm
  rw [hn] at hm
  rcases Dictionary.mem_insert hm with he | hm
  · cases he
    obtain ⟨_, _, _, _, hu⟩ := Selection.resolve_eq_some hr
    exact ⟨hin, hu⟩
  · obtain ⟨hold, hu⟩ := hw other r' hm
    obtain ⟨l, hl, hs⟩ := Imports.contains_iff.1 hold
    exact ⟨Imports.contains_iff.2 ⟨l, hsub hl, hs⟩, hu⟩

theorem Step.wellNoted (h : Step w offers s s') (hw : s.WellNoted w) : s'.WellNoted w := by
  cases h with
  | queued | taken => exact hw
  | brought hb =>
      exact hw.insert hb.resolved (hb.libraries ▸ List.subset_append_left ..) hb.contains hb.resolutions
  | noted hr hin => exact hw.insert hr (List.Subset.refl _) hin rfl

theorem Leads.orderly (h : Leads w offers (start dirs) s) : s.Orderly w dirs := by
  have hc : s.Consistent w dirs := h.consistent consistent_start
  have hstart : (start dirs).WellNoted w := nofun
  refine ⟨hc.distinct, h.keeps Step.namesApart .nil, hc.path, ?_, fun _ hl => hc.queued hl⟩
  intro header r hm
  obtain ⟨hin, hu⟩ := h.keeps Step.wellNoted hstart header r hm
  exact ⟨Imports.contains_iff.1 hin, hu⟩

/-- Whatever was done with a session, and however its runs ended, its books are in order; and so they are
in the middle of one more run, whenever the compiler is asked. -/
theorem orderly_after (w : Surroundings) (dirs : List Path) (uses : List Use) :
    (after w dirs uses).Orderly w dirs ∧
      ∀ calls source t, Reaches w none (after w dirs uses) calls source t → t.Orderly w dirs := by
  have hsteps := leads_after w dirs uses
  refine ⟨hsteps.orderly, fun calls source t hr => ?_⟩
  have hmore : Leads w {p | .enqueue p ∈ uses} (after w dirs uses) t :=
    hr.leads (consistent_after w dirs uses)
  exact Leads.orderly (hsteps.trans hmore)

end SketchPrep.Session
