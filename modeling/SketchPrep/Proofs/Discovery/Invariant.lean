import SketchPrep.Proofs.Discovery.Queue
import SketchPrep.Proofs.Discovery.Trace
import SketchPrep.Proofs.Selection.Resolution

namespace SketchPrep.Session

structure Consistent (w : Surroundings) (dirs : List Path) (s : Session) : Prop where
  offered : ∀ l ∈ s.imports.libraries, l ∈ w.index.libraries
  distinct : s.imports.libraries.Pairwise fun l m => l.same m = false
  path : s.includeDirs =
    dirs ++ (s.imports.libraries.map (·.sourceFolder)).filter (!hasPath dirs ·)
  stocked : ∀ l ∈ s.imports.libraries, ∃ sources, sourcesOf w l = .ok sources ∧
    ∀ p ∈ sources, hasPath s.queue.seen (w.tree.normalize p) = true

variable {w : Surroundings} {dirs : List Path} {s s' : Session} {header : String} {r : Resolution}
  {sources : List Path}

theorem consistent_start : (start dirs).Consistent w dirs where
  offered := nofun
  distinct := .nil
  path := by simp [start, Imports.empty]
  stocked := nofun

/-- Queueing more, taking from the queue and noting resolutions keep the invariant. -/
theorem Consistent.congr (hc : s.Consistent w dirs)
    (hl : s'.imports.libraries = s.imports.libraries) (hd : s'.includeDirs = s.includeDirs)
    (hq : s.queue.seen <+: s'.queue.seen) : s'.Consistent w dirs where
  offered := hl ▸ hc.offered
  distinct := hl ▸ hc.distinct
  path := by rw [hd, hl]; exact hc.path
  stocked := by
    intro l hm
    obtain ⟨sources, hs, hseen⟩ := hc.stocked l (hl ▸ hm)
    exact ⟨sources, hs, fun p hp => hasPath_of_prefix hq (hseen p hp)⟩

theorem Consistent.waiting (hc : s.Consistent w dirs) (rest : List Path) :
    (s.waiting rest).Consistent w dirs :=
  hc.congr rfl rfl (List.prefix_refl _)

theorem Consistent.hasFolder (hc : s.Consistent w dirs) {l : Library} (hl : l ∈ s.imports.libraries) :
    hasPath s.includeDirs l.sourceFolder = true := by
  rw [hc.path, hasPath_append]
  cases hd : hasPath dirs l.sourceFolder with
  | true => rfl
  | false =>
      have hm : l.sourceFolder ∈ s.imports.libraries.map (·.sourceFolder) :=
        List.mem_map.2 ⟨l, hl, rfl⟩
      exact hasPath_of_mem (List.mem_filter.2 ⟨hm, by rw [hd]; rfl⟩)

theorem Consistent.hasFolder_of_contains (hc : s.Consistent w dirs) {l : Library}
    (hl : s.imports.contains l = true) : hasPath s.includeDirs l.sourceFolder = true := by
  obtain ⟨m, hm, he⟩ := Imports.contains_iff.1 hl
  rw [← hasPath_congr (Path.same_iff.1 he)]
  exact hc.hasFolder hm

/-- A folder on the include path that no library in use has was on it from the start. -/
theorem Consistent.hasPath_initial (hc : s.Consistent w dirs) {l : Library}
    (hl : s.imports.contains l = false) :
    hasPath s.includeDirs l.sourceFolder = hasPath dirs l.sourceFolder := by
  have hnone : hasPath ((s.imports.libraries.map (·.sourceFolder)).filter (!hasPath dirs ·))
      l.sourceFolder = false := by
    refine Bool.eq_false_iff.2 fun h => ?_
    obtain ⟨q, hq, he⟩ := hasPath_iff.1 h
    obtain ⟨m, hm, rfl⟩ := List.mem_map.1 (List.mem_filter.1 hq).1
    have hin := Imports.contains_iff.2 ⟨m, hm, Path.same_iff.2 he⟩
    rw [hl] at hin
    cases hin
  rw [hc.path, hasPath_append, hnone, Bool.or_false]

theorem sourcesOf_of_toOption {l : Library} (h : (sourcesOf w l).toOption = some sources) :
    sourcesOf w l = .ok sources := by
  cases hs : sourcesOf w l with
  | error f => rw [hs] at h; cases h
  | ok => rw [hs] at h; cases h; rfl

theorem sourcesOf_eq_error {l : Library} {f : Failure} (h : sourcesOf w l = .error f) :
    (∃ m, l.ensureSound = .error m ∧ f = .malformed m) ∨
      l.ensureSound = .ok () ∧ l.sourceFiles w.tree = .error f := by
  unfold sourcesOf at h
  split at h
  · cases h
    exact .inl ⟨_, ‹_›, rfl⟩
  · exact .inr ⟨‹_›, h⟩

structure Brings (w : Surroundings) (s : Session) (header : String) (r : Resolution)
    (sources : List Path) (s' : Session) : Prop where
  resolved : Selection.resolve header (w.index.candidates header) s.imports w.platforms = some r
  fresh : s.imports.contains r.library = false
  sources_eq : sourcesOf w r.library = .ok sources
  result : s' = s.withLibrary w header r sources

namespace Brings

theorem candidate (h : Brings w s header r sources s') : r.library ∈ w.index.candidates header :=
  (Selection.resolve_fresh h.resolved h.fresh).1

theorem provide (h : Brings w s header r sources s') : s.provide w header = .retry s' := by
  rw [Session.provide, h.resolved]
  simp only [h.fresh, h.sources_eq, h.result]
  rfl

theorem libraries (h : Brings w s header r sources s') :
    s'.imports.libraries = s.imports.libraries ++ [r.library] := by
  rw [h.result]
  simp [withLibrary, Imports.record, Imports.insert, h.fresh]

theorem resolutions (h : Brings w s header r sources s') :
    s'.imports.resolutions = s.imports.resolutions.insert header r := by
  rw [h.result]
  simp [withLibrary, Imports.record, Imports.insert, h.fresh]

theorem includeDirs (h : Brings w s header r sources s') :
    s'.includeDirs = addDir s.includeDirs r.library.sourceFolder := by
  rw [h.result]
  rfl

theorem queue (h : Brings w s header r sources s') :
    s'.queue = s.queue.extend w.tree sources := by
  rw [h.result]
  rfl

theorem consistent (h : Brings w s header r sources s') (hc : s.Consistent w dirs) :
    s'.Consistent w dirs where
  offered := by
    intro l hl
    rw [h.libraries, List.mem_append, List.mem_singleton] at hl
    rcases hl with hl | rfl
    · exact hc.offered l hl
    · exact HeaderIndex.mem_libraries_of_mem_candidates h.candidate
  distinct := by
    rw [h.libraries, List.pairwise_append]
    refine ⟨hc.distinct, List.pairwise_singleton .., fun l hl m hm => ?_⟩
    rw [List.mem_singleton.1 hm]
    refine Bool.eq_false_iff.2 fun he => ?_
    have hin := Imports.contains_iff.2 ⟨l, hl, he⟩
    rw [h.fresh] at hin
    cases hin
  path := by
    rw [h.includeDirs, h.libraries, addDir, hc.hasPath_initial h.fresh]
    cases hd : hasPath dirs r.library.sourceFolder <;>
      simp [hc.path, List.filter_append, hd]
  stocked := by
    have hseen : s'.queue.seen = s.queue.seen ++
        SourceQueue.accepted s.queue.seen (sources.map w.tree.normalize) := by
      rw [h.queue, SourceQueue.seen_extend]
    intro l hl
    rw [h.libraries, List.mem_append, List.mem_singleton] at hl
    rcases hl with hl | rfl
    · obtain ⟨before, hs, hb⟩ := hc.stocked l hl
      exact ⟨before, hs, fun p hp => hasPath_of_prefix ⟨_, hseen.symm⟩ (hb p hp)⟩
    · refine ⟨sources, h.sources_eq, fun p hp => ?_⟩
      have hoffered := hasPath_of_mem (List.mem_map_of_mem (f := w.tree.normalize) hp)
      rw [hseen]
      apply SourceQueue.hasPath_append_accepted
      rw [hasPath_append, hoffered, Bool.or_true]

end Brings

inductive Provides (w : Surroundings) (s : Session) (header : String) : HeaderStep → Prop
  | unknown : Selection.resolve header (w.index.candidates header) s.imports w.platforms = none →
      Provides w s header (.hopeless s)
  | included {r : Resolution} :
      Selection.resolve header (w.index.candidates header) s.imports w.platforms = some r →
      s.imports.contains r.library = true → hasPath s.includeDirs r.library.sourceFolder = true →
      Provides w s header (.hopeless (s.withFolder header r))
  | outside {r : Resolution} :
      Selection.resolve header (w.index.candidates header) s.imports w.platforms = some r →
      s.imports.contains r.library = true → hasPath s.includeDirs r.library.sourceFolder = false →
      Provides w s header (.retry (s.withFolder header r))
  | stuck {r : Resolution} {f : Failure} :
      Selection.resolve header (w.index.candidates header) s.imports w.platforms = some r →
      s.imports.contains r.library = false → sourcesOf w r.library = .error f → Provides w s header (.stuck f)
  | brings {r : Resolution} {sources : List Path} {s' : Session} : Brings w s header r sources s' →
      Provides w s header (.retry s')

theorem provides (w : Surroundings) (s : Session) (header : String) :
    Provides w s header (s.provide w header) := by
  unfold provide
  split
  · exact .unknown ‹_›
  · rename_i r hr
    split
    · rename_i hin
      split
      · exact .included hr hin ‹_›
      · rename_i hd
        exact .outside hr hin (Bool.eq_false_iff.2 hd)
    · rename_i hin
      have hnew := Bool.eq_false_iff.2 hin
      split
      · exact .stuck hr hnew ‹_›
      · rename_i sources hs
        exact .brings ⟨hr, hnew, hs, rfl⟩

/-- No source is tried again with a library that was in use: its folder is on the include path. -/
theorem Consistent.provide_retry (hc : s.Consistent w dirs) (h : s.provide w header = .retry s') :
    ∃ r sources, Brings w s header r sources s' := by
  have hp := s.provides w header
  rw [h] at hp
  cases hp with
  | outside _ hin hd =>
      rw [hc.hasFolder_of_contains hin] at hd
      cases hd
  | brings hb => exact ⟨_, _, hb⟩

theorem provide_hopeless (h : s.provide w header = .hopeless s') :
    (s' = s ∧ w.index.candidates header = []) ∨
      ∃ r, Selection.resolve header (w.index.candidates header) s.imports w.platforms = some r ∧
        s.imports.contains r.library = true ∧
        s' = { s with imports := s.imports.record header r } := by
  have hp := s.provides w header
  rw [h] at hp
  cases hp with
  | unknown hr => exact .inl ⟨rfl, Selection.resolve_eq_none_iff.1 hr⟩
  | @included r hr hin hd => exact .inr ⟨r, hr, hin, by rw [withFolder, addDir, if_pos hd]⟩

theorem provide_stuck {f : Failure} (h : s.provide w header = .stuck f) :
    ∃ r, Selection.resolve header (w.index.candidates header) s.imports w.platforms = some r ∧
      s.imports.contains r.library = false ∧ sourcesOf w r.library = .error f := by
  have hp := s.provides w header
  rw [h] at hp
  cases hp with
  | stuck hr hnew hs => exact ⟨_, hr, hnew, hs⟩

/-- A failure leaves the session alone, but where the library for a missing header is in use already:
that is noted. -/
theorem Ends.left {source : Path} {answer : Except Failure Outcome} {f : Failure}
    (h : Ends w s source answer f s') :
    (s' = s ∧ ∀ header r, answer = .ok (.missing header) →
      Selection.resolve header (w.index.candidates header) s.imports w.platforms = some r →
        s.imports.contains r.library = false) ∨
    ∃ header r, answer = .ok (.missing header) ∧
      Selection.resolve header (w.index.candidates header) s.imports w.platforms = some r ∧
      s.imports.contains r.library = true ∧ s' = { s with imports := s.imports.record header r } := by
  cases h with
  | broken | failed => exact .inl ⟨rfl, nofun⟩
  | stuck hp =>
      obtain ⟨r, hr, hnew, _⟩ := provide_stuck hp
      refine .inl ⟨rfl, fun _ r' he hr' => ?_⟩
      cases he
      cases hr.symm.trans hr'
      exact hnew
  | unresolved _ hp | undiagnosed _ hp =>
      obtain ⟨rfl, hnone⟩ | ⟨r, hr, hin, rfl⟩ := provide_hopeless hp
      · refine .inl ⟨rfl, fun _ r he hr => ?_⟩
        cases he
        cases (Selection.resolve_eq_none_iff.2 hnone).symm.trans hr
      · exact .inr ⟨_, r, rfl, hr, hin, rfl⟩

theorem Ends.consistent {source : Path} {answer : Except Failure Outcome} {f : Failure}
    (h : Ends w s source answer f s') :
    s'.imports.libraries = s.imports.libraries ∧ s'.includeDirs = s.includeDirs ∧
      s'.queue = s.queue := by
  obtain ⟨rfl, _⟩ | ⟨_, _, _, _, _, rfl⟩ := h.left
  · exact ⟨rfl, rfl, rfl⟩
  · exact ⟨rfl, rfl, rfl⟩

theorem Trace.consistent {cur : Option Path} {calls : List Call} {result : Except Failure Unit}
    (h : Trace w cur s calls result s') (hc : s.Consistent w dirs) : s'.Consistent w dirs := by
  induction h with
  | done => exact hc
  | next _ _ ih => exact ih (hc.waiting _)
  | clean _ ih => exact ih hc
  | retry hp _ ih =>
      obtain ⟨r, sources, hb⟩ := hc.provide_retry hp
      exact ih (hb.consistent hc)
  | fails he =>
      obtain ⟨hl, hd, hq⟩ := he.consistent
      exact hc.congr hl hd (hq ▸ List.prefix_refl _)

theorem consistent_after (w : Surroundings) (dirs : List Path) (uses : List Use) :
    (after w dirs uses).Consistent w dirs := by
  have hstep (u : Use) (s : Session) (hc : s.Consistent w dirs) : (use w s u).Consistent w dirs := by
    cases u with
    | enqueue p => exact hc.congr rfl rfl (SourceQueue.prefix_seen_push w.tree s.queue p)
    | run pp state => exact (run_trace w pp s state).1.consistent hc
  have hfold (s : Session) (hc : s.Consistent w dirs) : (uses.foldl (use w) s).Consistent w dirs := by
    induction uses generalizing s with
    | nil => exact hc
    | cons u uses ih => exact ih _ (hstep u s hc)
  exact hfold _ consistent_start

end SketchPrep.Session
