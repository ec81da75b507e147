import SketchPrep.Proofs.Discovery.Orderly

namespace SketchPrep.Session

structure NoProgress (w : Surroundings) (t : Session) (header : String) (r : Resolution) : Prop where
  resolved : Selection.resolve header (w.index.candidates header) t.imports w.platforms = some r
  inUse : t.imports.contains r.library = true
  onPath : hasPath t.includeDirs r.library.sourceFolder = true

structure Wanted (w : Surroundings) (t : Session) (header : String) (r : Resolution) : Prop where
  resolved : Selection.resolve header (w.index.candidates header) t.imports w.platforms = some r
  fresh : t.imports.contains r.library = false

inductive GivesUp (source : Path) (header : String) : Failure → Prop
  | unresolved (output) : GivesUp source header (.unresolved header source output)
  | undiagnosed (f) : GivesUp source header (.during (.diagnosing header) f)

inductive Cause (w : Surroundings) (t : Session) (source : Path) :
    Except Failure Outcome → Failure → Prop
  | broken (f) : Cause w t source (.error f) f
  | failed (output) : Cause w t source (.ok (.failed output)) (.compiler source output)
  | noCandidate {header f} (h : w.index.candidates header = []) (hf : GivesUp source header f) :
      Cause w t source (.ok (.missing header)) f
  | malformed {header r m} (h : Wanted w t header r) (hm : r.library.ensureSound = .error m) :
      Cause w t source (.ok (.missing header)) (.malformed m)
  | unreadable {header r f} (h : Wanted w t header r) (hs : r.library.ensureSound = .ok ())
      (hf : r.library.sourceFiles w.tree = .error f) : Cause w t source (.ok (.missing header)) f
  | noProgress {header r f} (h : NoProgress w t header r) (hf : GivesUp source header f) :
      Cause w t source (.ok (.missing header)) f

/-- A session after a failing answer is as it was before the question. Only where there was no progress
it has the resolution of the header that was missing among its notes. -/
structure Kept (w : Surroundings) (t : Session) (answer : Except Failure Outcome) (s' : Session) :
    Prop where
  libraries : s'.imports.libraries = t.imports.libraries
  path : s'.includeDirs = t.includeDirs
  pending : s'.queue.pending = t.queue.pending
  seen : s'.queue.seen = t.queue.seen
  notes :
    (∃ header r, answer = .ok (.missing header) ∧ NoProgress w t header r ∧
      s'.imports.resolutions = t.imports.resolutions.insert header r ∧
      ∀ other, s'.imports.resolutions.find? other =
        if other = header then some r else t.imports.resolutions.find? other) ∨
    (∀ header r, answer = .ok (.missing header) → ¬ NoProgress w t header r) ∧
      s'.imports.resolutions = t.imports.resolutions

def Sourced (w : Surroundings) (offers : Set Path) (s : Session) : Prop :=
  ∀ p ∈ s.queue.seen, (∃ q ∈ offers, w.tree.normalize q = p) ∨
    ∃ l ∈ s.imports.libraries, ∃ sources, l.sourceFiles w.tree = .ok sources ∧
      ∃ q ∈ sources, w.tree.normalize q = p

/-- Every library in use has its folder on the include path and its sources in the queue's memory, and
neither has anything else but what it was given: the initial folders and the paths that were queued. -/
structure Whole (w : Surroundings) (dirs : List Path) (offers : Set Path) (s : Session) : Prop where
  folder : ∀ l ∈ s.imports.libraries, hasPath s.includeDirs l.sourceFolder = true
  sources : ∀ l ∈ s.imports.libraries, ∃ sources, l.sourceFiles w.tree = .ok sources ∧
    ∀ p ∈ sources, hasPath s.queue.seen (w.tree.normalize p) = true
  ofFolder : ∀ d ∈ s.includeDirs, d ∈ dirs ∨ ∃ l ∈ s.imports.libraries, l.sourceFolder = d
  ofSource : s.Sourced w offers

variable {w : Surroundings} {offers : Set Path} {dirs : List Path} {s s' t : Session}
  {source : Path} {header : String} {answer : Except Failure Outcome} {f : Failure}

theorem Ends.cause (h : Ends w t source answer f s') (hc : t.Consistent w dirs) :
    Cause w t source answer f := by
  have hhopeless {header : String} {f : Failure} {s' : Session}
      (hp : t.provide w header = .hopeless s') (hf : GivesUp source header f) :
      Cause w t source (.ok (.missing header)) f := by
    obtain ⟨_, hnone⟩ | ⟨r, hr, hin, _⟩ := provide_hopeless hp
    · exact .noCandidate hnone hf
    · exact .noProgress ⟨hr, hin, hc.hasFolder_of_contains hin⟩ hf
  cases h with
  | broken => exact .broken f
  | failed output => exact .failed output
  | stuck hp =>
      obtain ⟨r, hr, hnew, he⟩ := provide_stuck hp
      obtain ⟨m, hm, rfl⟩ | ⟨hs, hf⟩ := sourcesOf_eq_error he
      · exact .malformed ⟨hr, hnew⟩ hm
      · exact .unreadable ⟨hr, hnew⟩ hs hf
  | unresolved output hp => exact hhopeless hp (.unresolved output)
  | undiagnosed f hp => exact hhopeless hp (.undiagnosed f)

theorem Kept.refl (h : ∀ header r, answer = .ok (.missing header) → ¬ NoProgress w t header r) :
    Kept w t answer t :=
  ⟨rfl, rfl, rfl, rfl, .inr ⟨h, rfl⟩⟩

theorem Kept.noted {r : Resolution} (h : NoProgress w t header r) :
    Kept w t (.ok (.missing header)) { t with imports := t.imports.record header r } :=
  ⟨rfl, rfl, rfl, rfl, .inl ⟨header, r, rfl, h, rfl, fun _ => Dictionary.find?_insert ..⟩⟩

theorem Ends.kept (h : Ends w t source answer f s') (hc : t.Consistent w dirs) :
    Kept w t answer s' := by
  obtain ⟨rfl, hnew⟩ | ⟨header, r, rfl, hr, hin, rfl⟩ := h.left
  · refine .refl fun header r he hstuck => ?_
    exact Bool.noConfusion ((hnew header r he hstuck.resolved).symm.trans hstuck.inUse)
  · exact .noted ⟨hr, hin, hc.hasFolder_of_contains hin⟩

theorem mem_seen_extend {q : SourceQueue} {sources : List Path} {p : Path}
    (h : p ∈ (q.extend w.tree sources).seen) :
    p ∈ q.seen ∨ ∃ source ∈ sources, w.tree.normalize source = p := by
  rw [SourceQueue.seen_extend, List.mem_append] at h
  exact h.imp_right fun hnew => List.mem_map.1 ((SourceQueue.accepted_sublist _ _).subset hnew)

theorem Step.sourced (h : Step w offers s s') (hs : s.Sourced w offers) : s'.Sourced w offers := by
  intro p hp
  cases h with
  | @queued offer ho =>
      have hp : p ∈ (s.queue.extend w.tree [offer]).seen := hp
      rcases mem_seen_extend hp with hold | ⟨q, hq, he⟩
      · exact hs p hold
      · exact .inl ⟨q, List.mem_singleton.1 hq ▸ ho, he⟩
  | taken | noted => exact hs p hp
  | @brought _ r sources _ hb =>
      rw [hb.queue] at hp
      rw [hb.libraries]
      rcases mem_seen_extend hp with hold | hnew
      · rcases hs p hold with hoffer | ⟨l, hl, hfrom⟩
        · exact .inl hoffer
        · exact .inr ⟨l, List.mem_append_left _ hl, hfrom⟩
      · exact .inr ⟨r.library, List.mem_append_right _ (List.mem_singleton_self _), sources,
          sourceFiles_of_sourcesOf hb.sources_eq, hnew⟩

theorem Consistent.whole (hc : s.Consistent w dirs) (hs : s.Sourced w offers) :
    s.Whole w dirs offers where
  folder _ hl := hc.hasFolder hl
  sources _ hl := hc.queued hl
  ofFolder d hd := by
    rw [hc.path, List.mem_append] at hd
    exact hd.imp_right fun hm => List.mem_map.1 (List.mem_filter.1 hm).1
  ofSource := hs

/-- When a run fails, the session is as it was when the compiler was asked the last question, but for
one note where there was no progress; and what is imported is imported with all that belongs to it. -/
theorem run_failure_atomic {σ : Type} {w : Surroundings} {dirs : List Path} {uses : List Use}
    {pp : Preprocessor σ} {state : σ} {f : Failure}
    (h : ((after w dirs uses).run w pp state).1 = .error f) :
    let s := after w dirs uses
    let s' := (s.run w pp state).2.1
    ∃ before source t answer,
      s.callsOf w pp state = before ++ [.asked source t.includeDirs answer] ∧
        Reaches w none s before source t ∧ Cause w t source answer f ∧ Kept w t answer s' ∧
        s'.Whole w dirs {p | .enqueue p ∈ uses} := by
  intro s s'
  have hc : s.Consistent w dirs := consistent_after w dirs uses
  have ht := (run_trace w pp s state).1
  obtain ⟨before, source, t, answer, hcalls, hr, he⟩ := ht.fails_at h
  have hct : t.Consistent w dirs := hr.consistent hc
  refine ⟨before, source, t, answer, hcalls, hr, he.cause hct, he.kept hct, ?_⟩
  have hstart : (start dirs).Sourced w {p | .enqueue p ∈ uses} := nofun
  have hsteps : Leads w {p | .enqueue p ∈ uses} (start dirs) s' :=
    (leads_after w dirs uses).trans (ht.leads hc)
  have hsourced := hsteps.keeps Step.sourced hstart
  exact (ht.consistent hc).whole hsourced

def ghostHeader : Surroundings where
  tree := ⟨[(["wire"], .folder)], []⟩
  index := ⟨[("Ghost.h", .legacyAt ⟨"/wire"⟩)]⟩
  platforms := ⟨⟨"avr", ⟨"/hardware"⟩⟩, ⟨"avr", ⟨"/hardware"⟩⟩⟩

def missesGhost : Preprocessor Unit :=
  .answering (fun _ _ => .missing "Ghost.h") "no Ghost.h"

def ghostImported : Session :=
  ⟨⟨[.legacyAt ⟨"/wire"⟩], ⟨[("Ghost.h", ⟨.legacyAt ⟨"/wire"⟩, false, []⟩)]⟩⟩, [⟨"/wire"⟩],
    ⟨[], [⟨"main.cpp"⟩]⟩⟩

theorem run_ghostHeader :
    ((after ghostHeader [] [.enqueue ⟨"main.cpp"⟩]).run ghostHeader missesGhost ()).1 =
      .error (.unresolved "Ghost.h" ⟨"main.cpp"⟩ "no Ghost.h") := by
  have hs : after ghostHeader [] [.enqueue ⟨"main.cpp"⟩] =
      ⟨.empty, [], ⟨[⟨"main.cpp"⟩], [⟨"main.cpp"⟩]⟩⟩ := by decide +kernel
  have hsources : (sourcesOf ghostHeader (.legacyAt ⟨"/wire"⟩)).toOption = some [] := by decide +kernel
  have hb : Brings ghostHeader ⟨.empty, [], ⟨[], [⟨"main.cpp"⟩]⟩⟩ "Ghost.h"
      ⟨.legacyAt ⟨"/wire"⟩, false, []⟩ [] ghostImported :=
    ⟨by decide +kernel, by decide +kernel, sourcesOf_of_toOption hsources, by decide +kernel⟩
  have hagain : provide ghostHeader ghostImported "Ghost.h" = .hopeless ghostImported := by rfl
  rw [hs, run, runFrom_next rfl]
  refine (congrArg Prod.fst (runFrom_retry rfl hb.provide)).trans ?_
  exact congrArg Prod.fst (runFrom_hopeless rfl hagain rfl)

/-- The library is imported for the first question, and the second is the end. -/
theorem run_failure_atomic_ghostHeader :
    ((after ghostHeader [] [.enqueue ⟨"main.cpp"⟩]).run ghostHeader missesGhost ()).1 =
        .error (.unresolved "Ghost.h" ⟨"main.cpp"⟩ "no Ghost.h") ∧
      ∃ t answer, Kept ghostHeader t answer
        ((after ghostHeader [] [.enqueue ⟨"main.cpp"⟩]).run ghostHeader missesGhost ()).2.1 := by
  obtain ⟨_, _, t, answer, _, _, _, hk, _⟩ := run_failure_atomic run_ghostHeader
  exact ⟨run_ghostHeader, t, answer, hk⟩

end SketchPrep.Session
