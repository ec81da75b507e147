import Mathlib.Data.Set.Basic
import Mathlib.Logic.Relation
import SketchPrep.Proofs.Discovery.Invariant

namespace SketchPrep.Session

/-- One step: an offered path is queued, the next source is taken from the queue, a library is imported,
or it is noted for a header that its library was in use already. -/
inductive Step (w : Surroundings) (offers : Set Path) : Session → Session → Prop
  | queued (s) {p} (hp : p ∈ offers) : Step w offers s (s.enqueue w p).2
  | taken {s source rest} (h : s.queue.pending = source :: rest) : Step w offers s (s.waiting rest)
  | brought {s header r sources s'} (h : Brings w s header r sources s') : Step w offers s s'
  | noted {s header r}
      (hr : Selection.resolve header (w.index.candidates header) s.imports w.platforms = some r)
      (hin : s.imports.contains r.library = true) :
      Step w offers s { s with imports := s.imports.record header r }

abbrev Leads (w : Surroundings) (offers : Set Path) : Session → Session → Prop :=
  Relation.ReflTransGen (Step w offers)

/-- From a session, with a source at hand perhaps, the answers lead to this session, in which the compiler
is asked about this source next. -/
inductive Reaches (w : Surroundings) :
    Option Path → Session → List Call → Path → Session → Prop
  | here {source s} : Reaches w (some source) s [] source s
  | next {s first rest calls source t} (h : s.queue.pending = first :: rest)
      (hr : Reaches w (some first) (s.waiting rest) calls source t) : Reaches w none s calls source t
  | clean {first s calls source t} (hr : Reaches w none s calls source t) :
      Reaches w (some first) s (.asked first s.includeDirs (.ok .clean) :: calls) source t
  | retry {first s header s' calls source t} (h : s.provide w header = .retry s')
      (hr : Reaches w (some first) s' calls source t) :
      Reaches w (some first) s
        (.asked first s.includeDirs (.ok (.missing header)) :: calls) source t

variable {w : Surroundings} {offers : Set Path} {dirs : List Path} {cur : Option Path}
  {s s' t : Session} {source : Path} {calls : List Call} {result : Except Failure Unit}

theorem Step.consistent (h : Step w offers s s') (hc : s.Consistent w dirs) : s'.Consistent w dirs := by
  cases h with
  | queued => exact hc.congr rfl rfl (SourceQueue.prefix_seen_push w.tree s.queue _)
  | taken => exact hc.waiting _
  | brought hb => exact hb.consistent hc
  | noted => exact hc.congr rfl rfl (List.prefix_refl _)

/-- What each step keeps, all steps keep. -/
theorem Leads.keeps {P : Session → Prop} (hstep : ∀ {s s'}, Step w offers s s' → P s → P s')
    (h : Leads w offers s s') (hs : P s) : P s' := by
  induction h with
  | refl => exact hs
  | tail _ hlast ih => exact hstep hlast ih

theorem Leads.consistent (h : Leads w offers s s') (hc : s.Consistent w dirs) :
    s'.Consistent w dirs :=
  h.keeps Step.consistent hc

theorem Ends.leads {answer : Except Failure Outcome} {f : Failure} (h : Ends w s source answer f s') :
    Leads w offers s s' := by
  obtain ⟨rfl, _⟩ | ⟨_, _, _, hr, hin, rfl⟩ := h.left
  · exact .refl
  · exact .single (.noted hr hin)

theorem Trace.leads (h : Trace w cur s calls result s') (hc : s.Consistent w dirs) :
    Leads w offers s s' := by
  induction h with
  | done => exact .refl
  | next hq _ ih => exact .head (.taken hq) (ih (hc.waiting _))
  | clean _ ih => exact ih hc
  | retry hp _ ih =>
      obtain ⟨r, sources, hb⟩ := hc.provide_retry hp
      exact .head (.brought hb) (ih (hb.consistent hc))
  | fails he => exact he.leads

/-- However a session is used, nothing happens to it but steps, and no path is offered to its queue but
those that its uses name and the sources of libraries. -/
theorem leads_after (w : Surroundings) (dirs : List Path) (uses : List Use) :
    Leads w {p | .enqueue p ∈ uses} (start dirs) (after w dirs uses) := by
  have huse (u : Use) (s : Session) (hu : u ∈ uses) (hc : s.Consistent w dirs) :
      Leads w {p | .enqueue p ∈ uses} s (use w s u) := by
    cases u with
    | enqueue p => exact .single (.queued s hu)
    | run pp state => exact (run_trace w pp s state).1.leads hc
  -- the uses that are left are among all uses, so what they offer is offered
  have hfold (some : List Use) (s : Session) (hsub : some ⊆ uses) (hc : s.Consistent w dirs) :
      Leads w {p | .enqueue p ∈ uses} s (some.foldl (use w) s) := by
    induction some generalizing s with
    | nil => exact .refl
    | cons u some ih =>
        obtain ⟨hu, hrest⟩ := List.cons_subset.1 hsub
        have hfirst := huse u s hu hc
        exact hfirst.trans (ih _ hrest (hfirst.consistent hc))
  exact hfold uses _ (List.Subset.refl _) consistent_start

theorem Reaches.leads (h : Reaches w cur s calls source t) (hc : s.Consistent w dirs) :
    Leads w offers s t := by
  induction h with
  | here => exact .refl
  | next hq _ ih => exact .head (.taken hq) (ih (hc.waiting _))
  | clean _ ih => exact ih hc
  | retry hp _ ih =>
      obtain ⟨r, sources, hb⟩ := hc.provide_retry hp
      exact .head (.brought hb) (ih (hb.consistent hc))

theorem Reaches.consistent (h : Reaches w cur s calls source t) (hc : s.Consistent w dirs) :
    t.Consistent w dirs := by
  have hleads : Leads w ∅ s t := h.leads hc
  exact hleads.consistent hc

/-- A run that fails does so on its last question, and all answers before led there. -/
theorem Trace.fails_at {f : Failure} (h : Trace w cur s calls result s') (hf : result = .error f) :
    ∃ before source t answer, calls = before ++ [.asked source t.includeDirs answer] ∧
      Reaches w cur s before source t ∧ Ends w t source answer f s' := by
  induction h with
  | done => cases hf
  | next hq _ ih =>
      obtain ⟨before, source, t, answer, hcalls, hr, he⟩ := ih hf
      exact ⟨before, source, t, answer, hcalls, .next hq hr, he⟩
  | clean _ ih =>
      obtain ⟨before, source, t, answer, rfl, hr, he⟩ := ih hf
      exact ⟨_ :: before, source, t, answer, rfl, .clean hr, he⟩
  | retry hp _ ih =>
      obtain ⟨before, source, t, answer, rfl, hr, he⟩ := ih hf
      exact ⟨_ :: before, source, t, answer, rfl, .retry hp hr, he⟩
  | @fails source s answer f s' he =>
      cases hf
      exact ⟨[], source, s, answer, rfl, .here, he⟩

end SketchPrep.Session
