import Mathlib.Algebra.GroupWithZero.Nat
import Mathlib.Algebra.Order.BigOperators.Group.List
import Mathlib.Algebra.Order.Group.Nat
import Mathlib.Data.Finset.Card
import SketchPrep.Proofs.Discovery.Invariant
import SketchPrep.Proofs.Discovery.Queue

namespace SketchPrep

def finished (calls : List Call) : List Path := (calls.filter (·.isClean)).map (·.source)

def givenUp (calls : List Call) : Except Failure Unit → List Path
  | .ok _ => []
  | .error _ => (calls.getLast?.map (·.source)).toList

def retried (calls : List Call) : Except Failure Unit → List String
  | .ok _ => calls.filterMap (·.missing?)
  | .error _ => calls.dropLast.filterMap (·.missing?)

def failures : Except Failure Unit → Nat
  | .ok _ => 0
  | .error _ => 1

def sourceCount (w : Surroundings) (l : Library) : Nat :=
  match Session.sourcesOf w l with
  | .ok sources => sources.length
  | .error _ => 0

def HeaderIndex.sourceFolders (index : HeaderIndex) : Finset (List Component) :=
  (index.libraries.map (·.sourceFolder.components)).toFinset

namespace Session

structure Account (w : Surroundings) (cur : Option Path) (s : Session) (calls : List Call)
    (result : Except Failure Unit) (s' : Session) (added : List Library) (accepted : List Path) :
    Prop where
  libraries : s'.imports.libraries = s.imports.libraries ++ added
  seen : s'.queue.seen = s.queue.seen ++ accepted
  sources : cur.toList ++ s.queue.pending ++ accepted =
    finished calls ++ givenUp calls result ++ s'.queue.pending
  count : calls.length = (finished calls).length + added.length + failures result
  brought : List.Forall₂ (fun header l => l ∈ w.index.candidates header) (retried calls result) added
  offered : accepted.length ≤ (added.map (sourceCount w)).sum

variable {w : Surroundings} {dirs : List Path} {cur : Option Path} {s s' : Session}
  {calls : List Call} {result : Except Failure Unit} {c : Call}

theorem Trace.calls_ne_nil_of_error {f : Failure} (h : Trace w cur s calls (.error f) s') :
    calls ≠ [] := by
  cases h with
  | next _ ht => cases ht <;> simp
  | clean | retry | fails => simp

theorem Trace.givenUp_cons (h : Trace w cur s calls result s') (c : Call) :
    givenUp (c :: calls) result = givenUp calls result := by
  cases result with
  | ok => rfl
  | error f => simp only [givenUp, List.getLast?_cons_of_ne_nil h.calls_ne_nil_of_error]

theorem Trace.retried_cons (h : Trace w cur s calls result s') (c : Call) :
    retried (c :: calls) result = c.missing?.toList ++ retried calls result := by
  cases result with
  | ok => cases hc : c.missing? <;> simp [retried, hc]
  | error f =>
      simp only [retried, List.dropLast_cons_of_ne_nil h.calls_ne_nil_of_error]
      cases hc : c.missing? <;> simp [hc]

theorem finished_cons_of_clean (hc : c.isClean = true) (calls : List Call) :
    finished (c :: calls) = c.source :: finished calls := by
  simp [finished, hc]

theorem finished_cons_of_not_clean (hc : c.isClean = false) (calls : List Call) :
    finished (c :: calls) = finished calls := by
  simp [finished, hc]

theorem Ends.not_clean {source : Path} {answer : Except Failure Outcome} {f : Failure}
    (h : Ends w s source answer f s') (dirs : List Path) :
    (Call.asked source dirs answer).isClean = false := by
  cases h <;> rfl

theorem Trace.account (h : Trace w cur s calls result s') (hc : s.Consistent w dirs) :
    ∃ added accepted, Account w cur s calls result s' added accepted := by
  -- each question is the one thing that it adds to the account: a source, a library or the failure
  induction h with
  | done hq =>
      exact ⟨[], [], by simp, by simp, by simp [finished, givenUp, hq],
        by simp [finished, failures], by simp [retried], by simp⟩
  | next hq _ ih =>
      obtain ⟨added, accepted, a⟩ := ih (hc.waiting _)
      refine ⟨added, accepted, a.libraries, a.seen, ?_, a.count, a.brought, a.offered⟩
      rw [← a.sources, hq]
      simp [waiting]
  | @clean source s calls result s' ht ih =>
      obtain ⟨added, accepted, a⟩ := ih hc
      refine ⟨added, accepted, a.libraries, a.seen, ?_, ?_, ?_, a.offered⟩
      · rw [finished_cons_of_clean rfl, ht.givenUp_cons, Option.toList_some, Call.asked_source]
        simpa using a.sources
      · rw [finished_cons_of_clean rfl, List.length_cons, List.length_cons, a.count]
        omega
      · rw [ht.retried_cons]
        exact a.brought
  | @retry source s header t calls result s' hp ht ih =>
      obtain ⟨r, sources, hb⟩ := hc.provide_retry hp
      obtain ⟨added, accepted, a⟩ := ih (hb.consistent hc)
      refine ⟨r.library :: added,
        SourceQueue.accepted s.queue.seen (sources.map w.tree.normalize) ++ accepted,
        ?_, ?_, ?_, ?_, ?_, ?_⟩
      · rw [a.libraries, hb.libraries, List.append_assoc, List.singleton_append]
      · rw [a.seen, hb.queue, SourceQueue.seen_extend, List.append_assoc]
      · rw [finished_cons_of_not_clean rfl, ht.givenUp_cons, ← a.sources, hb.queue,
          SourceQueue.pending_extend]
        simp
      · rw [finished_cons_of_not_clean rfl, List.length_cons, List.length_cons, a.count]
        omega
      · rw [ht.retried_cons]
        exact .cons hb.candidate a.brought
      · have hlen := SourceQueue.length_accepted_le s.queue.seen (sources.map w.tree.normalize)
        have hcount : sourceCount w r.library = sources.length := by
          rw [sourceCount, hb.sources_eq]
        have hrest := a.offered
        simp only [List.length_append, List.map_cons, List.sum_cons, List.length_map] at hlen ⊢
        omega
  | @fails source s answer f s' he =>
      obtain ⟨hl, _, hq⟩ := he.consistent
      have hf : finished [.asked source s.includeDirs answer] = [] :=
        finished_cons_of_not_clean (he.not_clean _) []
      refine ⟨[], [], by simp [hl], by simp [hq], ?_, ?_, by simp [retried], by simp⟩
      · simp [hf, givenUp, hq]
      · simp [hf, failures]

theorem Trace.pending_eq_nil (h : Trace w cur s calls result s') (hok : result = .ok ()) :
    s'.queue.pending = [] := by
  induction h with
  | done hq => exact hq
  | next _ _ ih | clean _ ih | retry _ _ ih => exact ih hok
  | fails => cases hok

/-- A run that succeeds has finished all that was ever queued. -/
theorem Trace.finished_eq {sources : List Path}
    (h : Trace w none (after w dirs (sources.map .enqueue)) calls (.ok ()) s') :
    finished calls = s'.queue.seen := by
  obtain ⟨added, accepted, a⟩ := h.account (consistent_after w dirs (sources.map .enqueue))
  have hsources := a.sources
  have hseen := a.seen
  rw [h.pending_eq_nil rfl, after_enqueue] at hsources
  rw [after_enqueue] at hseen
  simp only [SourceQueue.seen_extend, SourceQueue.pending_extend] at hsources hseen
  rw [hseen]
  simpa [givenUp, SourceQueue.empty] using hsources.symm

theorem Consistent.length_libraries_le (hc : s.Consistent w dirs) :
    s.imports.libraries.length ≤ w.index.sourceFolders.card := by
  have hnodup : (s.imports.libraries.map (·.sourceFolder.components)).Nodup := by
    rw [List.nodup_iff_pairwise_ne, List.pairwise_map]
    exact hc.distinct.imp fun hne he => by rw [Library.same, Path.same_iff.2 he] at hne; cases hne
  rw [← List.length_map (·.sourceFolder.components), ← List.toFinset_card_of_nodup hnodup]
  apply Finset.card_le_card
  intro folder hf
  obtain ⟨l, hl, rfl⟩ := List.mem_map.1 (List.mem_toFinset.1 hf)
  exact List.mem_toFinset.2 (List.mem_map.2 ⟨l, hc.offered l hl, rfl⟩)

def questionLimit (w : Surroundings) (s : Session) : Nat :=
  s.queue.pending.length + (w.index.libraries.map fun l => sourceCount w l + 1).sum + 1

theorem Consistent.nodup (hc : s.Consistent w dirs) : s.imports.libraries.Nodup := by
  rw [List.nodup_iff_pairwise_ne]
  refine hc.distinct.imp fun {l m} hne he => ?_
  rw [he, Library.same_refl] at hne
  cases hne

theorem Account.length_le {added : List Library} {accepted : List Path}
    (a : Account w none s calls result s' added accepted) (hc : s'.Consistent w dirs) :
    calls.length ≤ questionLimit w s := by
  -- the libraries added are different and in the index, so their sources are among all of its sources
  have hnodup : added.Nodup := (List.nodup_append.1 (a.libraries ▸ hc.nodup)).2.1
  have hsubset : added ⊆ w.index.libraries := fun l hl =>
    hc.offered l (a.libraries ▸ List.mem_append_right _ hl)
  obtain ⟨chosen, hperm, hsub⟩ := List.subperm_of_subset hnodup hsubset
  have hsum : (added.map fun l => sourceCount w l + 1).sum ≤
      (w.index.libraries.map fun l => sourceCount w l + 1).sum := by
    rw [← (hperm.map _).sum_eq]
    exact (hsub.map _).sum_le_sum (by simp)
  have hsplit : (added.map fun l => sourceCount w l + 1).sum =
      (added.map (sourceCount w)).sum + added.length := by
    simp [List.sum_map_add]
  have hsources := congrArg List.length a.sources
  simp only [Option.toList_none, List.nil_append, List.length_append] at hsources
  have hcount := a.count
  have hoffered := a.offered
  have hfail : failures result ≤ 1 := by cases result <;> simp [failures]
  simp only [questionLimit]
  omega

/-- However a session was used, the questions of its next run are the sources that it finishes, the
libraries that it imports, and one more exactly if it fails. No library is ever imported twice, so there
are never more than source folders in the index, and a limit on the questions can be told before. -/
theorem run_question_count {σ : Type} (w : Surroundings) (dirs : List Path) (uses : List Use)
    (pp : Preprocessor σ) (state : σ) :
    let s := after w dirs uses
    let s' := (s.run w pp state).2.1
    let calls := s.callsOf w pp state
    (∃ added accepted, Account w none s calls (s.run w pp state).1 s' added accepted) ∧
      s'.imports.libraries.Pairwise (fun l m => l.same m = false) ∧
      s'.imports.libraries.length ≤ w.index.sourceFolders.card ∧
      calls.length ≤ questionLimit w s := by
  intro s s' calls
  have ht := (run_trace w pp s state).1
  have hc : s.Consistent w dirs := consistent_after w dirs uses
  have hc' : s'.Consistent w dirs := ht.consistent hc
  obtain ⟨added, accepted, a⟩ := ht.account hc
  exact ⟨⟨added, accepted, a⟩, hc'.distinct, hc'.length_libraries_le, a.length_le hc'⟩

end Session

end SketchPrep
