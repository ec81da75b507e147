import Mathlib.Data.List.Induction
import SketchPrep.Proofs.Discovery.Queue

namespace SketchPrep.SourceQueue

inductive Operation where
  | push (p : Path)
  | extend (ps : List Path)
  | pop

def Operation.offers : Operation → List Path
  | .push p => [p]
  | .extend ps => ps
  | .pop => []

structure Life where
  popped : List Path
  queue : SourceQueue

namespace Life

def start : Life := ⟨[], .empty⟩

def step (t : FileTree) (life : Life) : Operation → Life
  | .push p => { life with queue := (life.queue.push t p).2 }
  | .extend ps => { life with queue := life.queue.extend t ps }
  | .pop =>
    match life.queue.pop with
    | some (p, queue) => ⟨life.popped ++ [p], queue⟩
    | none => life

def after (t : FileTree) (ops : List Operation) : Life := ops.foldl (step t) start

def admitted (life : Life) : List Path := life.popped ++ life.queue.pending

variable {life : Life}

theorem pop_admitted (t : FileTree) (life : Life) :
    (life.step t .pop).queue.seen = life.queue.seen ∧ (life.step t .pop).admitted = life.admitted := by
  obtain ⟨popped, ⟨pending, seen⟩⟩ := life
  cases pending with
  | nil => exact ⟨rfl, rfl⟩
  | cons p rest => exact ⟨rfl, List.append_assoc ..⟩

theorem step_admitted (t : FileTree) (op : Operation) (h : life.queue.seen = life.admitted) :
    (life.step t op).queue.seen = (life.step t op).admitted ∧
      (life.step t op).admitted =
        life.admitted ++ accepted life.admitted (op.offers.map t.normalize) := by
  have hextend (ps : List Path) :
      (life.queue.extend t ps).seen = life.popped ++ (life.queue.extend t ps).pending ∧
        life.popped ++ (life.queue.extend t ps).pending =
          life.admitted ++ accepted life.admitted (ps.map t.normalize) := by
    rw [seen_extend, pending_extend, h, admitted, List.append_assoc]
    exact ⟨rfl, rfl⟩
  cases op with
  | push p => exact hextend [p]
  | extend ps => exact hextend ps
  | pop =>
      obtain ⟨hpop, hsame⟩ := pop_admitted t life
      rw [hpop, hsame]
      exact ⟨h, (List.append_nil _).symm⟩

theorem after_admitted (t : FileTree) (ops : List Operation) :
    (after t ops).queue.seen = (after t ops).admitted ∧
      (after t ops).admitted = accepted [] ((ops.flatMap Operation.offers).map t.normalize) := by
  induction ops using List.reverseRecOn with
  | nil => exact ⟨rfl, rfl⟩
  | append_singleton ops op ih =>
      have hafter : after t (ops ++ [op]) = (after t ops).step t op := by
        rw [after, List.foldl_append]
        rfl
      have hoffers : (ops ++ [op]).flatMap Operation.offers = ops.flatMap Operation.offers ++ op.offers := by
        simp
      obtain ⟨hseen, hstep⟩ := step_admitted t op ih.1
      rw [hafter, hoffers, List.map_append, accepted_append, List.nil_append, ← ih.2]
      exact ⟨hseen, hstep⟩

end Life

/-- The paths of a list at the places before which no spelling of them stands. -/
def firsts (ps : List Path) : List Path :=
  (ps.zipIdx.filter fun (p, i) => !hasPath (ps.take i) p).map (·.1)

theorem firsts_append_singleton (ps : List Path) (p : Path) :
    firsts (ps ++ [p]) = firsts ps ++ if hasPath ps p then [] else [p] := by
  have hbefore : ∀ x ∈ ps.zipIdx, hasPath ((ps ++ [p]).take x.2) x.1 = hasPath (ps.take x.2) x.1 := by
    intro x hx
    have hlt : x.2 < ps.length := List.snd_lt_of_mem_zipIdx hx
    rw [List.take_append_of_le_length (Nat.le_of_lt hlt)]
  rw [firsts, firsts, List.zipIdx_append, List.filter_append, List.map_append,
    List.filter_congr fun x hx => congrArg (!·) (hbefore x hx)]
  cases hp : hasPath ps p <;> simp [hp]

theorem hasPath_accepted (ps : List Path) (p : Path) : hasPath (accepted [] ps) p = hasPath ps p := by
  apply Bool.eq_iff_iff.2
  constructor
  · intro h
    obtain ⟨q, hq, he⟩ := hasPath_iff.1 h
    exact hasPath_iff.2 ⟨q, (accepted_sublist [] ps).subset hq, he⟩
  · intro h
    have hall : hasPath ([] ++ accepted [] ps) p = true := hasPath_append_accepted h
    exact hall

theorem accepted_eq_firsts (ps : List Path) : accepted [] ps = firsts ps := by
  induction ps using List.reverseRecOn with
  | nil => rfl
  | append_singleton ps p ih =>
      rw [accepted_append, firsts_append_singleton, List.nil_append, ← ih, accepted, hasPath_accepted]
      rfl

theorem push_fst_iff {t : FileTree} {q : SourceQueue} {p : Path} :
    (q.push t p).1 = true ↔ hasPath q.seen (t.normalize p) = false := by
  rw [push, add]
  cases hasPath q.seen (t.normalize p) <;> simp

theorem pop_eq_none_iff {q : SourceQueue} : q.pop = none ↔ q.pending = [] := by
  rw [pop]
  cases q.pending <;> simp

/-- Whatever is done with a queue, what was popped and then what waits are the first occurrences of the
canonical paths that were pushed. A push is answered by whether its path is a new one, and a pop finds
nothing just when every pushed path was popped. -/
theorem life_after (t : FileTree) (ops : List Operation) :
    let life := Life.after t ops
    let pushed := (ops.flatMap Operation.offers).map t.normalize
    life.popped ++ life.queue.pending = firsts pushed ∧
      (life.popped ++ life.queue.pending).Pairwise (fun p q => p.same q = false) ∧
      (∀ p ∈ pushed, hasPath (life.popped ++ life.queue.pending) p = true) ∧
      (∀ p, (life.queue.push t p).1 = true ↔ hasPath pushed (t.normalize p) = false) ∧
      (life.queue.pop = none ↔ ∀ p ∈ pushed, hasPath life.popped p = true) := by
  intro life pushed
  obtain ⟨hseen, hadmitted⟩ : life.queue.seen = life.admitted ∧ life.admitted = accepted [] pushed :=
    Life.after_admitted t ops
  have hapart : life.admitted.Pairwise fun p q => p.same q = false := by
    rw [hadmitted]
    exact accepted_pairwise [] pushed
  have hkept : ∀ p ∈ pushed, hasPath life.admitted p = true := by
    intro p hp
    rw [hadmitted, hasPath_accepted]
    exact hasPath_of_mem hp
  refine ⟨hadmitted.trans (accepted_eq_firsts pushed), hapart, hkept, ?_, ?_⟩
  · intro p
    rw [push_fst_iff, hseen, hadmitted, hasPath_accepted]
  · rw [pop_eq_none_iff]
    constructor
    · intro hnone
      rw [Life.admitted, hnone, List.append_nil] at hkept
      exact hkept
    · intro hall
      apply List.eq_nil_iff_forall_not_mem.2
      intro p hp
      have hpushed : p ∈ pushed := by
        apply (accepted_sublist [] pushed).subset
        rw [← hadmitted]
        exact List.mem_append_right _ hp
      obtain ⟨q, hq, he⟩ := hasPath_iff.1 (hall p hpushed)
      have hnot : q.same p = false := (List.pairwise_append.1 hapart).2.2 q hq p hp
      rw [Path.same_iff.2 he] at hnot
      cases hnot

end SketchPrep.SourceQueue
