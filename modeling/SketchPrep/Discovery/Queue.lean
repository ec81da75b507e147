import SketchPrep.FileTree.Basic

namespace SketchPrep

structure SourceQueue where
  pending : List Path
  seen : List Path
deriving DecidableEq, Inhabited

namespace SourceQueue

def empty : SourceQueue := ⟨[], []⟩

/-- Queues a canonical path; the answer says whether it is new. -/
def add (q : SourceQueue) (p : Path) : Bool × SourceQueue :=
  if hasPath q.seen p then (false, q) else (true, ⟨q.pending ++ [p], q.seen ++ [p]⟩)

def push (t : FileTree) (q : SourceQueue) (p : Path) : Bool × SourceQueue := q.add (t.normalize p)

def pop (q : SourceQueue) : Option (Path × SourceQueue) :=
  match q.pending with
  | [] => none
  | p :: rest => some (p, { q with pending := rest })

def extend (t : FileTree) (q : SourceQueue) (ps : List Path) : SourceQueue :=
  ps.foldl (fun q p => (q.push t p).2) q

end SourceQueue

end SketchPrep
