import SketchPrep.Catalog
import SketchPrep.Discovery.Preprocessor
import SketchPrep.Discovery.Queue
import SketchPrep.Selection

namespace SketchPrep

structure Surroundings where
  tree : FileTree
  index : HeaderIndex
  platforms : Platforms

structure Session where
  imports : Imports
  includeDirs : List Path
  queue : SourceQueue
deriving DecidableEq, Inhabited

inductive HeaderStep where
  | retry (s : Session)
  | hopeless (s : Session)
  | stuck (f : Failure)

namespace Session

def start (includeDirs : List Path) : Session := ⟨.empty, includeDirs, .empty⟩

def enqueue (w : Surroundings) (s : Session) (p : Path) : Bool × Session :=
  let (new, queue) := s.queue.push w.tree p
  (new, { s with queue := queue })

def addDir (dirs : List Path) (dir : Path) : List Path := if hasPath dirs dir then dirs else dirs ++ [dir]

def withLibrary (w : Surroundings) (s : Session) (header : String) (r : Resolution)
    (sources : List Path) : Session where
  imports := (s.imports.insert r.library).record header r
  includeDirs := addDir s.includeDirs r.library.sourceFolder
  queue := s.queue.extend w.tree sources

def withFolder (s : Session) (header : String) (r : Resolution) : Session where
  imports := s.imports.record header r
  includeDirs := addDir s.includeDirs r.library.sourceFolder
  queue := s.queue

def sourcesOf (w : Surroundings) (l : Library) : Except Failure (List Path) :=
  match l.ensureSound with
  | .error m => .error (.malformed m)
  | .ok () => l.sourceFiles w.tree

def provide (w : Surroundings) (s : Session) (header : String) : HeaderStep :=
  match Selection.resolve header (w.index.candidates header) s.imports w.platforms with
  | none => .hopeless s
  | some r =>
    if s.imports.contains r.library then
      if hasPath s.includeDirs r.library.sourceFolder then .hopeless (s.withFolder header r)
      else .retry (s.withFolder header r)
    else match sourcesOf w r.library with
      | .error f => .stuck f
      | .ok sources => .retry (s.withLibrary w header r sources)

def toImport (w : Surroundings) (s : Session) : Nat :=
  w.index.libraries.countP (!s.imports.contains ·)

def toInclude (w : Surroundings) (s : Session) : Nat :=
  (w.index.libraries ++ s.imports.libraries).countP fun l => !hasPath s.includeDirs l.sourceFolder

theorem countP_lt {α : Type} {p q : α → Bool} {xs : List α} {a : α}
    (hpq : ∀ x, p x = true → q x = true) (ha : a ∈ xs) (hp : p a = false) (hq : q a = true) :
    xs.countP p < xs.countP q := by
  induction xs with
  | nil => cases ha
  | cons x xs ih =>
    have hle : xs.countP p ≤ xs.countP q := List.countP_mono_left fun x _ => hpq x
    rcases List.mem_cons.1 ha with rfl | hx
    · simp only [List.countP_cons, hp, hq]; simp; omega
    · have hlt := ih hx
      cases h : p x with
      | true => simp only [List.countP_cons, h, hpq x h]; simp; omega
      | false => simp only [List.countP_cons, h]; simp; omega

theorem hasPath_addDir (dirs : List Path) (dir p : Path) :
    hasPath (addDir dirs dir) p = (hasPath dirs p || dir.same p) := by
  unfold addDir
  split
  · rename_i h
    cases hs : dir.same p with
    | false => simp
    | true =>
      obtain ⟨d, hd, he⟩ := List.any_eq_true.1 h
      have : hasPath dirs p = true :=
        List.any_eq_true.2 ⟨d, hd, Path.same_iff.2 ((Path.same_iff.1 he).trans (Path.same_iff.1 hs))⟩
      simp [this]
  · simp [hasPath]

/-- What is left to do before every library of the index is in use. -/
def remaining (w : Surroundings) (s : Session) : Nat := s.toImport w + s.toInclude w

theorem remaining_withFolder_lt {w : Surroundings} {s : Session} {header : String} {r : Resolution}
    (hr : Selection.resolve header (w.index.candidates header) s.imports w.platforms = some r)
    (hd : hasPath s.includeDirs r.library.sourceFolder = false) :
    (s.withFolder header r).remaining w < s.remaining w := by
  have hmem : r.library ∈ w.index.libraries ++ s.imports.libraries :=
    List.mem_append.2 ((Selection.mem_of_resolve hr).imp_left
      HeaderIndex.mem_libraries_of_mem_candidates)
  have himport : (s.withFolder header r).toImport w = s.toImport w := rfl
  have hinclude : (s.withFolder header r).toInclude w < s.toInclude w := by
    refine countP_lt (fun l hl => ?_) hmem ?_ (by simp [hd])
    · simp only [withFolder, hasPath_addDir] at hl
      simp_all
    · simp [withFolder, hasPath_addDir, Path.same_refl]
  simp only [remaining]; omega

theorem remaining_withLibrary_lt {w : Surroundings} {s : Session} {header : String} {r : Resolution}
    {sources : List Path}
    (hr : Selection.resolve header (w.index.candidates header) s.imports w.platforms = some r)
    (hi : s.imports.contains r.library = false) :
    (s.withLibrary w header r sources).remaining w < s.remaining w := by
  have hmem : r.library ∈ w.index.libraries := by
    rcases Selection.mem_of_resolve hr with h | h
    · exact HeaderIndex.mem_libraries_of_mem_candidates h
    · have : s.imports.contains r.library = true :=
        List.any_eq_true.2 ⟨_, h, r.library.same_refl⟩
      simp [this] at hi
  have himport : (s.withLibrary w header r sources).toImport w < s.toImport w := by
    refine countP_lt (fun l hl => ?_) hmem ?_ (by simp [hi])
    · change (!(s.imports.insert r.library).contains l) = true at hl
      rw [Imports.contains_insert] at hl
      simp_all
    · change (!(s.imports.insert r.library).contains r.library) = false
      rw [Imports.contains_insert]; simp [Library.same_refl]
  have hinclude : (s.withLibrary w header r sources).toInclude w ≤ s.toInclude w := by
    have hl : ((s.imports.insert r.library).record header r).libraries =
        s.imports.libraries ++ [r.library] := by
      simp [Imports.record, Imports.insert, hi]
    simp only [toInclude, withLibrary, hl]
    rw [← List.append_assoc, List.countP_append]
    have hlast : [r.library].countP (fun l =>
        !hasPath (addDir s.includeDirs r.library.sourceFolder) l.sourceFolder) = 0 := by
      simp [hasPath_addDir, Path.same_refl]
    rw [hlast, Nat.add_zero]
    refine List.countP_mono_left fun l _ h => ?_
    simp only [hasPath_addDir] at h
    simp_all
  simp only [remaining]; omega

theorem remaining_lt_of_retry {w : Surroundings} {s s' : Session} {header : String}
    (h : s.provide w header = .retry s') : s'.remaining w < s.remaining w := by
  unfold provide at h
  split at h
  · cases h
  · rename_i r hr
    split at h
    · split at h
      · cases h
      · rename_i hd
        cases h
        exact remaining_withFolder_lt hr (by simpa using hd)
    · rename_i hi
      split at h
      · cases h
      · cases h
        exact remaining_withLibrary_lt hr (by simpa using hi)

variable {σ : Type}

def unresolved (pp : Preprocessor σ) (s : Session) (source : Path) (header : String) (state : σ) :
    Failure × σ :=
  match pp.diagnose source s.includeDirs state with
  | (.ok output, state) => (.unresolved header source output, state)
  | (.error f, state) => (.during (.diagnosing header) f, state)

def eventsOn (w : Surroundings) (s : Session) (source : Path) (header : String) : List LogEvent :=
  .debug (source.text ++ ": missing header `" ++ header ++ "`") ::
    match Selection.resolve header (w.index.candidates header) s.imports w.platforms with
    | none => []
    | some r =>
      if s.imports.contains r.library || !r.library.defects.isEmpty then []
      else
        [.debug ("importing `" ++ r.library.name ++ "` from " ++ r.library.folder.text ++ " for `" ++
          header ++ "`")]

def runFrom (w : Surroundings) (pp : Preprocessor σ) :
    Option Path → Session → σ → Except Failure Unit × Session × σ
  | none, s, state =>
    match _hpop : s.queue.pop with
    | none => (.ok (), s, state)
    | some (source, queue) => runFrom w pp (some source) { s with queue := queue } state
  | some source, s, state =>
    match pp.discover source s.includeDirs state with
    | (.error f, state) => (.error f, s, state)
    | (.ok .clean, state) => runFrom w pp none s state
    | (.ok (.failed output), state) => (.error (.compiler source output), s, state)
    | (.ok (.missing header), state) =>
      let state := pp.noteAll (s.eventsOn w source header) state
      match _hstep : s.provide w header with
      | .retry s' => runFrom w pp (some source) s' state
      | .stuck f => (.error f, s, state)
      | .hopeless s' =>
        let (f, state) := unresolved pp s' source header state
        (.error f, s', state)
  termination_by current s => (s.remaining w, 2 * s.queue.pending.length + current.toList.length)
  decreasing_by
    · obtain ⟨q, hq⟩ : ∃ q, s.queue.pending = source :: q ∧ queue = { s.queue with pending := q } := by
        unfold SourceQueue.pop at _hpop
        split at _hpop
        · cases _hpop
        · cases _hpop; exact ⟨_, ‹_›, rfl⟩
      rw [hq.2]
      refine Prod.Lex.right _ ?_
      simp only [hq.1, List.length_cons, Option.toList]
      simp; omega
    · refine Prod.Lex.right _ ?_
      simp
    · exact Prod.Lex.left _ _ (remaining_lt_of_retry _hstep)

/-- Works through the queue. A failure leaves the session as it was before the last question, but for
what was found out about the header. -/
def run (w : Surroundings) (pp : Preprocessor σ) (s : Session) (state : σ) :
    Except Failure Unit × Session × σ :=
  runFrom w pp none s state

end Session

structure Discovery where
  imports : Imports
  includeDirs : List Path
deriving DecidableEq, Inhabited

def Session.discovery (s : Session) : Discovery := ⟨s.imports, s.includeDirs⟩

def discover {σ : Type} (w : Surroundings) (pp : Preprocessor σ) (includeDirs sources : List Path)
    (state : σ) : Except Failure Discovery × σ :=
  let s := sources.foldl (fun s p => (s.enqueue w p).2) (Session.start includeDirs)
  match s.run w pp state with
  | (.ok (), s, state) => (.ok s.discovery, state)
  | (.error f, _, state) => (.error f, state)

end SketchPrep
