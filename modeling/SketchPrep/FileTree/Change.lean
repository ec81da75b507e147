import SketchPrep.FileTree.Basic

namespace SketchPrep

def Path.ancestors : Nat → Path → List Path
  | 0, _ => []
  | n + 1, p =>
    match p.parent? with
    | some q => p :: q.ancestors n
    | none => [p]

inductive ChangeError where
  | tree (e : TreeError)
  | noRoom
  | notPlainFile
deriving DecidableEq, Inhabited

def ChangeError.message : ChangeError → String
  | .tree e => e.message
  | .noRoom => "failed to create whole tree"
  | .notPlainFile => "the source path is neither a regular file nor a symlink to a regular file"

namespace FileTree

def put (t : FileTree) (location : Location) (entry : Entry) : FileTree :=
  { t with entries := (location, entry) :: t.entries.filter (·.1 != location) }

def withoutSlashes (text : String) : String :=
  let kept := (text.toList.reverse.dropWhile (· == '/')).reverse
  if kept.isEmpty && !text.isEmpty then "/" else String.ofList kept

def makeFolder (t : FileTree) (p : Path) : Except TreeError FileTree :=
  match t.reachText false (withoutSlashes p.text) with
  | .vacant location => .ok (t.put location .folder)
  | .found .. => .error .occupied
  | .failed e => .error e

structure FailedChange where
  error : ChangeError
  tree : FileTree

/-- Makes the first path of the list a folder; the others are its ancestors, which are made too if
they are missing. Ancestors stay when the folder itself cannot be made. -/
def makeFolders (t : FileTree) : List Path → Except FailedChange FileTree
  | [] => .error ⟨.noRoom, t⟩
  | p :: ancestors =>
    if p.text.isEmpty then .ok t
    else match t.makeFolder p with
      | .ok t => .ok t
      | .error .missing => do
        let t ← t.makeFolders ancestors
        match t.makeFolder p with
        | .ok t => .ok t
        | .error e => if t.isFolder p then .ok t else .error ⟨.tree e, t⟩
      | .error e => if t.isFolder p then .ok t else .error ⟨.tree e, t⟩

def ensureFolder (t : FileTree) (p : Path) : Except FailedChange FileTree :=
  if t.hasEntry p then .ok t else t.makeFolders (p.ancestors (p.text.length + 1))

def place (t : FileTree) (p : Path) : Except TreeError (Location × Option Bool) :=
  if p.text.toList.getLast? == some '/' then
    match t.reachText true (withoutSlashes p.text) with
    | .failed e => .error e
    | _ => .error .isFolder
  else match t.reach p with
    | .found location (.file _ runnable) => .ok (location, some runnable)
    | .found .. => .error .isFolder
    | .vacant location => .ok (location, none)
    | .failed e => .error e

def write (t : FileTree) (p : Path) (content : ByteArray) : Except TreeError FileTree := do
  let (location, runnable) ← t.place p
  return t.put location (.file content (runnable.getD false))

/-- The target is emptied before the source is read, so a file copied onto itself ends up empty. -/
def copy (t : FileTree) (source target : Path) : Except ChangeError FileTree :=
  match t.entry? source with
  | .error e => .error (.tree e)
  | .ok (origin, .file content runnable) =>
    match t.place target with
    | .error e => .error (.tree e)
    | .ok (location, _) =>
      .ok (t.put location (.file (if location = origin then .empty else content) runnable))
  | .ok _ => .error .notPlainFile

/-- What is in the tree but was not in `before`, or not so. Folders come before what they hold. -/
def changesSince (t before : FileTree) : List (Location × Entry) :=
  (t.entries.filter fun (location, entry) => before.find? location ≠ some entry).mergeSort fun a b =>
    a.1.length ≤ b.1.length

theorem find?_put (t : FileTree) (location other : Location) (entry : Entry)
    (h : location ≠ []) :
    (t.put location entry).find? other =
      if other = location then some entry else t.find? other := by
  by_cases ho : other = location
  · subst ho; simp [find?, put, h]
  · have hb : (other == location) = false := by simpa using ho
    simp only [find?, put, List.lookup_cons, hb, ho, if_false]
    split
    · rfl
    · induction t.entries with
      | nil => rfl
      | cons x xs ih =>
        obtain ⟨k, v⟩ := x
        by_cases hk : k = location
        · subst hk
          simpa [List.filter, List.lookup_cons, hb] using ih
        · have hf : (k != location) = true := by simpa using hk
          simp only [List.filter, hf, List.lookup_cons, ih]

end FileTree

end SketchPrep
