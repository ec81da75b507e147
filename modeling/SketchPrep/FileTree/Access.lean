import SketchPrep.FileTree.Search
import SketchPrep.Failure
import SketchPrep.Text.Utf8

namespace SketchPrep

abbrev FileWork := ExceptT Failure (StateM FileTree)

namespace FileTree

def fileText (t : FileTree) (p : Path) : Except Failure String :=
  attempting (.readingFile p) (t.readText p)

def findFiles (t : FileTree) (base : Path) (patterns : List String) : Except Failure (List Path) :=
  (t.filesMatching base patterns).mapError fun (pattern, e) =>
    .during (.searching pattern) (.badPattern e)

def textsFrom (t : FileTree) : Nat → (way : String) → Path → List (String × String)
  | 0, _, _ => []
  | n + 1, way, p =>
    (((t.list p).toOption.getD []).map (·.1)).flatMap fun name =>
      match t.entry? (p / name) with
      | .ok (_, .file content _) => [(way ++ name, Text.decodeBytes content)]
      | .ok (_, .folder) => t.textsFrom n (way ++ name ++ "/") (p / name)
      | _ => []

/-- The texts of all files below `p`, in the order of the texts of their paths from there. No path has more
folders than links can be followed, and between two links no more than there are. -/
def textsBelow (t : FileTree) (p : Path) : List (String × String) :=
  (t.textsFrom ((linkLimit + 1) * (t.entries.length + 2)) "" p).mergeSort fun a b => decide (a.1 ≤ b.1)

end FileTree

namespace FileWork

def change (activity : Activity) (f : FileTree → Except Failure FileTree) : FileWork Unit := do
  match f (← get) with
  | .ok t => set t
  | .error e => throw (.during activity e)

def ensureFolder (p : Path) : FileWork Unit := do
  match (← get).ensureFolder p with
  | .ok t => set t
  | .error failed =>
    set failed.tree
    throw (.during (.makingFolder p) (.change failed.error))

def ensureParent (p : Path) : FileWork Unit :=
  match p.parent? with
  | some folder => ensureFolder folder
  | none => pure ()

def save (p : Path) (text : String) : FileWork Unit := do
  ensureParent p
  change (.writingFile p) fun t => ofTree (t.write p text.toUTF8)

def copy (source target : Path) : FileWork Unit := do
  ensureParent target
  change (.copying source target) fun t => (t.copy source target).mapError .change

end FileWork

end SketchPrep
