import SketchPrep.Library.Basic

namespace SketchPrep

def sourceExtensions : List String := ["c", "cpp", "S"]

def isSourceFile (p : Path) : Bool := p.extension?.any sourceExtensions.contains

namespace Library

def headers (t : FileTree) (l : Library) : Except Failure (List String) := do
  let files ← t.filesIn l.sourceFolder false
  let headers := files.filter fun p => p.extension? == some "h"
  return (headers.map Path.fileName).mergeSort fun a b => decide (a ≤ b)

def allFiles (t : FileTree) (l : Library) : Except Failure (List Path) :=
  match l.layout with
  | .nested => t.filesIn l.sourceFolder true
  | .flat => do
    let files ← t.filesIn l.sourceFolder false
    let utility := l.sourceFolder / "utility"
    if t.isFolder utility then return files ++ (← t.filesIn utility false) else return files

def sourceFiles (t : FileTree) (l : Library) : Except Failure (List Path) := do
  return Path.sort ((← l.allFiles t).filter isSourceFile)

end Library

end SketchPrep
