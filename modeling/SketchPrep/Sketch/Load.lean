import SketchPrep.FileTree.Access
import SketchPrep.Sketch.Basic

namespace SketchPrep.Sketch

def mergedExtensions : List String := ["ino", "pde"]

def additionalExtensions : List String := ["h", "c", "hpp", "cpp", "S"]

def hasExtension (extensions : List String) (p : Path) : Bool := p.extension?.any extensions.contains

def isHidden (p : Path) : Bool := p.fileName.toList.head? == some '.'

def patterns : List String :=
  (mergedExtensions ++ additionalExtensions).flatMap fun ext => ["*." ++ ext, "src/**/*." ++ ext]

/-- The folder of a sketch and its main file, which has the name of the folder if only that is given. -/
def locate (t : FileTree) (p : Path) : Except Failure (Path × Path) :=
  if t.isFolder p then
    let candidates := mergedExtensions.map fun ext => p / (p.fileName ++ "." ++ ext)
    match candidates.find? t.isFile with
    | some main => .ok (p, main)
    | none => .error (.noMainFile p p.fileName)
  else match p.parent? with
    | some folder => .ok (folder, p)
    | none => .error (.noParent p)

inductive Role where
  | merged
  | additional
deriving DecidableEq, Inhabited

def role? (folder main p : Path) : Option Role :=
  if p.same main || isHidden p then none
  else if p.parent?.any (·.same folder) && hasExtension mergedExtensions p then some .merged
  else if hasExtension additionalExtensions p then some .additional
  else none

def loadFile (t : FileTree) (p : Path) : Except Failure SketchFile := do
  return ⟨p, ← t.fileText p⟩

def load (t : FileTree) (p : Path) : Except Failure Sketch := do
  let p ← attempting (.findingSketch p) (ofTree (t.canonical p))
  let (folder, main) ← locate t p
  if !hasExtension mergedExtensions main then throw (.unknownExtension main)
  let mainFile ← loadFile t main
  let found := (← t.findFiles folder patterns).filterMap fun p =>
    (role? folder main p).map fun role => (role, p)
  let files ← found.mapM fun (role, p) => do return (role, ← loadFile t p)
  return {
    folder := folder
    main := mainFile
    others := (files.filter (·.1 = .merged)).map (·.2)
    additional := (files.filter (·.1 = .additional)).map (·.2) }

end SketchPrep.Sketch
