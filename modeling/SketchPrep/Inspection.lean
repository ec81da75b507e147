import SketchPrep.Catalog
import SketchPrep.Selection

namespace SketchPrep

def visibleLibraries (t : FileTree) (configured : List Path) (ps : Platforms) : Except Failure Catalog :=
  Catalog.load t (libraryFolders t configured ps)

structure HeaderReport where
  header : String
  library : Option Library.Summary
  fromPlatform : Bool
  notUsed : List Library.Summary
deriving DecidableEq, Inhabited

def HeaderReport.of (header : String) : Option Resolution → HeaderReport
  | none => ⟨header, none, false, []⟩
  | some r => ⟨header, some r.library.summary, r.fromPlatform, r.notUsed.map Library.summary⟩

def Catalog.report (t : FileTree) (c : Catalog) (header : String) (ps : Platforms) :
    Except Failure HeaderReport := do
  let index ← c.headerIndex t
  return .of header (Selection.resolve header (index.candidates header) .empty ps)

end SketchPrep
