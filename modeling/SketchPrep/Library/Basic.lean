import SketchPrep.Failure
import SketchPrep.Path.Relative
import SketchPrep.Text.Blank

namespace SketchPrep

/-- Sources either lie in the library's folder and its `utility` folder, or anywhere below `src`. -/
inductive LibraryLayout where
  | flat
  | nested
deriving DecidableEq, Inhabited

def LibraryLayout.text : LibraryLayout → String
  | .flat => "flat"
  | .nested => "recursive"

inductive Architectures where
  | any
  | only (ids : List String)
deriving DecidableEq, Inhabited

namespace Architectures

/-- Reads ids between commas. A star among them, or no id at all, stands for every architecture. -/
def parse (value : String) : Architectures :=
  let ids := ((value.toList.splitOn ',').map Text.trim).filter (!·.isEmpty)
  if ids.isEmpty || ids.contains ['*'] then .any else .only (ids.map String.ofList)

def text : Architectures → String
  | .any => "*"
  | .only ids => ",".intercalate ids

def supports (a : Architectures) (id : String) : Bool :=
  match a with
  | .any => true
  | .only ids => ids.contains id

end Architectures

structure Library where
  name : String
  realName : String
  folder : Path
  sourceFolder : Path
  layout : LibraryLayout
  architectures : Architectures
  category : String
  license : String
  legacy : Bool
  version : String
  author : String
  maintainer : String
  sentence : String
  paragraph : String
  url : String
  dotALinkage : Bool
  properties : Properties
  defects : List LibraryDefect
  notices : List String
deriving DecidableEq, Inhabited

namespace Library

def uncategorized : String := "Uncategorized"

def legacyAt (folder : Path) : Library where
  name := folder.fileName
  realName := folder.fileName
  folder := folder
  sourceFolder := folder
  layout := .flat
  architectures := .any
  category := uncategorized
  license := "Unspecified"
  legacy := true
  version := ""
  author := ""
  maintainer := ""
  sentence := ""
  paragraph := ""
  url := ""
  dotALinkage := false
  properties := .empty
  defects := []
  notices := []

def same (l m : Library) : Bool := l.sourceFolder.same m.sourceFolder

theorem same_refl (l : Library) : l.same l = true := l.sourceFolder.same_refl

def ensureSound (l : Library) : Except MalformedLibrary Unit :=
  match l.defects with
  | [] => .ok ()
  | defect :: _ => .error ⟨l.name, l.folder, defect⟩

structure Summary where
  name : String
  version : String
  folder : Path
  architectures : String
  legacy : Bool
deriving DecidableEq, Inhabited

def summary (l : Library) : Summary := ⟨l.name, l.version, l.folder, l.architectures.text, l.legacy⟩

def Summary.describe (s : Summary) (base : Path) : String :=
  s.name ++ " (" ++ (if s.legacy then "legacy" else s.version) ++ ") [" ++ s.architectures ++ "] " ++
    (s.folder.relativeTo base).text

end Library

end SketchPrep
