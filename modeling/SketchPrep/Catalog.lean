import SketchPrep.Library.Files
import SketchPrep.Library.Load
import SketchPrep.Log
import SketchPrep.Platform

namespace SketchPrep

structure Catalog where
  folders : List Path
  libraries : List Library

def addFolder (folders : List Path) (folder : Path) : List Path :=
  if hasPath folders folder then folders else folders ++ [folder]

/-- The folders with libraries: those that were asked for, then those of the board's platform and of
the core's, if they exist. Each is named by its canonical path, once. -/
def libraryFolders (t : FileTree) (configured : List Path) (ps : Platforms) : List Path :=
  let bundled := ([ps.target, ps.core].map (·.librariesFolder)).filter t.isFolder
  ((configured ++ bundled).map t.normalize).foldl addFolder []

structure HeaderIndex where
  entries : List (String × Library)

namespace HeaderIndex

def candidates (index : HeaderIndex) (header : String) : List Library :=
  (index.entries.filter (·.1 == header)).map (·.2)

def insert (index : HeaderIndex) (header : String) (l : Library) : HeaderIndex :=
  ⟨index.entries ++ [(header, l)]⟩

def headers (index : HeaderIndex) : List String := (index.entries.map (·.1)).eraseDups

def libraries (index : HeaderIndex) : List Library := index.entries.map (·.2)

theorem mem_libraries_of_mem_candidates {index : HeaderIndex} {header : String} {l : Library}
    (h : l ∈ index.candidates header) : l ∈ index.libraries := by
  obtain ⟨e, he, rfl⟩ := List.mem_map.1 h
  exact List.mem_map.2 ⟨e, (List.mem_filter.1 he).1, rfl⟩

end HeaderIndex

namespace Catalog

def libraryFoldersIn (t : FileTree) (folder : Path) : Except Failure (List Path) := do
  let entries ← attempting (.listingLibraries folder) (ofTree (t.list folder))
  let folders := entries.filter fun (name, entry) => entry = .folder && !FileTree.isIgnoredName name
  return Path.sort (folders.map fun (name, _) => folder / name)

def load (t : FileTree) (folders : List Path) : Except Failure Catalog := do
  let found ← folders.mapM (libraryFoldersIn t)
  return ⟨folders, ← found.flatten.mapM (Library.load t)⟩

def find? (c : Catalog) (name : String) : Option Library := c.libraries.find? (·.name == name)

def notices (c : Catalog) : List String := c.libraries.flatMap (·.notices)

/-- The libraries in their folders' order, up to the first that cannot be loaded. -/
def loadable (t : FileTree) (places : List Path) : List Library :=
  ((places.map (Library.load t)).takeWhile (·.toBool)).filterMap (·.toOption)

def events (t : FileTree) (folders : List Path) : List LogEvent :=
  match folders.mapM (libraryFoldersIn t) with
  | .error _ => []
  | .ok found =>
    let libraries := loadable t found.flatten
    (libraries.flatMap (·.notices)).map .warn ++
      if libraries.length < found.flatten.length then []
      else
        [.debug ("loaded " ++ toString libraries.length ++ " libraries from " ++
          toString folders.length ++ " folders")]

def headerIndex (t : FileTree) (c : Catalog) : Except Failure HeaderIndex := do
  let entries ← c.libraries.mapM fun l => do
    let headers ← attempting (.listingHeaders l.name) (l.headers t)
    return headers.map fun header => (header, l)
  return ⟨entries.flatten⟩

end Catalog

end SketchPrep
