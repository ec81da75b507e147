import SketchPrep.Log
import SketchPrep.Platform
import SketchPrep.Toml.Reader
import SketchPrep.Toolchain.System

namespace SketchPrep

structure Config where
  compiler : Option Path
  symbolLister : Option Path
  compilerFlags : List String
  core : Option Platform
  target : Option Platform
  includeDirs : List Path
  libraryFolders : List Path
  buildFolder : Option Path
deriving DecidableEq, Inhabited

namespace Toml

/-- The fields of a record: by their names in a table, by their places in an array. A date has none of
the fields that a record may have. -/
def record? : Toml → Option (String → Nat → Option Toml)
  | .table _ entries => some fun name _ => entries.lookup name
  | .array _ items => some fun _ place => items[place]?
  | .moment _ => some fun _ _ => none
  | _ => none

def string? : Toml → Option String
  | .text s => some s
  | _ => none

def strings? : Toml → Option (List String)
  | .array _ items => items.mapM string?
  | _ => none

def optional? {α : Type} (read : Toml → Option α) : Option Toml → Option (Option α)
  | none => some none
  | some v => (read v).map some

def fields? : Option Toml → Option (String → Nat → Option Toml)
  | none => some fun _ _ => none
  | some v => v.record?

def platform? (v : Toml) : Option Platform := do
  let field ← v.record?
  let id ← (← field "id" 0).string?
  let folder ← (← field "folder" 1).string?
  return ⟨id, ⟨folder⟩⟩

end Toml

namespace Config

def empty : Config := ⟨none, none, [], none, none, [], [], none⟩

def ofToml? (document : Toml) : Option Config := do
  let sections ← document.record?
  let toolchain ← Toml.fields? (sections "toolchain" 0)
  let platform ← Toml.fields? (sections "platform" 1)
  let libraries ← Toml.fields? (sections "libraries" 2)
  let build ← Toml.fields? (sections "build" 3)
  let path? := Toml.optional? fun v => v.string?.map Path.mk
  let strings? := fun v => (Toml.optional? Toml.strings? v).map (·.getD [])
  return {
    compiler := ← path? (toolchain "cxx" 0)
    symbolLister := ← path? (toolchain "ctags" 1)
    compilerFlags := ← strings? (toolchain "cxxflags" 2)
    core := ← Toml.optional? Toml.platform? (platform "core" 0)
    target := ← Toml.optional? Toml.platform? (platform "target" 1)
    includeDirs := (← strings? (platform "include_dirs" 2)).map Path.mk
    libraryFolders := (← strings? (libraries "folders" 0)).map Path.mk
    buildFolder := ← path? (build "path" 0) }

def expandTildes (sys : System) (c : Config) : Config :=
  let platform := fun (p : Platform) => { p with folder := sys.expandTilde p.folder }
  { c with
    core := c.core.map platform
    target := c.target.map platform
    includeDirs := c.includeDirs.map sys.expandTilde
    libraryFolders := c.libraryFolders.map sys.expandTilde
    buildFolder := c.buildFolder.map sys.expandTilde }

def load (sys : System) (p : Path) : Except Failure Config := do
  let text ← attempting (.readingConfig p) (sys.tree.readText p)
  match (Toml.parse? text).bind ofToml? with
  | some c => return c.expandTildes sys
  | none => throw (.during (.parsingConfig p) .badConfig)

def loadOrEmpty (sys : System) (p : Path) : Config × List LogEvent :=
  if sys.tree.hasEntry p then
    match load sys p with
    | .ok c => (c, [])
    | .error f => (empty, [.warn ("Failed to load config from " ++ p.text ++ ": " ++ f.message)])
  else (empty, [])

def orElse {α : Type} (list default : List α) : List α := if list.isEmpty then default else list

/-- What `above` leaves open is as in `c`. Lists are taken from one of them, not joined. -/
def merge (c above : Config) : Config where
  compiler := above.compiler <|> c.compiler
  symbolLister := above.symbolLister <|> c.symbolLister
  compilerFlags := orElse above.compilerFlags c.compilerFlags
  core := above.core <|> c.core
  target := above.target <|> c.target
  includeDirs := orElse above.includeDirs c.includeDirs
  libraryFolders := orElse above.libraryFolders c.libraryFolders
  buildFolder := above.buildFolder <|> c.buildFolder

def loadMerged (sys : System) (userFile : Option Path) (projectFile : Path) : Config × List LogEvent :=
  let (user, userLog) := match userFile with
    | some p => loadOrEmpty sys p
    | none => (empty, [])
  let (project, projectLog) := loadOrEmpty sys projectFile
  ((empty.merge user).merge project, userLog ++ projectLog)

def platforms? (t : FileTree) (c : Config) : Option Platforms :=
  c.core.map fun core => .of t core (c.target.getD core)

def folderName : String := ".sketchport"

def fileName : String := "config.toml"

def userFolder? (sys : System) : Option Path := sys.home?.map (· / folderName)

def userFile? (sys : System) : Option Path := (userFolder? sys).map (· / fileName)

def projectFile (project : Path) : Path := project / folderName / fileName

end Config

end SketchPrep
