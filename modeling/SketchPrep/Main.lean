import SketchPrep.CommandLine.Run

namespace SketchPrep.Main

def entryOf (content : ByteArray) : Entry := .file content (content.toList.take 2 == [35, 33])

def locationOf (path : String) : Location := (stepsOf path).filter (· != ".")

/-- Adds what is at a path from the root on. Folders are added with all that they hold if `deep`, and links
with the paths that they lead to. -/
partial def readAt (deep : Bool) (t : FileTree) (path : String) : IO FileTree := do
  let location := locationOf path
  let p := (← IO.currentDir) / path
  match ← p.symlinkMetadata.toBaseIO with
  | .error _ => return t
  | .ok m =>
    match m.type with
    | .dir =>
      let mut t := if (t.find? location).isSome then t else t.put location .folder
      if deep then
        for e in ← p.readDir do t ← readAt deep t (path ++ "/" ++ e.fileName)
      return t
    | .file => return t.put location (entryOf (← IO.FS.readBinFile p))
    | .symlink =>
      if (t.find? location).isSome then return t
      match ← (IO.FS.realPath p).toBaseIO with
      | .error _ => return t
      | .ok target => readAt deep (t.put location (.link target.toString)) target.toString
    | .other => return t

def readBelow (t : FileTree) (path : Path) : IO FileTree := do
  let p := (← IO.currentDir) / path.text
  if !(← p.pathExists) then return t
  let mut t := t
  for text in [p.toString, (← IO.FS.realPath p).toString] do
    let location := locationOf text
    for n in List.range location.length do
      t ← readAt false t (Location.path (location.take n)).text
    t ← readAt true t text
  return t

def variableNames : List String := ["HOME", "PATH", "CXX", "CTAGS"]

def readEnvironment : IO (Dictionary String) := do
  let mut environment := .empty
  for name in variableNames do
    if let some value ← IO.getEnv name then environment := environment.insert name value
  return environment

def configuredPaths (c : Config) : List Path :=
  c.includeDirs ++ c.libraryFolders ++ c.buildFolder.toList ++ c.core.toList.map (·.folder) ++
    c.target.toList.map (·.folder)

def pathsOf (args : List String) : List Path :=
  (args.flatMap fun arg => [arg, (arg.splitOn "=").getLastD ""]).map Path.mk

def toolPaths (sys : System) (c : Config) : List Path :=
  let names := ["g++", "c++", "clang++", "ctags", "universal-ctags", "exuberant-ctags"] ++
    (c.compiler.toList ++ c.symbolLister.toList).map (·.text) ++ ["CXX", "CTAGS"].filterMap sys.environment.find?
  sys.searchFolders.flatMap fun folder => names.map fun name => folder.join ⟨name⟩

def readFiles (environment : Dictionary String) (args : List String) : IO FileTree := do
  let here := (← IO.currentDir).toString
  let mut t : FileTree := ⟨[], locationOf here⟩
  let user := Config.userFolder? ⟨t, environment⟩
  for p in ⟨here⟩ :: user.toList ++ pathsOf args do t ← readBelow t p
  let sys : System := ⟨t, environment⟩
  let (config, _) := Config.loadMerged sys (Config.userFile? sys) (Config.projectFile ⟨here⟩)
  for p in configuredPaths config ++ toolPaths sys config do t ← readBelow t p
  return t

def writeChanges (before after : FileTree) : IO Unit := do
  let root ← IO.currentDir
  for (location, entry) in after.changesSince before do
    let p := root / location.path.text
    match entry with
    | .folder => IO.FS.createDirAll p
    | .file content _ => IO.FS.writeBinFile p content
    | .link _ => pure ()

end SketchPrep.Main

open SketchPrep in
def main (args : List String) : IO UInt32 := do
  let environment ← Main.readEnvironment
  let t ← Main.readFiles environment args
  let input ← if args.contains "-" then (← IO.getStdin).readBinToEnd else pure .empty
  let finished := CommandLine.run args environment input t
  Main.writeChanges t finished.screen.tree
  IO.print finished.screen.output
  IO.eprint finished.screen.errors
  return finished.code.toUInt32
