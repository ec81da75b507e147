import SketchPrep.CommandLine.Arguments
import SketchPrep.Config
import SketchPrep.Inspection
import SketchPrep.JsonValue
import SketchPrep.Toolchain.Installed

namespace SketchPrep.CommandLine

structure Screen where
  tree : FileTree
  output : String
  errors : String

structure Setting where
  request : Request
  environment : Dictionary String
  input : ByteArray

abbrev Running := ReaderT Setting (ExceptT Failure (StateM Screen))

namespace Running

def request : Running Request := return (← read).request

def tree : Running FileTree := return (← get).tree

def system : Running System := return ⟨← tree, (← read).environment⟩

def look {α : Type} (f : FileTree → Except Failure α) : Running α := do
  match f (← tree) with
  | .ok a => return a
  | .error e => throw e

def printLine (line : String) : Running Unit :=
  modify fun screen => { screen with output := screen.output ++ line ++ "\n" }

def remark (line : String) : Running Unit :=
  modify fun screen => { screen with errors := screen.errors ++ line ++ "\n" }

def tell (es : List LogEvent) : Running Unit := do
  let verbose := (← request).has .verbose
  let lines := (es.filter fun e => verbose || e.level != .debug).map LogEvent.line
  modify fun screen => { screen with errors := screen.errors ++ String.join lines }

def currentConfig : Running Config := do
  let sys ← system
  let (config, events) :=
    Config.loadMerged sys (Config.userFile? sys) (Config.projectFile sys.tree.here.path)
  tell events
  return config

def platforms (config : Config) : Running Platforms := do
  let t ← tree
  let r ← request
  let architecture? := r.text? .architecture
  match r.path? .platform with
  | some folder =>
    if !t.isFolder folder then throw (.noPlatformFolder folder)
    let folder := t.normalize folder
    return .single t ⟨architecture?.getD folder.fileName, folder⟩
  | none =>
    match config.platforms? t with
    | none => throw .noPlatform
    | some ps => return { ps with target.id := architecture?.getD ps.target.id }

/-- The folders with libraries. Those of the command line are taken in place of the configured ones. -/
def libraryFolders (config : Config) : Running (List Path) := do
  return Config.orElse ((← request).paths .libraries) config.libraryFolders

def catalog : Running (Catalog × Platforms) := do
  let config ← currentConfig
  let ps ← platforms config
  let folders ← libraryFolders config
  tell (Catalog.events (← tree) (SketchPrep.libraryFolders (← tree) folders ps))
  let catalog ← look (visibleLibraries · folders ps)
  return (catalog, ps)

def summaryFields (s : Library.Summary) : JsonValue :=
  .object
    [("name", .text s.name), ("version", .text s.version), ("folder", .text s.folder.text),
      ("architectures", .text s.architectures), ("legacy", .boolean s.legacy)]

def reportFields (r : HeaderReport) : JsonValue :=
  .object
    [("header", .text r.header), ("library", (r.library.map summaryFields).getD .null),
      ("from_platform", .boolean r.fromPlatform), ("not_used", .array (r.notUsed.map summaryFields))]

def listLibraries : Running Unit := do
  let (catalog, _) ← catalog
  let summaries := catalog.libraries.map Library.summary
  if (← request).has .asJson then printLine (JsonValue.array (summaries.map summaryFields)).pretty
  else if summaries.isEmpty then
    remark "No libraries found."
    remark Failure.foldersHint
  else
    let here := (← tree).here.path
    for s in summaries do printLine (s.describe here)

def resolveHeader (header : String) : Running Unit := do
  let (catalog, ps) ← catalog
  let report ← look (catalog.report · header ps)
  if (← request).has .asJson then printLine (reportFields report).pretty
  else
    match report.library with
    | none => throw (.noProvider header)
    | some library =>
      let here := (← tree).here.path
      let origin := if report.fromPlatform then " (platform)" else ""
      printLine (header ++ " -> " ++ library.describe here ++ origin)
      for other in report.notUsed do printLine ("  not used: " ++ other.describe here)

def readListing (file : Path) : Running String := do
  if file.same ⟨"-"⟩ then
    match String.fromUTF8? (← read).input with
    | some text => return text
    | none => throw (.during .readingInput .notText)
  else look (·.fileText file)

def prototypes (file : Path) : Running Unit := do
  let listing ← readListing file
  let t ← tree
  tell (Tag.eventsOf t listing)
  let (prototypes, line) := Prototype.ofListing t.textAt? ((← request).path? .mainFile) listing
  for p in prototypes do printLine p.declaration
  match line with
  | some line => printLine ("// insert before line " ++ toString line)
  | none => printLine "// no insertion point"

def tools (config : Config) : Running (Tools (List LogEvent)) := do
  let r ← request
  let sys ← system
  let some compiler := r.path? .compiler <|> config.compiler <|> sys.findCompiler | throw .noCompiler
  let some lister := r.path? .symbolLister <|> config.symbolLister <|> sys.findSymbolLister
    | throw .noTagLister
  tell [.debug ("using compiler " ++ compiler.text ++ " and ctags " ++ lister.text)]
  return installedTools sys.environment (.of compiler config.compilerFlags) ⟨lister⟩

def preprocess (sketch : Path) : Running Unit := do
  let t ← tree
  if !t.hasEntry sketch then throw (.noSketch sketch)
  let config ← currentConfig
  let ps ← platforms config
  let folders ← libraryFolders config
  if folders.isEmpty then tell [.debug Failure.foldersHint]
  let tools ← tools config
  let r ← request
  let order : PreparationOrder :=
    { sketch := sketch
      buildFolder := (r.path? .buildPath <|> config.buildFolder).getD (defaultBuildFolder t sketch)
      configured := folders
      includeDirs := config.includeDirs ++ r.paths .includeDir
      platforms := ps }
  let (result, t, log) := (order.prepare tools).run.run (t, [])
  modify fun screen => { screen with tree := t }
  tell log
  match result with
  | .error f => throw f
  | .ok prepared =>
    if r.has .toOutput then
      modify fun screen => { screen with output := screen.output ++ prepared.source }
    else printLine prepared.output.text

def perform : Running Unit := do
  match (← request).task with
  | .preprocess sketch => preprocess sketch
  | .listLibraries => listLibraries
  | .resolveHeader header => resolveHeader header
  | .prototypes file => prototypes file

end Running

def explain (r : Request) (f : Failure) : String :=
  match f.diagnostic? with
  | none => "error: " ++ f.message ++ "\n"
  | some d =>
    let hint := match f with
      | .compiler .. => if r.has .verbose then "" else Failure.verboseHint ++ "\n"
      | _ => ""
    f.compilerOutput?.getD "" ++ d.format (!r.has .noColour) ++ hint

structure Finished where
  code : Nat
  screen : Screen

def run (args : List String) (environment : Dictionary String) (input : ByteArray) (t : FileTree) :
    Finished :=
  match parse environment.find? args with
  | .error e => ⟨2, t, "", "error: " ++ e.message ++ "\n"⟩
  | .ok r =>
    match (Running.perform.run ⟨r, environment, input⟩).run.run ⟨t, "", ""⟩ with
    | (.ok (), screen) => ⟨0, screen⟩
    | (.error f, screen) => ⟨1, { screen with errors := screen.errors ++ explain r f }⟩

end SketchPrep.CommandLine
