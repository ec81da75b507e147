import SketchPrep.Discovery.Session
import SketchPrep.Library.Files
import SketchPrep.Patch
import SketchPrep.Path.Relative
import SketchPrep.Sketch.Load
import SketchPrep.Tag.Narration
import SketchPrep.Warning

namespace SketchPrep

/-- What prepares a sketch beside this library: a compiler, and a lister of symbols. Both see the files
as they are when they are asked. -/
structure Tools (σ : Type) where
  compiler : FileTree → Preprocessor σ
  listSymbols : FileTree → Path → σ → Except Failure String × σ

def Tools.recording {σ : Type} (tools : Tools σ) : Tools (σ × Record) where
  compiler t := (tools.compiler t).recording
  listSymbols t source := fun (s, record) =>
    let (answer, s) := tools.listSymbols t source s
    (answer, s, record.addListed source)

structure PreparationOrder where
  sketch : Path
  buildFolder : Path
  configured : List Path
  includeDirs : List Path
  platforms : Platforms

structure PreparedSketch where
  source : String
  output : Path
  discovery : Discovery
  prototypes : List Prototype
  insertionLine : Option Nat

/-- Work with tools of state `σ` on a file tree. What is changed before a failure stays changed. -/
abbrev Preparing (σ : Type) := ExceptT Failure (StateM (FileTree × σ))

namespace Preparing

variable {σ : Type}

def tree : Preparing σ FileTree := return (← get).1

def look {α : Type} (f : FileTree → Except Failure α) : Preparing σ α := do
  ExceptT.mk (pure (f (← tree)))

def change (work : FileWork Unit) : Preparing σ Unit :=
  ExceptT.mk fun (t, s) =>
    let (result, t) := work.run t
    (result, t, s)

def ask {α : Type} (question : FileTree → σ → Except Failure α × σ) : Preparing σ α :=
  ExceptT.mk fun (t, s) =>
    let (answer, s) := question t s
    (answer, t, s)

def tell (tools : Tools σ) (es : List LogEvent) : Preparing σ Unit :=
  ask fun t s => (.ok (), (tools.compiler t).noteAll es s)

end Preparing

namespace PreparationOrder

open Preparing

def sketchFolder (o : PreparationOrder) : Path := o.buildFolder / "sketch"

def listedFile (o : PreparationOrder) : Path :=
  o.buildFolder / "preproc" / "ctags_target_for_gcc_minus_e.cpp"

def copyOf (o : PreparationOrder) (sketch : Sketch) (file : SketchFile) : Path :=
  o.sketchFolder.join (file.path.relativeTo sketch.folder)

variable {σ : Type}

def copyAdditional (o : PreparationOrder) (sketch : Sketch) : List SketchFile → Preparing σ (List Path)
  | [] => return []
  | file :: files => do
    let copy := o.copyOf sketch file
    change (FileWork.copy file.path copy)
    let rest ← copyAdditional o sketch files
    return if isSourceFile copy then copy :: rest else rest

def discoverLibraries (o : PreparationOrder) (tools : Tools σ) (sources : List Path) :
    Preparing σ Discovery := do
  let folders := libraryFolders (← tree) o.configured o.platforms
  tell tools (Catalog.events (← tree) folders)
  let catalog ← look (Catalog.load · folders)
  let index ← look catalog.headerIndex
  tell tools
    [.debug (toString catalog.libraries.length ++ " libraries in " ++ toString folders.length ++
      " folders, " ++ toString index.headers.length ++ " headers")]
  let found ← ask fun t => discover ⟨t, index, o.platforms⟩ (tools.compiler t) o.includeDirs sources
  tell tools (found.imports.report o.platforms)
  return found

def findPrototypes (o : PreparationOrder) (tools : Tools σ) (sketch : Sketch) (output : Path)
    (includeDirs : List Path) : Preparing σ (List Prototype × Option Nat) := do
  let preprocessed ← ask fun t s =>
    let (answer, s) := (tools.compiler t).preprocess output includeDirs s
    (attempting .preprocessingSketch answer, s)
  change (FileWork.save o.listedFile (sketch.filterSource preprocessed))
  let listing ← ask fun t => tools.listSymbols t o.listedFile
  let t ← tree
  let (prototypes, line) := Prototype.ofListing t.textAt? (some sketch.main.path) listing
  tell tools (Tag.eventsOf t listing)
  tell tools
    [.debug (toString prototypes.length ++ " prototypes, insertion line " ++ Failure.codeText line)]
  return (prototypes, line)

def prepare (o : PreparationOrder) (tools : Tools σ) : Preparing σ PreparedSketch := do
  let sketch ← look (Sketch.load · o.sketch)
  tell tools [.debug ("preprocessing sketch " ++ sketch.main.path.text)]
  let merged := sketch.merge
  let output := o.sketchFolder / (sketch.name ++ ".cpp")
  change (FileWork.save output merged.source)
  let copies ← o.copyAdditional sketch sketch.additional
  let found ← o.discoverLibraries tools (output :: copies)
  let (prototypes, line) ← o.findPrototypes tools sketch output found.includeDirs
  let source := patchSource merged.source prototypes line merged.lineOffset
  tell tools (missedLine merged.source prototypes line merged.lineOffset)
  change (FileWork.save output source)
  return ⟨source, output, found, prototypes, line⟩

end PreparationOrder

def defaultBuildFolder (t : FileTree) (sketch : Path) : Path :=
  (if t.isFolder sketch then sketch else sketch.parent?.getD ⟨""⟩) / "build"

end SketchPrep
