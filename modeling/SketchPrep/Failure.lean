import SketchPrep.FileTree.Change
import SketchPrep.Library.Defect
import SketchPrep.Pattern
import SketchPrep.Properties

namespace SketchPrep

inductive Activity where
  | readingFile (p : Path)
  | writingFile (p : Path)
  | makingFolder (p : Path)
  | copying (source target : Path)
  | searching (pattern : String)
  | readingProperties (p : Path)
  | parsingProperties (p : Path)
  | readingConfig (p : Path)
  | parsingConfig (p : Path)
  | listingLibraries (p : Path)
  | listingHeaders (library : String)
  | listingFolder (p : Path)
  | walkingFolder (p : Path)
  | findingSketch (p : Path)
  | running (program : Path)
  | preprocessingSketch
  | diagnosing (header : String)
  | readingInput
deriving DecidableEq, Inhabited

def Activity.complaint : Activity → String
  | .readingFile p => "failed to read file: " ++ p.text
  | .writingFile p => "failed to write file: " ++ p.text
  | .makingFolder p => "failed to create directory: " ++ p.text
  | .copying source target => "failed to copy " ++ source.text ++ " to " ++ target.text
  | .searching pattern => "invalid glob pattern: " ++ pattern
  | .readingProperties p => "failed to read " ++ p.text
  | .parsingProperties p => "failed to parse " ++ p.text
  | .readingConfig p => "failed to read config file: " ++ p.text
  | .parsingConfig p => "failed to parse config file: " ++ p.text
  | .listingLibraries p => "failed to read libraries folder: " ++ p.text
  | .listingHeaders library => "failed to list headers of `" ++ library ++ "`"
  | .listingFolder p => "failed to read directory: " ++ p.text
  | .walkingFolder p => "failed to read " ++ p.text
  | .findingSketch p => "sketch not found: " ++ p.text
  | .running program => "failed to run `" ++ program.text ++ "`"
  | .preprocessingSketch => "failed to preprocess the sketch for prototype generation"
  | .diagnosing header => "failed to diagnose missing header `" ++ header ++ "`"
  | .readingInput => "failed to read tags from stdin"

inductive Failure where
  | tree (e : TreeError)
  | change (e : ChangeError)
  | notText
  | badLine (b : BadLine)
  | badPattern (e : PatternError)
  | badConfig
  | walk (folder : Path) (e : TreeError)
  | noMainFile (folder : Path) (name : String)
  | unknownExtension (file : Path)
  | noParent (file : Path)
  | malformed (m : MalformedLibrary)
  | unresolved (header : String) (source : Path) (output : String)
  | compiler (source : Path) (output : String)
  | toolFailed (command : String) (code : Option Nat) (errors : String)
  | noSketch (p : Path)
  | noPlatformFolder (p : Path)
  | noPlatform
  | noCompiler
  | noTagLister
  | noProvider (header : String)
  | told (text : String)
  | during (activity : Activity) (cause : Failure)
deriving DecidableEq, Inhabited

namespace Failure

def codeText : Option Nat → String
  | some n => "Some(" ++ toString n ++ ")"
  | none => "None"

def foldersHint : String :=
  "help: Pass `--libraries <DIR>` or set `libraries.folders` in .sketchport/config.toml"

def platformHint : String :=
  "help: Set `platform.core` in .sketchport/config.toml to the installed hardware platform"

def verboseHint : String :=
  "help: Run `sketchport --verbose preprocess` to see every tool invocation"

def message : Failure → String
  | .tree e => e.message
  | .change e => e.message
  | .notText => "stream did not contain valid UTF-8"
  | .badLine b => b.message
  | .badPattern e => e.message
  | .badConfig => "TOML parse error"
  | .walk folder e => "IO error for operation on " ++ folder.text ++ ": " ++ e.message ++ ": " ++ e.message
  | .noMainFile folder name =>
    "no main sketch file found in " ++ folder.text ++ ": expected " ++ name ++ ".ino"
  | .unknownExtension file =>
    "unknown sketch file extension: " ++ file.text ++ " (expected .ino or .pde)"
  | .noParent file => "sketch file has no parent folder: " ++ file.text
  | .malformed m => m.message
  | .unresolved _ _ output => output
  | .compiler _ output => output
  | .toolFailed command code errors =>
    "`" ++ command ++ "` failed with exit code " ++ codeText code ++ "\n" ++ errors
  | .noSketch p => "sketch " ++ p.text ++ " does not exist"
  | .noPlatformFolder p => "platform folder " ++ p.text ++ " does not exist"
  | .noPlatform => "no platform configured\n" ++ platformHint
  | .noCompiler => "no C++ compiler found; install g++ or pass `--cxx <PATH>`"
  | .noTagLister => "no ctags found; install universal-ctags or pass `--ctags <PATH>`"
  | .noProvider header => "no library provides `" ++ header ++ "`"
  | .told text => text
  | .during activity cause => activity.complaint ++ ": " ++ cause.message

def diagnostic? : Failure → Option Diagnostic
  | .unresolved header source _ =>
    some
      { severity := .error
        message := "no library provides `" ++ header ++ "`"
        context := []
        suggestions :=
          ["Install a library that contains `" ++ header ++ "` into one of the libraries folders",
            "Add the folder holding the library with `--libraries <DIR>`"]
        location := some source }
  | .compiler source _ =>
    some { Diagnostic.plain .error "preprocessing failed" with location := some source }
  | .malformed m => some m.diagnostic
  | _ => none

def compilerOutput? : Failure → Option String
  | .unresolved _ _ output => some output
  | .compiler _ output => some output
  | _ => none

end Failure

def attempting {α : Type} (activity : Activity) (result : Except Failure α) : Except Failure α :=
  result.mapError (.during activity)

def ofTree {α : Type} (result : Except TreeError α) : Except Failure α := result.mapError .tree

namespace FileTree

def readText (t : FileTree) (p : Path) : Except Failure String := do
  let content ← ofTree (t.read p)
  match String.fromUTF8? content with
  | some text => .ok text
  | none => .error .notText

def textAt? (t : FileTree) (path : String) : Option String := (t.readText ⟨path⟩).toOption

def isIgnoredName (name : String) : Bool :=
  name.toList.head? == some '.' || ["CVS", "RCS", "SCCS"].contains name

/-- The files in a folder, and in all folders below it if `deep`. Ignored names are left out with
all that they hold. -/
def filesIn (t : FileTree) (folder : Path) (deep : Bool) : Except Failure (List Path) :=
  match t.entry? folder with
  | .ok (location, .folder) =>
    .ok ((t.below (!isIgnoredName ·) location).filterMap fun (way, entry) =>
      match entry with
      | .file .. =>
        if deep || way.length == 1 then some (way.foldl (fun p name => p / name) folder) else none
      | _ => none)
  | .ok _ => .ok []
  | .error e => .error (.during (.walkingFolder folder) (.walk folder e))

end FileTree

end SketchPrep
