import SketchPrep.Discovery.Preprocessor
import SketchPrep.Toolchain.MissingHeader
import SketchPrep.Toolchain.System

namespace SketchPrep

def Outcome.ofErrors (errors : String) : Outcome :=
  match MissingHeader.find? errors with
  | some header => .missing header
  | none => .failed errors

structure Compiler where
  program : Path
  flags : List String
deriving DecidableEq, Inhabited

namespace Compiler

/-- The flag that asks for a list of dependencies, which preprocessing must not leave behind. -/
def dependencyFlag : String := "-MMD"

def of (program : Path) (flags : List String) : Compiler := ⟨program, flags.filter (· != dependencyFlag)⟩

/-- Messages are asked for in no other language than that of the patterns for missing headers. -/
def command (c : Compiler) (source : Path) (includeDirs : List Path) (quiet : Bool) : Command where
  program := c.program
  arguments :=
    c.flags ++ ["-E", "-CC", "-x", "c++"] ++ (if quiet then ["-w"] else []) ++
      includeDirs.map (fun dir => "-I" ++ dir.text) ++ [source.text]
  environment := [("LC_ALL", "C")]

def unusedOutput : String := "/tmp/.tmpAAAAAA"

def silentCommand (c : Compiler) (source : Path) (includeDirs : List Path) (quiet : Bool) : Command :=
  let command := c.command source includeDirs quiet
  { command with arguments := command.arguments ++ ["-o", unusedOutput] }

def discover (sys : System) (c : Compiler) (source : Path) (includeDirs : List Path) :
    Except Failure Outcome := do
  let completed ← sys.run (c.silentCommand source includeDirs true)
  if completed.code = some 0 then return .clean else return .ofErrors completed.errors.text

def diagnose (sys : System) (c : Compiler) (source : Path) (includeDirs : List Path) :
    Except Failure String := do
  return (← sys.run (c.silentCommand source includeDirs false)).errors.text

def preprocess (sys : System) (c : Compiler) (source : Path) (includeDirs : List Path) :
    Except Failure String := do
  return (← sys.runChecked (c.command source includeDirs true)).output.text

def preprocessor (sys : System) (c : Compiler) : Preprocessor (List LogEvent) where
  discover source dirs log :=
    (c.discover sys source dirs, log ++ [.debug (c.silentCommand source dirs true).text])
  diagnose source dirs log := (c.diagnose sys source dirs, log)
  preprocess source dirs log :=
    (c.preprocess sys source dirs, log ++ [.debug (c.command source dirs true).text])
  note e log := log ++ [e]

end Compiler

end SketchPrep
