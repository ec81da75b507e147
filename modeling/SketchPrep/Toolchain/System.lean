import SketchPrep.Failure
import SketchPrep.Script.Run

namespace SketchPrep

structure System where
  tree : FileTree
  environment : Dictionary String

namespace System

def searchFolders (sys : System) : List Path :=
  match sys.environment.find? "PATH" with
  | some text => (text.toList.splitOn ':').map fun folder => ⟨String.ofList folder⟩
  | none => []

def home? (sys : System) : Option Path :=
  (sys.environment.find? "HOME").bind fun text => if text.isEmpty then none else some ⟨text⟩

def expandTilde (sys : System) (p : Path) : Path :=
  match p.afterName? "~", sys.home? with
  | some rest, some home => home.join rest
  | _, _ => p

/-- A folder to look in for programs, below the home folder if it begins with a tilde. Its fillers are
left out then. -/
def searchFolder (sys : System) (p : Path) : Path :=
  match p.components, sys.home? with
  | .name "~" :: rest, some home => home.join (.ofComponents rest)
  | _, _ => p

def absolute (sys : System) (p : Path) : Path :=
  if p.isAbsolute then p
  else sys.tree.here.path.join (.ofComponents (p.components.dropWhile (· = .here)))

def findProgram (sys : System) (name : String) : Option Path :=
  let p : Path := ⟨name⟩
  if name.isEmpty then none
  else if p.components.length > 1 then
    let p := sys.absolute p
    if sys.tree.isRunnable p then some p else none
  else
    (sys.searchFolders.map fun folder =>
      sys.absolute ((sys.searchFolder folder).join p)).find? sys.tree.isRunnable

def findTool (sys : System) (variableName : String) (names : List String) : Option Path :=
  ((sys.environment.find? variableName).bind sys.findProgram) <|> names.findSome? sys.findProgram

def findCompiler (sys : System) : Option Path := sys.findTool "CXX" ["g++", "c++", "clang++"]

def findSymbolLister (sys : System) : Option Path :=
  sys.findTool "CTAGS" ["ctags", "universal-ctags", "exuberant-ctags"]

def scriptAt (sys : System) (p : Path) : Except TreeError Script.Bytes := do
  match ← sys.tree.entry? p with
  | (_, .file content true) =>
    let script : Script.Bytes := content.toList.map fun b => Char.ofNat b.toNat
    if ['#', '!'].isPrefixOf script then return script else throw .notFormat
  | _ => throw .denied

/-- The first script of the list. Files that may not be run only matter if there is none. -/
def firstScript (sys : System) (denied : Bool) : List Path → Except TreeError (Path × Script.Bytes)
  | [] => .error (if denied then .denied else .missing)
  | p :: ps =>
    match sys.scriptAt p with
    | .ok script => .ok (p, script)
    | .error .denied => sys.firstScript true ps
    | .error .missing | .error .notFolder => sys.firstScript denied ps
    | .error e => .error e

def scriptOf (sys : System) (program : Path) : Except TreeError (Path × Script.Bytes) :=
  if program.text.isEmpty then .error .missing
  else if program.text.toList.contains '/' then (sys.scriptAt program).map fun script => (program, script)
  else sys.firstScript false (sys.searchFolders.map (·.join program))

def runWithin (sys : System) : (depth : Nat) → Command → Except TreeError Completed
  | 0, _ => .error .missing
  | depth + 1, c => do
    if c.hasNul then throw .nulInCommand
    let environment := c.environment.foldl (fun e (k, v) => e.insert k v) sys.environment
    let (path, script) ← { sys with environment := environment }.scriptOf c.program
    return Script.run ⟨sys.tree, sys.runWithin depth⟩ path.text script c.arguments environment

def depthLimit : Nat := 100

def run (sys : System) (c : Command) : Except Failure Completed :=
  attempting (.running c.program) (ofTree (sys.runWithin depthLimit c))

def runChecked (sys : System) (c : Command) : Except Failure Completed := do
  let completed ← sys.run c
  if completed.code = some 0 then return completed
  else throw (.toolFailed c.text completed.code completed.errors.text)

end System

end SketchPrep
