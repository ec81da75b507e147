import SketchPrep.Imports
import SketchPrep.Log
import SketchPrep.Platform

namespace SketchPrep

inductive Warning where
  | manyProviders (header : String) (used : Path) (notUsed : List Path)
  | otherArchitecture (library architectures target : String)
deriving DecidableEq, Inhabited

namespace Warning

def text : Warning → String
  | .manyProviders header _ _ => "multiple libraries were found for `" ++ header ++ "`"
  | .otherArchitecture library architectures target =>
    "library `" ++ library ++ "` claims to run on " ++ architectures ++
      " architecture(s) and may be incompatible with your current board which runs on " ++ target ++
      " architecture(s)"

def code : Warning → String
  | .manyProviders .. => "sketchport::resolve::multiple_libraries"
  | .otherArchitecture .. => "sketchport::resolve::architecture"

def help? : Warning → Option String
  | .manyProviders .. => some "Remove the libraries you do not want, or rename their folders"
  | .otherArchitecture .. => none

def report : Warning → String
  | w@(.manyProviders _ used notUsed) =>
    w.text ++ "\n  Used: " ++ used.text ++
      String.join (notUsed.map fun folder => "\n  Not used: " ++ folder.text)
  | w => w.text

end Warning

namespace Imports

def usedLine (l : Library) : String :=
  if l.legacy then "Using library " ++ l.name ++ " in folder: " ++ l.folder.text ++ " (legacy)"
  else "Using library " ++ l.name ++ " at version " ++ l.version ++ " in folder: " ++ l.folder.text

def warnings (i : Imports) (ps : Platforms) : List Warning :=
  (i.resolutions.entries.filterMap fun (header, r) =>
    if r.notUsed.isEmpty then none
    else some (.manyProviders header r.library.folder (r.notUsed.map (·.folder)))) ++
  (i.libraries.filter (!·.architectures.supports ps.target.id)).map fun l =>
    .otherArchitecture l.name l.architectures.text ps.target.id

def report (i : Imports) (ps : Platforms) : List LogEvent :=
  i.libraries.map (fun l => .info (usedLine l)) ++ (i.warnings ps).map fun w => .warn w.report

end Imports

end SketchPrep
