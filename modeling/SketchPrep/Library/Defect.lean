import SketchPrep.Diagnostic

namespace SketchPrep

inductive LibraryDefect where
  | missingProperty (name : String)
  | sourceAndUtility
  | archFolder
deriving DecidableEq, Inhabited

def propertiesFile : String := "library.properties"

def LibraryDefect.text : LibraryDefect → String
  | .missingProperty name => "missing required property `" ++ name ++ "` in " ++ propertiesFile
  | .sourceAndUtility => "library can't use both `src` and `utility` folders"
  | .archFolder => "`arch` folder is not supported"

structure MalformedLibrary where
  name : String
  folder : Path
  defect : LibraryDefect
deriving DecidableEq, Inhabited

namespace MalformedLibrary

def message (m : MalformedLibrary) : String :=
  "library `" ++ m.name ++ "` at " ++ m.folder.text ++ " is malformed: " ++ m.defect.text

def remedy (m : MalformedLibrary) : String :=
  match m.defect with
  | .missingProperty name => "Add `" ++ name ++ "=...` to " ++ (m.folder / propertiesFile).text
  | .sourceAndUtility => "Move the contents of `utility/` into `src/`"
  | .archFolder => "Use the `architectures` property instead of an `arch/` folder"

def diagnostic (m : MalformedLibrary) : Diagnostic where
  severity := .error
  message := "library `" ++ m.name ++ "` is malformed"
  context := [m.defect.text]
  suggestions := [m.remedy]
  location := some m.folder

end MalformedLibrary

end SketchPrep
