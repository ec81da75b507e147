import SketchPrep.Discovery.Preprocessor
import SketchPrep.Text.Search

namespace SketchPrep

namespace IncludeScan

def cannotRead (file : Path) : Failure := .told ("fake: cannot read " ++ file.text)

def readFile (t : FileTree) (file : Path) : Except Failure String :=
  (t.readText file).mapError fun _ => cannotRead file

def between (opening closing : String) (line : List Char) : Option String := do
  let rest ← opening.toList.isPrefixOf? line
  let (name, _) ← Text.cut closing.toList rest
  return String.ofList name

def includeName (line : List Char) : Option String :=
  between "#include <" ">" line <|> between "#include \"" "\"" line

def findHeader (t : FileTree) (folders : List Path) (name : String) : Option Path :=
  (folders.map (· / name)).find? t.isFile

def findHeaders (t : FileTree) (folders : List Path) : List String → Except String (List Path)
  | [] => .ok []
  | name :: names =>
    match findHeader t folders name with
    | none => .error name
    | some file => (findHeaders t folders names).map (file :: ·)

/-- Goes through the files on the stack, depth first, up to the first header that is missing. -/
def scan (t : FileTree) (dirs : List Path) :
    Nat → (visited stack : List Path) → Except Failure (Option String)
  | 0, _, _ => .ok none
  | _, _, [] => .ok none
  | n + 1, visited, file :: stack =>
    let place := t.normalize file
    if hasPath visited place then scan t dirs n visited stack
    else do
      let text ← readFile t file
      let names := (text.toList.splitOn '\n').filterMap includeName
      match findHeaders t (file.parent?.toList ++ dirs) names with
      | .error name => .ok (some name)
      | .ok files => scan t dirs n (place :: visited) (files ++ stack)

def scanBound (t : FileTree) : Nat :=
  t.entries.foldl (fun n (_, entry) => match entry with
    | .file content _ => n + content.size + 2
    | _ => n + 1) 1

def firstMissing (t : FileTree) (source : Path) (dirs : List Path) : Except Failure (Option String) :=
  scan t dirs (scanBound t) [] [source]

/-- Prepared answers. Those to discovery are taken one by one for each source. -/
structure Plan where
  diagnose : Option (Except Failure String)
  preprocessed : Option (Except Failure String)

abbrev Script := List (String × List (Except Failure Outcome))

def discover (t : FileTree) (source : Path) (dirs : List Path) (script : Script) :
    Except Failure Outcome × Script :=
  match script.lookup source.text with
  | some (answer :: rest) =>
    (answer, script.map fun (name, answers) =>
      if name == source.text then (name, rest) else (name, answers))
  | some [] => (.ok .clean, script)
  | none =>
    ((firstMissing t source dirs).map fun
      | some header => .missing header
      | none => .clean, script)

def complaint (t : FileTree) (source : Path) (dirs : List Path) : Except Failure String := do
  match ← firstMissing t source dirs with
  | some header =>
    return source.text ++ ": fatal error: " ++ header ++ ": No such file or directory\n"
  | none => return ""

def marked (t : FileTree) (source : Path) : Except Failure String := do
  return "# 1 \"" ++ source.text ++ "\"\n" ++ (← readFile t source)

def preprocessor (t : FileTree) (plan : Plan) : Preprocessor Script where
  discover := discover t
  diagnose source dirs script := (plan.diagnose.getD (complaint t source dirs), script)
  preprocess source _ script := (plan.preprocessed.getD (marked t source), script)
  note _ script := script

end IncludeScan

end SketchPrep
