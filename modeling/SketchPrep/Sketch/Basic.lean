import SketchPrep.LineMarker
import SketchPrep.Text.Lines
import SketchPrep.Text.Search

namespace SketchPrep

structure SketchFile where
  path : Path
  source : String
deriving DecidableEq, Inhabited

structure Sketch where
  folder : Path
  main : SketchFile
  others : List SketchFile
  additional : List SketchFile

/-- The sketch as one source. The first line of the main file has `lineOffset` lines before it. -/
structure MergedSource where
  source : String
  lineOffset : Nat
deriving DecidableEq, Inhabited

def afterWord? (word : String) (s : List Char) : Option (List Char) :=
  word.toList.isPrefixOf? (Text.trimStart s)

def beginsWithCoreInclude (s : List Char) : Bool :=
  match (afterWord? "#" s).bind (afterWord? "include") with
  | none => false
  | some rest =>
    match Text.trimStart rest with
    | opening :: rest =>
      (opening == '<' || opening == '\x22') &&
        match "Arduino.h".toList.isPrefixOf? rest with
        | some (closing :: _) => closing == '>' || closing == '\x22'
        | _ => false
    | [] => false

def fromLineStarts : List Char → List (List Char)
  | [] => []
  | c :: s => if c = '\n' then s :: fromLineStarts s else fromLineStarts s

def includesCore (source : String) : Bool :=
  (source.toList :: fromLineStarts source.toList).any beginsWithCoreInclude

def coreInclude : String := "#include <Arduino.h>\n"

namespace Sketch

def name (s : Sketch) : String := s.main.path.fileName

def mergedFiles (s : Sketch) : List SketchFile := s.main :: s.others

def SketchFile.marked (f : SketchFile) : String :=
  LineMarker.directive 1 f.path ++ "\n" ++ f.source ++ "\n"

/-- All merged files in one, after the core's header unless the main file includes it. -/
def merge (s : Sketch) : MergedSource :=
  let core := includesCore s.main.source
  { source := (if core then "" else coreInclude) ++ String.join (s.mergedFiles.map SketchFile.marked)
    lineOffset := if core then 1 else 2 }

def linesOfFiles (files : List String) (inside : Bool) : List (List Char) → List (List Char)
  | [] => []
  | line :: rest =>
    let inside := match LineMarker.nameOf? line with
      | some file => files.contains (String.ofList file)
      | none => inside
    if inside then line :: linesOfFiles files inside rest else linesOfFiles files inside rest

/-- The preprocessed lines that come from merged files, by the markers above them. -/
def filterSource (s : Sketch) (preprocessed : String) : String :=
  let files := s.mergedFiles.map (·.path.text)
  String.ofList ((linesOfFiles files false (Text.lines preprocessed.toList)).flatMap (· ++ ['\n']))

end Sketch

end SketchPrep
