import SketchPrep.Log
import SketchPrep.Prototype

namespace SketchPrep

def insertBeforeLine (block : List Char) (n : Nat) (text : List Char) : Option (List Char) :=
  let pieces := text.splitOn '\n'
  if n = 0 ∨ pieces.length < n then none
  else
    some ((pieces.take (n - 1)).flatMap (· ++ ['\n']) ++ block ++
      ['\n'].intercalate (pieces.drop (n - 1)))

/-- The declarations, and a directive that gives the next line its number back. -/
def declarationBlock (prototypes : List Prototype) (line : Nat) : String :=
  "\n".intercalate (prototypes.map (·.declaration)) ++ "\n#line " ++ toString line ++ "\n"

/-- The source with the prototypes before line `line` of its main file, whose first line has `offset`
lines before it. A line that does not exist, or no line, leaves the source as it is. -/
def patchSource (source : String) (prototypes : List Prototype) (line : Option Nat) (offset : Nat) :
    String :=
  match line with
  | none => source
  | some line =>
    if prototypes.isEmpty then source
    else
      let block := (declarationBlock prototypes line).toList
      match insertBeforeLine block (line + offset) source.toList with
      | some patched => String.ofList patched
      | none => source

def missedLine (source : String) (prototypes : List Prototype) (line : Option Nat) (offset : Nat) :
    List LogEvent :=
  match line with
  | none => []
  | some line =>
    if prototypes.isEmpty || (insertBeforeLine [] (line + offset) source.toList).isSome then []
    else
      [.debug ("insertion line " ++ toString (line + offset) ++ " is outside the source, not patching")]

end SketchPrep
