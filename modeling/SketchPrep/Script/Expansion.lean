import SketchPrep.Dictionary
import SketchPrep.Pattern
import SketchPrep.Script.Basic

namespace SketchPrep.Script

structure Bindings where
  script : Bytes
  arguments : List Bytes
  values : Dictionary Bytes
  status : Nat

namespace Bindings

def decimal (n : Nat) : Bytes := (toString n).toList

def process : Bytes := decimal 4096

def joined (b : Bindings) : Bytes := [' '].intercalate b.arguments

def find? (b : Bindings) (name : String) : Option Bytes :=
  match name.toList with
  | ['#'] => some (decimal b.arguments.length)
  | ['*'] | ['@'] => some b.joined
  | ['?'] => some (decimal b.status)
  | ['$'] => some process
  | [c] =>
    if c = '0' then some b.script
    else if c.isDigit then b.arguments[c.toNat - '1'.toNat]?
    else b.values.find? name
  | _ => b.values.find? name

def valueOf (b : Bindings) (name : String) (otherwise : Option Bytes) : Bytes :=
  match (b.find? name).getD [], otherwise with
  | [], some text => text
  | text, _ => text

end Bindings

structure Fields where
  finished : List Bytes
  current : Option Bytes

namespace Fields

def none : Fields := ⟨[], .none⟩

def add (f : Fields) (s : Bytes) : Fields := { f with current := some (f.current.getD [] ++ s) }

def close (f : Fields) : Fields :=
  match f.current with
  | .none => f
  | some s => ⟨s :: f.finished, .none⟩

def toList (f : Fields) : List Bytes := f.close.finished.reverse

def isSeparator (c : Char) : Bool := c == ' ' || c == '\t' || c == '\n'

def addSplit (f : Fields) : Bytes → Fields
  | [] => f
  | c :: s => if isSeparator c then f.close.addSplit s else (f.add [c]).addSplit s

/-- Texts that stay apart, but for the first and the last, which join what is around them. -/
def addApart (f : Fields) : List Bytes → Fields
  | [] => f
  | [s] => f.add s
  | s :: rest => ((f.add s).close).addApart rest

def addPiece (b : Bindings) (f : Fields) : Piece → Fields
  | .char _ c => f.add [c]
  | .quotes => f.add []
  | .value false name otherwise => f.addSplit (b.valueOf name otherwise)
  | .value true "@" _ => f.addApart b.arguments
  | .value true name otherwise => f.add (b.valueOf name otherwise)
  | .command .. => f
  | .result false text => f.addSplit text
  | .result true text => f.add text

end Fields

namespace Word

def isArguments (w : Word) : Bool :=
  w.contains (.value true "@" none) && w.all fun p => p == .quotes || p == .value true "@" none

def fields (b : Bindings) (w : Word) : List Bytes :=
  if w.isArguments && b.arguments.isEmpty then []
  else (w.foldl (Fields.addPiece b) .none).toList

def text (b : Bindings) (w : Word) : Bytes :=
  w.flatMap fun
    | .char _ c => [c]
    | .quotes => []
    | .value _ name otherwise => b.valueOf name otherwise
    | .command .. => []
    | .result _ text => text

def marked (b : Bindings) (w : Word) : List (Bool × Char) :=
  w.flatMap fun
    | .char quoted c => [(quoted, c)]
    | .quotes => []
    | .value quoted name otherwise => (b.valueOf name otherwise).map (quoted, ·)
    | .command .. => []
    | .result quoted text => text.map (quoted, ·)

/-- A pattern for whole texts. An opening bracket without a closing one stands for itself. At most `n`
steps are taken. -/
def patternOf : Nat → List (Bool × Char) → Pattern
  | 0, _ => []
  | _, [] => []
  | n + 1, (quoted, c) :: rest =>
    if quoted then .char c :: patternOf n rest
    else if c = '*' then .anyText :: patternOf n rest
    else if c = '?' then .anyChar :: patternOf n rest
    else if c = '[' then
      match Pattern.set? (rest.map (·.2)) with
      | some (token, after) => token :: patternOf n (rest.drop (rest.length - after.length))
      | none => .char c :: patternOf n rest
    else .char c :: patternOf n rest

def pattern (b : Bindings) (w : Word) : Pattern :=
  let chars := w.marked b
  patternOf chars.length chars

end Word

end SketchPrep.Script
