import SketchPrep.Tag.Basic
import SketchPrep.Text.Blank
import SketchPrep.Text.Lines
import SketchPrep.Text.Search

namespace SketchPrep.CLinkage

def mark : List Char := "extern\"C\"".toList

structure Reader where
  inRegion : Bool
  depth : Int

def start : Reader := ⟨false, 0⟩

def enters (r : Reader) (line : List Char) : Bool := r.inRegion || Text.occurs mark line

def balance (line : List Char) : Int := (line.count '{' : Int) - line.count '}'

def next (r : Reader) (line : List Char) : Reader where
  inRegion := enters r line && !(r.depth + balance line == 0 && line != mark)
  depth := r.depth + balance line

def regionLines (r : Reader) (n : Nat) : List (List Char) → List Nat
  | [] => []
  | raw :: rest =>
    let line := Text.stripBlanks raw
    if line.isEmpty then regionLines r (n + 1) rest
    else (if enters r line then [n] else []) ++ regionLines (next r line) (n + 1) rest

def linesOf (text : String) : List Nat := regionLines start 1 (Text.lines text.toList)

/-- The lines with C linkage in each file that tags name. A file that cannot be read has none. -/
def regions (source : String → Option String) (tags : List Tag) : List (String × List Nat) :=
  (tags.map (·.file)).eraseDups.map fun file => (file, ((source file).map linesOf).getD [])

end SketchPrep.CLinkage
