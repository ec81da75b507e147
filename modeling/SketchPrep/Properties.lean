import SketchPrep.Dictionary
import SketchPrep.Text.Blank
import SketchPrep.Text.Lines
import SketchPrep.Text.Search

namespace SketchPrep

abbrev Properties := Dictionary String

structure BadLine where
  number : Nat
  line : String
deriving DecidableEq, Inhabited

def BadLine.message (b : BadLine) : String :=
  "invalid line " ++ toString b.number ++ ": expected `key=value`, found `" ++ b.line ++ "`"

namespace Properties

def byteOrderMark : Char := '\ufeff'

def property? (line : List Char) : Option (String × String) :=
  (Text.cut ['='] line).map fun (key, value) =>
    (String.ofList (Text.trim key), String.ofList (Text.trim value))

def saysNothing (line : List Char) : Bool := line.isEmpty || line.head? == some '#'

/-- Reads lines from number `n` on. A key that comes again takes the later value. -/
def addLines (n : Nat) (ps : Properties) : List (List Char) → Except BadLine Properties
  | [] => .ok ps
  | raw :: rest =>
    let line := Text.trim raw
    if saysNothing line then addLines (n + 1) ps rest
    else match property? line with
      | some (key, value) => addLines (n + 1) (ps.insert key value) rest
      | none => .error ⟨n, String.ofList line⟩

def withoutMark (text : List Char) : List Char :=
  if text.head? = some byteOrderMark then text.tail else text

def parse (text : String) : Except BadLine Properties :=
  addLines 1 .empty (Text.lines (withoutMark text.toList))

def value? (ps : Properties) (key : String) : Option String := (ps.find? key).filter (!·.isEmpty)

def valueOr (ps : Properties) (key default : String) : String := (ps.value? key).getD default

def has (ps : Properties) (key : String) : Bool := (ps.value? key).isSome

end Properties

end SketchPrep
