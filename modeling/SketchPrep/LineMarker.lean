import SketchPrep.Path.Basic
import SketchPrep.Text.Blank
import SketchPrep.Text.Digits
import SketchPrep.Text.Quoted

namespace SketchPrep.LineMarker

def directive (line : Nat) (path : Path) : String :=
  "#line " ++ toString line ++ " \"" ++ String.ofList (Text.escape path.text.toList) ++ "\""

/-- A quoted text without its opening quote: what is inside, as written, and what follows. A
backslash takes the next character with it, but not the end of the line. -/
def quoted? : List Char → Option (List Char × List Char)
  | [] => none
  | '\x22' :: rest => some ([], rest)
  | ['\\'] => none
  | '\\' :: c :: rest =>
    if c = '\n' then none
    else (quoted? rest).map fun (inside, after) => ('\\' :: c :: inside, after)
  | c :: rest => (quoted? rest).map fun (inside, after) => (c :: inside, after)

def afterBlanks? : List Char → Option (List Char)
  | c :: rest => if Text.isBlank c then some (Text.trimStart rest) else none
  | [] => none

def endsLine : List Char → Bool
  | [] => true
  | c :: rest => Text.isBlank c && !rest.contains '\n'

def afterLineWord (s : List Char) : List Char :=
  (("line".toList.isPrefixOf? s).bind afterBlanks?).getD s

/-- The name in a marker: a hash, perhaps the word `line`, a number and the quoted name. -/
def nameOf? : List Char → Option (List Char)
  | '#' :: rest => do
    let rest := afterLineWord (Text.trimStart rest)
    let digits := rest.takeWhile Text.isDecimal
    if digits.isEmpty then none
    let rest ← afterBlanks? (rest.drop digits.length)
    match rest with
    | '\x22' :: rest =>
      let (inside, after) ← quoted? rest
      if endsLine after then some (Text.unescape inside) else none
    | _ => none
  | _ => none

def parse? (line : String) : Option String := (nameOf? line.toList).map String.ofList

end SketchPrep.LineMarker
