import SketchPrep.Text.Blank
import SketchPrep.Text.Digits
import SketchPrep.Text.Search

namespace SketchPrep.MissingHeader

def continues (phrase : String) (s : List Char) : Bool :=
  phrase.toList.isPrefixOf (Text.trimStart s)

/-- The shortest part of `run`, after at least the characters of `taken`, that a colon and the
words for an absent file follow. -/
def upToColon (taken : List Char) : List Char → Option (List Char)
  | [] => none
  | c :: s =>
    if c = ':' && !taken.isEmpty && continues "No such file or directory" s then some taken.reverse
    else if Text.isBlank c then none
    else upToColon (c :: taken) s

/-- The name before the colon in `NAME: No such file or directory`. -/
def plainName (s : List Char) : Option (List Char) := upToColon [] (Text.trimStart s)

/-- The name between single quotes in `'NAME' file not found`. -/
def quotedName (s : List Char) : Option (List Char) :=
  match Text.trimStart s with
  | '\x27' :: rest =>
    match Text.cut ['\x27'] rest with
    | some (name, after) =>
      if !name.isEmpty && continues "file not found" after then some name else none
    | none => none
  | _ => none

def errorMark : List Char := "fatal error:".toList

def afterMark (reading : List Char → Option (List Char)) : List Char → Option (List Char)
  | [] => none
  | c :: s =>
    match (errorMark.isPrefixOf? (c :: s)).bind reading with
    | some name => some name
    | none => afterMark reading s

def upToClosing (run : List Char) : Option (List Char) :=
  match run with
  | [] => none
  | first :: rest =>
    match rest.reverse.dropWhile fun c => c != '\x22' && c != '>' with
    | [] => none
    | _ :: before => some (first :: before.reverse)

def shownInclude (s : List Char) : Option (List Char) := do
  let s := Text.trimStart s
  let s := Text.trimStart (s.dropWhile Text.isDecimal)
  let s := Text.trimStart (if s.head? = some '|' then s.tail else s)
  let s ← ['#'].isPrefixOf? s
  let s ← "include".toList.isPrefixOf? (s.dropWhile fun c => c == ' ' || c == '\t')
  match Text.trimStart s with
  | opening :: s =>
    if opening = '<' || opening = '\x22' then upToClosing (s.takeWhile (!Text.isBlank ·)) else none
  | [] => none

def firstShown : List Char → Option (List Char)
  | [] => none
  | c :: s => if c = '\n' then shownInclude s <|> firstShown s else firstShown s

def find? (output : String) : Option String :=
  let s := output.toList
  let name := afterMark plainName s <|> afterMark quotedName s <|>
    (if Text.occurs "fatal error".toList s then shownInclude s <|> firstShown s else none)
  name.map fun name => String.ofList (Text.trim name)

end SketchPrep.MissingHeader
