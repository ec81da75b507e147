import SketchPrep.Script.Basic

namespace SketchPrep.Script

def octalDigits (most : Nat) (s : Bytes) : Bytes :=
  (s.take most).takeWhile fun c => '0' ≤ c && c ≤ '7'

def octalValue (digits : Bytes) : Nat := digits.foldl (fun n c => n * 8 + (c.toNat - '0'.toNat)) 0

def letterEscapes : List (Char × Char) :=
  [('a', '\x07'), ('b', '\x08'), ('f', '\x0c'), ('n', '\n'), ('r', '\r'), ('t', '\t'),
    ('v', '\x0b'), ('\\', '\\')]

/-- The character for which a text after a backslash stands, and what follows it. An octal number is
a byte; of digits it has at most three, besides the zero that `leading` allows in front. -/
def escape (leading : Bool) : Bytes → Bytes × Bytes
  | [] => (['\\'], [])
  | c :: s =>
    let digits := if leading && c = '0' then octalDigits 3 s else octalDigits 3 (c :: s)
    if leading && c = '0' then ([Char.ofNat (octalValue digits % 256)], s.drop digits.length)
    else if !digits.isEmpty then ([Char.ofNat (octalValue digits % 256)], (c :: s).drop digits.length)
    else match letterEscapes.lookup c with
      | some d => ([d], s)
      | none => (['\\', c], s)

/-- A text with its escapes replaced, and whether it goes on: the escape `\c` ends all printing. -/
def unescaped : Nat → Bytes → Bytes × Bool
  | 0, _ => ([], true)
  | _, [] => ([], true)
  | _ + 1, '\\' :: 'c' :: _ => ([], false)
  | n + 1, '\\' :: s =>
    let (chars, rest) := escape true s
    let (more, goesOn) := unescaped n rest
    (chars ++ more, goesOn)
  | n + 1, c :: s =>
    let (more, goesOn) := unescaped n s
    (c :: more, goesOn)

def echo : List Bytes → Bytes
  | ['-', 'n'] :: words => (line words).1
  | words =>
    let (text, goesOn) := line words
    if goesOn then text ++ ['\n'] else text
where
  line (words : List Bytes) : Bytes × Bool :=
    let s := [' '].intercalate words
    unescaped s.length s

def number? (s : Bytes) : Option Int :=
  match s with
  | '-' :: digits => (String.ofList digits).toNat?.map fun n => -(n : Int)
  | '+' :: digits => (String.ofList digits).toNat?.map Int.ofNat
  | digits => (String.ofList digits).toNat?.map Int.ofNat

def converted (letter : Char) (argument : Bytes) : Bytes :=
  if letter = 'd' ∨ letter = 'i' ∨ letter = 'u' then
    (toString ((number? argument).getD 0)).toList
  else if letter = 'c' then argument.take 1
  else if letter = 'b' then (unescaped argument.length argument).1
  else argument

def fillIn : Nat → Bytes → List Bytes → Bytes × List Bytes
  | 0, _, arguments => ([], arguments)
  | _, [], arguments => ([], arguments)
  | n + 1, '%' :: '%' :: s, arguments =>
    let (text, rest) := fillIn n s arguments
    ('%' :: text, rest)
  | n + 1, '%' :: letter :: s, arguments =>
    let (text, rest) := fillIn n s arguments.tail
    (converted letter (arguments.head?.getD []) ++ text, rest)
  | n + 1, '\\' :: s, arguments =>
    let (chars, after) := match s with
      | '\x22' :: s => (['\x22'], s)
      | '\x27' :: s => (['\x27'], s)
      | s => escape false s
    let (text, rest) := fillIn n after arguments
    (chars ++ text, rest)
  | n + 1, c :: s, arguments =>
    let (text, rest) := fillIn n s arguments
    (c :: text, rest)

/-- A format is used again as long as it takes arguments and some are left. -/
def printf (format : Bytes) : Nat → List Bytes → Bytes
  | 0, _ => []
  | n + 1, arguments =>
    let (text, rest) := fillIn format.length format arguments
    if rest.isEmpty || rest.length = arguments.length then text else text ++ printf format n rest

/-- A line, whether it had an end, and what follows it. Unless the line is taken as it is, a
backslash protects the next character, and with a line feed it is nothing. -/
def takeLine (asIs : Bool) : Nat → Bytes → Bytes × Bool × Bytes
  | 0, s => ([], false, s)
  | _, [] => ([], false, [])
  | n + 1, c :: s =>
    if c = '\n' then ([], true, s)
    else if c = '\\' && !asIs then
      match s with
      | '\n' :: s => takeLine asIs n s
      | d :: s =>
        let (line, rest) := takeLine asIs n s
        (d :: line, rest)
      | [] => ([], false, [])
    else
      let (line, rest) := takeLine asIs n s
      (c :: line, rest)

def splitLine (separators : Bytes) : Nat → Bytes → List Bytes
  | 0, _ => []
  | 1, s =>
    let s := s.dropWhile separators.contains
    [(s.reverse.dropWhile separators.contains).reverse]
  | n + 1, s =>
    let s := s.dropWhile separators.contains
    let first := s.takeWhile (!separators.contains ·)
    first :: splitLine separators n (s.drop first.length)

def compareNumbers (relation : String) (a b : Int) : Option Bool :=
  match relation with
  | "-eq" => some (a == b)
  | "-ne" => some (a != b)
  | "-lt" => some (a < b)
  | "-le" => some (a ≤ b)
  | "-gt" => some (a > b)
  | "-ge" => some (a ≥ b)
  | _ => none

end SketchPrep.Script
