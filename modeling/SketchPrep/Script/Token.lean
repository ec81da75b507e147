import SketchPrep.Script.Basic

namespace SketchPrep.Script

inductive Mark where
  | newline
  | semicolon
  | branchEnd
  | both
  | either
  | bar
  | opening
  | closing
deriving DecidableEq, Inhabited

inductive Token where
  | word (line : Nat) (w : Word)
  | redirect (line : Nat) (channel : Channel) (kind : RedirectKind)
  | mark (m : Mark)
deriving DecidableEq, Inhabited

namespace Token

def marks : List (String × Mark) :=
  [(";;", .branchEnd), (";", .semicolon), ("&&", .both), ("||", .either), ("|", .bar),
    ("(", .opening), (")", .closing)]

def redirections : List (String × Channel × RedirectKind) :=
  [("2>&", .errors, .join), ("1>&", .output, .join), (">&", .output, .join),
    ("2>>", .errors, .target), ("2>", .errors, .target), ("1>>", .output, .target),
    ("1>", .output, .target), (">>", .output, .target), (">", .output, .target),
    ("0<", .input, .source), ("<", .input, .source)]

def firstOf? {α : Type} (table : List (String × α)) (s : Bytes) : Option (α × Bytes) :=
  table.findSome? fun (text, a) => (text.toList.isPrefixOf? s).map fun rest => (a, rest)

def operator? (line : Nat) (s : Bytes) : Option (Token × Bytes) :=
  match firstOf? marks s with
  | some (m, rest) => some (.mark m, rest)
  | none => (firstOf? redirections s).map fun ((channel, kind), rest) => (.redirect line channel kind, rest)

def endsWord (c : Char) : Bool := [' ', '\t', '\n', ';', '&', '|', '(', ')', '<', '>'].contains c

def valueName : Bytes → Bytes × Bytes
  | [] => ([], [])
  | c :: s =>
    if c.isDigit || ['#', '*', '@', '?', '$'].contains c then ([c], s)
    else if Word.isNameStart c then (c :: s.takeWhile Word.isNameChar, s.dropWhile Word.isNameChar)
    else ([], c :: s)

/-- The text up to the parenthesis that closes the one before it, and what follows. Parentheses between
quotes do not count. -/
def upToClosing (depth : Nat) (quote : Option Char) : Bytes → Bytes × Bytes
  | [] => ([], [])
  | c :: s =>
    if quote.isNone && c = ')' && depth = 0 then ([], s)
    else
      let quote' := match quote with
        | some q => if c = q then none else some q
        | none => if c = '\x22' ∨ c = '\x27' then some c else none
      let depth' :=
        if quote.isSome then depth
        else if c = '(' then depth + 1
        else if c = ')' then depth - 1
        else depth
      let (inside, rest) := upToClosing depth' quote' s
      (c :: inside, rest)

/-- A value, after its dollar sign. In braces it may have another text in its stead if it is empty. -/
def value (quoted : Bool) (s : Bytes) : Piece × Bytes :=
  let literal := (Piece.char quoted '$', s)
  match s with
  | '(' :: s =>
    let (script, rest) := upToClosing 0 none s
    (.command quoted script, rest)
  | '{' :: s =>
    match valueName s with
    | ([], _) => literal
    | (name, '}' :: rest) => (.value quoted (String.ofList name) none, rest)
    | (name, ':' :: '-' :: rest) =>
      let text := rest.takeWhile (· != '}')
      (.value quoted (String.ofList name) (some text), rest.drop (text.length + 1))
    | _ => literal
  | s =>
    match valueName s with
    | ([], _) => literal
    | (name, rest) => (.value quoted (String.ofList name) none, rest)

def isProtectable (c : Char) : Bool := ['$', '\x22', '\\', '\x60'].contains c

def pieces (quoted : Bool) : Nat → Bytes → Word × Bytes
  | 0, s => ([], s)
  | _, [] => ([], [])
  | n + 1, c :: s =>
    let followedBy := fun (first : Word) (s : Bytes) =>
      let (w, rest) := pieces quoted n s
      (first ++ w, rest)
    if c = '$' then
      let (piece, rest) := value quoted s
      followedBy [piece] rest
    else if c = '\x60' then
      let script := s.takeWhile (· != '\x60')
      followedBy [.command quoted script] (s.drop (script.length + 1))
    else if c = '\\' then
      match s with
      | [] => ([.char true c], [])
      | '\n' :: s => pieces quoted n s
      | d :: s =>
        if quoted && !isProtectable d then followedBy [.char true c, .char true d] s
        else followedBy [.char true d] s
    else if quoted then
      if c = '\x22' then ([], s) else followedBy [.char true c] s
    else if c = '\x22' then
      let (inside, rest) := pieces true n s
      followedBy (.quotes :: inside) rest
    else if c = '\x27' then
      let inside := s.takeWhile (· != '\x27')
      followedBy (.quotes :: inside.map (.char true)) (s.drop (inside.length + 1))
    else if endsWord c then ([], c :: s)
    else followedBy [.char false c] s

def scanFrom : Nat → Nat → Bytes → List Token
  | 0, _, _ => []
  | _, _, [] => []
  | n + 1, line, c :: s =>
    if c = '\n' then .mark .newline :: scanFrom n (line + 1) s
    else if c = ' ' ∨ c = '\t' then scanFrom n line s
    else if c = '#' then scanFrom n line (s.dropWhile (· != '\n'))
    else match operator? line (c :: s) with
      | some (token, rest) => token :: scanFrom n line rest
      | none =>
        let (w, rest) := pieces false (n + 1) (c :: s)
        let line' := line + ((c :: s).count '\n' - rest.count '\n')
        if w.isEmpty then scanFrom n line' (if rest.length ≤ s.length then rest else s)
        else .word line w :: scanFrom n line' rest

def scan (s : Bytes) : List Token := scanFrom (s.length + 1) 1 s

end Token

end SketchPrep.Script
