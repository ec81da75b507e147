import SketchPrep.Toml.Basic
import SketchPrep.Toml.Number
import SketchPrep.Toml.Text

namespace SketchPrep.Toml

abbrev Reader := StateT (List Char) Option

namespace Reader

def isBlank (c : Char) : Bool := c == ' ' || c == '\t'

def skipBlanks : Reader Unit := modify (List.dropWhile isBlank)

def takes (text : String) : Reader Bool := do
  match text.toList.isPrefixOf? (← get) with
  | some rest =>
    set rest
    return true
  | none => return false

def expect (text : String) : Reader Unit := do
  if !(← takes text) then failure

def takesNewline : Reader Bool := do
  match afterNewline? (← get) with
  | some rest =>
    set rest
    return true
  | none => return false

def skipComment : Reader Unit := do
  if ← takes "#" then modify (List.dropWhile isPrintable)

def endLine : Reader Unit := do
  skipBlanks
  skipComment
  if !(← takesNewline) && !(← get).isEmpty then failure

def skipLines : Nat → Reader Unit
  | 0 => return
  | n + 1 => do
    skipBlanks
    skipComment
    if ← takesNewline then skipLines n

def isBareKeyChar (c : Char) : Bool := c.isAlphanum || c == '_' || c == '-'

def simpleKey : Reader String := do
  let s ← get
  match s with
  | '\x22' :: rest =>
    let (key, rest) ← quoted (rest.length + 1) rest
    set rest
    return String.ofList key
  | '\x27' :: rest =>
    let (key, rest) ← literal rest
    set rest
    return String.ofList key
  | s =>
    let key := s.takeWhile isBareKeyChar
    if key.isEmpty then failure
    set (s.drop key.length)
    return String.ofList key

/-- How deep values may lie in each other, and how many parts a key may have. -/
def depthLimit : Nat := 80

def keyParts : Nat → Reader (List String)
  | 0 => failure
  | n + 1 => do
    skipBlanks
    let part ← simpleKey
    skipBlanks
    if ← takes "." then return part :: (← keyParts n)
    return [part]

def key : Reader (List String × String) := do
  let parts ← keyParts (depthLimit - 1)
  match parts.getLast? with
  | some last => return (parts.dropLast, last)
  | none => failure

def isWordChar (c : Char) : Bool := c.isAlphanum || ['+', '-', '.', '_', ':'].contains c

/-- A date is followed by a blank and a time in the same value. -/
def joinsTime (word rest : List Char) : Bool :=
  afterDate? word == some [] && rest.head? == some ' ' && isDigit ((rest.drop 1).headD ' ') &&
    isDigit ((rest.drop 2).headD ' ') && (rest.drop 3).headD ' ' == ':'

def wordValue : Reader Toml := do
  let s ← get
  let first := s.takeWhile isWordChar
  let rest := s.drop first.length
  let word :=
    if joinsTime first rest then first ++ ' ' :: (rest.drop 1).takeWhile isWordChar else first
  set (s.drop word.length)
  if word = "true".toList then return .boolean true
  else if word = "false".toList then return .boolean false
  else if isMoment word then return .moment (String.ofList word)
  else if isFloat word then return .float (String.ofList word)
  else return .integer (← integer? word)

mutual

def value : (n depth : Nat) → Reader Toml
  | 0, _ => failure
  | n + 1, depth => do
    match (← get).head? with
    | some '\x22' | some '\x27' =>
      let (chars, rest) ← textValue? (← get)
      set rest
      return .text (String.ofList chars)
    | some '[' =>
      modify List.tail
      if depth ≤ 1 then failure
      return .array false (← items n (depth - 1))
    | some '\x7b' =>
      modify List.tail
      if depth ≤ 1 then failure
      skipBlanks
      let settings ← if ← takes "\x7d" then pure [] else settings n (depth - 1)
      return .table .inline (← addSettings .inline settings [])
    | _ => wordValue

def items : (n depth : Nat) → Reader (List Toml)
  | 0, _ => failure
  | n + 1, depth => do
    skipLines n
    if ← takes "]" then return []
    let first ← value n depth
    skipLines n
    if ← takes "," then return first :: (← items n depth)
    expect "]"
    return [first]

def settings : (n depth : Nat) → Reader (List Setting)
  | 0, _ => failure
  | n + 1, depth => do
    let (path, last) ← key
    expect "="
    skipBlanks
    let v ← value n depth
    skipBlanks
    if ← takes "," then
      skipBlanks
      return ⟨path, last, v⟩ :: (← settings n depth)
    expect "\x7d"
    return [⟨path, last, v⟩]

end

def setting (n : Nat) : Reader Setting := do
  let (path, last) ← key
  expect "="
  skipBlanks
  return ⟨path, last, ← value n depthLimit⟩

def sections : (n : Nat) → Header → (before : List Setting) → Reader (List Section)
  | 0, _, _ => failure
  | n + 1, header, before => do
    skipBlanks
    let s ← get
    if s.isEmpty then return [⟨header, before.reverse⟩]
    else if (afterNewline? s).isSome || s.head? = some '#' then
      endLine
      sections n header before
    else if ← takes "[[" then
      let (path, last) ← key
      expect "]]"
      endLine
      return ⟨header, before.reverse⟩ :: (← sections n (.item path last) [])
    else if ← takes "[" then
      let (path, last) ← key
      expect "]"
      endLine
      return ⟨header, before.reverse⟩ :: (← sections n (.table path last) [])
    else
      let s ← setting n
      endLine
      sections n header (s :: before)

end Reader

def byteOrderMark : Char := '\ufeff'

def parse? (document : String) : Option Toml := do
  let s := document.toList
  let s := if s.head? = some byteOrderMark then s.tail else s
  let (sections, _) ← (Reader.sections (s.length + 2) .root []).run s
  ofSections sections

end SketchPrep.Toml
