import SketchPrep.Script.Token

namespace SketchPrep.Script

abbrev Reader := StateT (List Token) Option

namespace Reader

def head? : List Token → Option Bytes
  | .word _ w :: _ => w.plain?
  | _ => none

def isKeyword (word : String) (ts : List Token) : Bool := head? ts = some word.toList

def step : Reader Unit := modify List.tail

def takes (word : String) : Reader Bool := do
  let found := isKeyword word (← get)
  if found then step
  return found

def takesMark (m : Mark) : Reader Bool := do
  let found := (← get).head? == some (.mark m)
  if found then step
  return found

def expect (found : Reader Bool) : Reader Unit := do
  if !(← found) then failure

def closers : List String := ["then", "else", "elif", "fi", "do", "done", "esac", "\x7d"]

def isClosed : List Token → Bool
  | [] => true
  | .mark .closing :: _ => true
  | .mark .branchEnd :: _ => true
  | ts => closers.any (isKeyword · ts)

def isBreak : Token → Bool
  | .mark .newline => true
  | .mark .semicolon => true
  | _ => false

def skipLines : Reader Unit := modify (List.dropWhile (· == .mark .newline))

def skipBreaks : Reader Unit := modify (List.dropWhile isBreak)

def partsOf : List Token → List (Nat × Word) × List Redirect × List Token
  | .redirect line channel kind :: .word _ w :: ts =>
    let (words, redirects, ts) := partsOf ts
    (words, ⟨line, channel, kind, w⟩ :: redirects, ts)
  | .word line w :: ts =>
    let (words, redirects, ts) := partsOf ts
    ((line, w) :: words, redirects, ts)
  | ts => ([], [], ts)

def parts : Reader (List (Nat × Word) × List Redirect) := do
  let (words, redirects, ts) := partsOf (← get)
  set ts
  return (words, redirects)

def splitSettings : List Word → List (String × Word) × List Word
  | [] => ([], [])
  | w :: rest =>
    match w.setting? with
    | some setting =>
      let (settings, words) := splitSettings rest
      (setting :: settings, words)
    | none => ([], w :: rest)

def plain : Reader Statement := do
  let (words, redirects) ← parts
  let line? := (words.head?.map (·.1)) <|> redirects.head?.map (·.line)
  let line ← line?
  let (settings, rest) := splitSettings (words.map (·.2))
  return .plain line settings rest redirects

def patternsOf : List Token → Option (List Word × List Token)
  | .word _ w :: .mark .closing :: ts => some ([w], ts)
  | .word _ w :: .mark .bar :: ts => (patternsOf ts).map fun (ws, ts) => (w :: ws, ts)
  | _ => none

def redirected (s : Statement) : Reader Statement := do
  match ← parts with
  | ([], []) => return s
  | ([], redirects) => return .block [s] redirects
  | _ => failure

mutual

def list : Nat → Reader (List Statement)
  | 0 => failure
  | n + 1 => do
    skipBreaks
    if isClosed (← get) then return []
    let first ← chain n
    if ((← get).head?.map isBreak).getD false then return first :: (← list n)
    else if isClosed (← get) then return [first]
    else failure

def chain : Nat → Reader Statement
  | 0 => failure
  | n + 1 => do links n (← pipes n (← single n))

def pipes : Nat → Statement → Reader Statement
  | 0, _ => failure
  | n + 1, a => do
    if ← takesMark .bar then
      skipLines
      pipes n (.pipe a (← single n))
    else return a

def links : Nat → Statement → Reader Statement
  | 0, _ => failure
  | n + 1, a => do
    if ← takesMark .both then
      skipLines
      links n (.both a (← pipes n (← single n)))
    else if ← takesMark .either then
      skipLines
      links n (.either a (← pipes n (← single n)))
    else return a

def single : Nat → Reader Statement
  | 0 => failure
  | n + 1 => do
    match ← get with
    | .mark .opening :: _ =>
      step
      let body ← list n
      expect (takesMark .closing)
      redirected (.apart body)
    | .word _ w :: .mark .opening :: .mark .closing :: ts =>
      set ts
      skipLines
      return .function (String.ofList (← w.plain?)) (← single n)
    | _ =>
      if ← takes "!" then return .negation (← pipes n (← single n))
      else if ← takes "\x7b" then
        let body ← list n
        expect (takes "\x7d")
        redirected (.block body [])
      else if ← takes "if" then redirected (← choice n)
      else if ← takes "while" then redirected (← repetition n true)
      else if ← takes "until" then redirected (← repetition n false)
      else if ← takes "for" then redirected (← each n)
      else if ← takes "case" then redirected (← selection n)
      else plain

def choice : Nat → Reader Statement
  | 0 => failure
  | n + 1 => do
    let condition ← list n
    expect (takes "then")
    let yes ← list n
    if ← takes "elif" then return .choice condition yes [← choice n]
    let no ← if ← takes "else" then list n else pure []
    expect (takes "fi")
    return .choice condition yes no

def repetition : Nat → Bool → Reader Statement
  | 0, _ => failure
  | n + 1, succeeds => do
    let condition ← list n
    expect (takes "do")
    let body ← list n
    expect (takes "done")
    return .repetition succeeds condition body

def each : Nat → Reader Statement
  | 0 => failure
  | n + 1 => do
    let name ← head? (← get)
    step
    skipLines
    let words ← if ← takes "in" then pure (some ((← parts).1.map (·.2))) else pure none
    skipBreaks
    expect (takes "do")
    let body ← list n
    expect (takes "done")
    return .each (String.ofList name) words body

def selection : Nat → Reader Statement
  | 0 => failure
  | n + 1 => do
    match ← get with
    | .word _ w :: ts =>
      set ts
      skipLines
      expect (takes "in")
      return .selection w (← branches n)
    | _ => failure

def branches : Nat → Reader (List (List Word × List Statement))
  | 0 => failure
  | n + 1 => do
    skipLines
    if ← takes "esac" then return []
    let _ ← takesMark .opening
    let (words, ts) ← patternsOf (← get)
    set ts
    let body ← list n
    if ← takesMark .branchEnd then return (words, body) :: (← branches n)
    expect (takes "esac")
    return [(words, body)]

end

end Reader

/-- The statements of a script, if it is well-formed. Each token takes less than ten steps. -/
def read? (script : Bytes) : Option (List Statement) :=
  let ts := Token.scan script
  match (Reader.list (10 * ts.length + 10)).run ts with
  | some (body, []) => some body
  | _ => none

end SketchPrep.Script
