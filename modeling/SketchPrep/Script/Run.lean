import SketchPrep.FileTree.Basic
import SketchPrep.Script.Expansion
import SketchPrep.Script.Printing
import SketchPrep.Script.Reader
import SketchPrep.Toolchain.Command

namespace SketchPrep

/-- How a program ended, and what it printed. A program ended by a signal has no code. -/
structure Completed where
  code : Option Nat
  output : Script.Bytes
  errors : Script.Bytes
deriving DecidableEq, Inhabited

namespace Script

structure Host where
  tree : FileTree
  start : Command → Except TreeError Completed

inductive Sink where
  | output
  | errors
  | pipe
  | nowhere
deriving DecidableEq, Inhabited

structure Sinks where
  output : Sink
  errors : Sink

structure Shell where
  bindings : Bindings
  exported : List String
  functions : List (String × Statement)
  input : Bytes
  printed : List (Sink × Bytes)

inductive Leave where
  | finished (code : Nat)
  | killed
  | returned
  /-- Leaves so many loops besides the innermost, and goes on with the last of them or not. -/
  | loops (outer : Nat) (goesOn : Bool)

abbrev Running := ExceptT Leave (StateM Shell)

namespace Running

def setStatus (code : Nat) : Running Unit :=
  modify fun sh => { sh with bindings := { sh.bindings with status := code } }

def status : Running Nat := return (← get).bindings.status

def print (sink : Sink) (s : Bytes) : Running Unit :=
  modify fun sh => { sh with printed := (sink, s) :: sh.printed }

def complain (sinks : Sinks) (line : Nat) (text : Bytes) : Running Unit := do
  let script := (← get).bindings.script
  print sinks.errors (script ++ bytesOf (": " ++ toString line ++ ": ") ++ text ++ ['\n'])

def setVariable (name : String) (value : Bytes) : Running Unit :=
  modify fun sh =>
    { sh with bindings := { sh.bindings with values := sh.bindings.values.insert name value } }

def unsetVariable (name : String) : Running Unit :=
  modify fun sh =>
    { sh with bindings := { sh.bindings with values := sh.bindings.values.erase name } }

def setArguments (arguments : List Bytes) : Running Unit :=
  modify fun sh => { sh with bindings := { sh.bindings with arguments := arguments } }

/-- Runs to the end or up to the point where it is left, and says why. -/
def catching (x : Running Unit) : Running (Option Leave) :=
  ExceptT.mk fun sh =>
    match x.run sh with
    | (.ok (), sh) => (.ok none, sh)
    | (.error leave, sh) => (.ok (some leave), sh)

def apart (x : Running Unit) : Running Unit := do
  let before ← get
  let leave ← catching x
  if let some .killed := leave then throw .killed
  let after ← get
  let code := match leave with
    | some (.finished code) => code
    | _ => after.bindings.status
  set { before with
    printed := after.printed
    input := after.input
    bindings := { before.bindings with status := code } }

def collecting (x : Running Unit) : Running Bytes := do
  let before := (← get).printed
  modify fun sh => { sh with printed := [] }
  let leave ← catching x
  let printed := (← get).printed
  modify fun sh => { sh with printed := printed.filter (·.1 ≠ .pipe) ++ before }
  if let some leave := leave then throw leave
  return ((printed.filter (·.1 = .pipe)).map (·.2)).reverse.flatten

def withSettings (settings : List (String × Bytes)) (x : Running Unit) : Running Unit := do
  let before := (← get).bindings.values
  for (name, value) in settings do setVariable name value
  let leave ← catching x
  for (name, _) in settings do
    match before.find? name with
    | some value => setVariable name value
    | none => unsetVariable name
  if let some leave := leave then throw leave

def redirect (host : Host) (sinks : Sinks) : List Redirect → Running (Option Sinks)
  | [] => return some sinks
  | r :: rest => do
    let target := r.word.text (← get).bindings
    match r.kind with
    | .source =>
      match host.tree.read ⟨target.text⟩ with
      | .ok content =>
        modify fun sh => { sh with input := content.toList.map fun b => Char.ofNat b.toNat }
        redirect host sinks rest
      | .error _ =>
        complain sinks r.line (bytesOf "cannot open " ++ target ++ bytesOf ": No such file")
        return none
    | .target =>
      match r.channel with
      | .errors => redirect host { sinks with errors := .nowhere } rest
      | _ => redirect host { sinks with output := .nowhere } rest
    | .join =>
      let sink := if target = ['2'] then sinks.errors else sinks.output
      match r.channel with
      | .errors => redirect host { sinks with errors := sink } rest
      | _ => redirect host { sinks with output := sink } rest

def redirecting (host : Host) (sinks : Sinks) (redirects : List Redirect) (x : Sinks → Running Unit) :
    Running Unit := do
  let before := (← get).input
  let reads := redirects.any (·.kind = .source)
  match ← redirect host sinks redirects with
  | none => setStatus 2
  | some sinks =>
    let leave ← catching (x sinks)
    if reads then modify fun sh => { sh with input := before }
    if let some leave := leave then throw leave

def readLine (arguments : List Bytes) : Running Unit := do
  let names := (arguments.filter (· != ['-', 'r'])).map Bytes.text
  let sh ← get
  let separators := (sh.bindings.values.find? "IFS").getD [' ', '\t', '\n']
  let (line, ended, rest) := takeLine (arguments.contains ['-', 'r']) sh.input.length sh.input
  set { sh with input := rest }
  for (name, part) in names.zip (splitLine separators names.length line) do setVariable name part
  setStatus (if ended then 0 else 1)

def holds (tree : FileTree) : List Bytes → Bool
  | [] => false
  | ['!'] :: rest => !holds tree rest
  | [a] => !a.isEmpty
  | [operator, a] =>
    match operator.text with
    | "-n" => !a.isEmpty
    | "-z" => a.isEmpty
    | "-e" => tree.hasEntry ⟨a.text⟩
    | "-f" => tree.isFile ⟨a.text⟩
    | "-d" => tree.isFolder ⟨a.text⟩
    | "-x" => tree.isRunnable ⟨a.text⟩ || tree.isFolder ⟨a.text⟩
    | _ => false
  | [a, relation, b] =>
    match relation.text with
    | "=" => a == b
    | "!=" => a != b
    | relation =>
      match number? a, number? b with
      | some x, some y => (compareNumbers relation x y).getD false
      | _, _ => false
  | _ => false

def setHolds (b : Bool) : Running Unit := setStatus (if b then 0 else 1)

def numberOr (default : Nat) (arguments : List Bytes) : Nat :=
  ((arguments.head?.bind number?).map Int.toNat).getD default

def builtin (host : Host) (sinks : Sinks) (line : Nat) (name : String) (arguments : List Bytes) :
    Option (Running Unit) :=
  match name with
  | ":" | "true" => some (setStatus 0)
  | "false" => some (setStatus 1)
  | "echo" => some do
    print sinks.output (echo arguments)
    setStatus 0
  | "printf" => some do
    match arguments with
    | [] => setStatus 2
    | format :: arguments =>
      print sinks.output (printf format (arguments.length + 1) arguments)
      setStatus 0
  | "read" => some (readLine arguments)
  | "exit" => some do
    if let some argument := arguments.head? then
      if !(argument : Bytes).all Char.isDigit then
        complain sinks line (bytesOf "exit: Illegal number: " ++ argument)
        throw (.finished 2)
    throw (.finished (numberOr (← status) arguments % 256))
  | "return" => some do
    setStatus (numberOr (← status) arguments)
    throw .returned
  | "break" => some (throw (.loops (numberOr 1 arguments - 1) false))
  | "continue" => some (throw (.loops (numberOr 1 arguments - 1) true))
  | "shift" => some do
    setArguments ((← get).bindings.arguments.drop (numberOr 1 arguments))
    setStatus 0
  | "set" => some do
    if arguments.head? == some ['-', '-'] then setArguments arguments.tail
    setStatus 0
  | "kill" => some do
    if !arguments.contains Bindings.process then setStatus 1
    else if arguments.contains ['-', '0'] then setStatus 0
    else throw .killed
  | "export" => some do
    for argument in arguments do
      let name : Bytes := argument.takeWhile (· != '=')
      if name.length < argument.length then setVariable name.text (argument.drop (name.length + 1))
      modify fun sh => { sh with exported := name.text :: sh.exported }
    setStatus 0
  | "unset" => some do
    for argument in arguments do unsetVariable (argument : Bytes).text
    setStatus 0
  | "pwd" => some do
    print sinks.output (bytesOf (host.tree.here.path.text ++ "\n"))
    setStatus 0
  | "test" => some (setHolds (holds host.tree arguments))
  | "[" => some (setHolds (holds host.tree arguments.dropLast))
  | _ => none

def startProgram (host : Host) (sinks : Sinks) (line : Nat) (caller : String) (name : Bytes)
    (arguments : List Bytes) : Running Unit := do
  let sh ← get
  let environment := sh.exported.filterMap fun name =>
    (sh.bindings.values.find? name).map fun value => (name, value.text)
  match host.start ⟨⟨name.text⟩, arguments.map Bytes.text, environment⟩ with
  | .ok completed =>
    print sinks.output completed.output
    print sinks.errors completed.errors
    setStatus (completed.code.getD 143)
  | .error .missing =>
    complain sinks line (bytesOf caller ++ name ++ bytesOf ": not found")
    setStatus 127
  | .error e =>
    let reason := if e = .denied then "Permission denied" else "not found"
    complain sinks line (bytesOf caller ++ name ++ bytesOf (": " ++ reason))
    setStatus (if e = .denied then 126 else 127)

def hasCommand (ws : List Word) : Bool :=
  ws.any fun w => w.any fun
    | .command .. => true
    | _ => false

def withoutLineEnds (s : Bytes) : Bytes := (s.reverse.dropWhile (· = '\n')).reverse

mutual

def fill (host : Host) : Nat → Sinks → Word → Running Word
  | 0, _, _ => throw .killed
  | _, _, [] => return []
  | n + 1, sinks, piece :: rest => do
    let filled ← match piece with
      | .command quoted script =>
        match read? script with
        | none => throw (.finished 2)
        | some body =>
          let text ← collecting (apart (runList host n { sinks with output := .pipe } body))
          pure (.result quoted (withoutLineEnds text))
      | piece => pure piece
    return filled :: (← fill host n sinks rest)

def fillAll (host : Host) : Nat → Sinks → List Word → Running (List Word)
  | 0, _, _ => throw .killed
  | _, _, [] => return []
  | n + 1, sinks, w :: ws => do
    let filled ← fill host n sinks w
    return filled :: (← fillAll host n sinks ws)

def runList (host : Host) : Nat → Sinks → List Statement → Running Unit
  | 0, _, _ => throw .killed
  | _, _, [] => return
  | n + 1, sinks, s :: rest => do
    runOne host n sinks s
    runList host n sinks rest

def runOne (host : Host) : Nat → Sinks → Statement → Running Unit
  | 0, _, _ => throw .killed
  | n + 1, sinks, s =>
    match s with
    | .plain line settings words redirects => do
      let bindings := (← get).bindings
      let words ← fillAll host n sinks words
      let values ← fillAll host n sinks (settings.map (·.2))
      let keepsStatus := hasCommand (settings.map (·.2))
      let settings := (settings.map (·.1)).zip (values.map (·.text bindings))
      redirecting host sinks redirects fun sinks =>
        match words.flatMap (Word.fields bindings) with
        | [] => do
          for (name, value) in settings do setVariable name value
          if !keepsStatus then setStatus 0
        | name :: arguments => withSettings settings (runNamed host n sinks line name arguments)
    | .both a b => do
      runOne host n sinks a
      if (← status) = 0 then runOne host n sinks b
    | .either a b => do
      runOne host n sinks a
      if (← status) ≠ 0 then runOne host n sinks b
    | .negation a => do
      runOne host n sinks a
      setHolds ((← status) ≠ 0)
    | .pipe a b => do
      let before := (← get).input
      let text ← collecting (apart (runOne host n { sinks with output := .pipe } a))
      modify fun sh => { sh with input := text }
      apart (runOne host n sinks b)
      modify fun sh => { sh with input := before }
    | .apart body => apart (runList host n sinks body)
    | .block body redirects => redirecting host sinks redirects fun sinks => runList host n sinks body
    | .choice condition yes no => do
      runList host n sinks condition
      let body := if (← status) = 0 then yes else no
      setStatus 0
      runList host n sinks body
    | .repetition succeeds condition body => runLoop host n sinks succeeds condition body 0
    | .each name words body => do
      let bindings := (← get).bindings
      let values ← match words with
        | some words => do pure ((← fillAll host n sinks words).flatMap (Word.fields bindings))
        | none => pure bindings.arguments
      setStatus 0
      runEach host n sinks name values body
    | .selection word branches => do
      let bindings := (← get).bindings
      let text := (← fill host n sinks word).text bindings
      let chosen := branches.find? fun (patterns, _) =>
        patterns.any fun p => (p.pattern bindings).fits text
      setStatus 0
      match chosen with
      | some (_, body) => runList host n sinks body
      | none => return
    | .function name body => do
      modify fun sh => { sh with functions := (name, body) :: sh.functions }
      setStatus 0

def runNamed (host : Host) : Nat → Sinks → Nat → Bytes → List Bytes → Running Unit
  | 0, _, _, _, _ => throw .killed
  | n + 1, sinks, line, name, arguments => do
    let sh ← get
    match sh.functions.lookup name.text with
    | some body =>
      setArguments arguments
      let leave ← catching (runOne host n sinks body)
      setArguments sh.bindings.arguments
      match leave with
      | none | some .returned => return
      | some leave => throw leave
    | none =>
      match builtin host sinks line name.text arguments, name.text, arguments with
      | some x, _, _ => x
      | none, "exec", program :: arguments => do
        startProgram host sinks line "exec: " program arguments
        throw (.finished (← status))
      | none, _, _ => startProgram host sinks line "" name arguments

def runLoop (host : Host) : Nat → Sinks → Bool → List Statement → List Statement → Nat → Running Unit
  | 0, _, _, _, _, _ => throw .killed
  | n + 1, sinks, succeeds, condition, body, last => do
    runList host n sinks condition
    if ((← status) == 0) != succeeds then setStatus last
    else
      match ← catching (runList host n sinks body) with
      | none | some (.loops 0 true) => runLoop host n sinks succeeds condition body (← status)
      | some (.loops 0 false) => setStatus 0
      | some (.loops (outer + 1) goesOn) => throw (.loops outer goesOn)
      | some leave => throw leave

def runEach (host : Host) : Nat → Sinks → String → List Bytes → List Statement → Running Unit
  | 0, _, _, _, _ => throw .killed
  | _, _, _, [], _ => return
  | n + 1, sinks, name, value :: values, body => do
    setVariable name value
    match ← catching (runList host n sinks body) with
    | none | some (.loops 0 true) => runEach host n sinks name values body
    | some (.loops 0 false) => setStatus 0
    | some (.loops (outer + 1) goesOn) => throw (.loops outer goesOn)
    | some leave => throw leave

end

end Running

def stepLimit : Nat := 1000000

def Shell.completed (sh : Shell) (code : Option Nat) : Completed where
  code := code
  output := ((sh.printed.filter (·.1 = .output)).map (·.2)).reverse.flatten
  errors := ((sh.printed.filter (·.1 = .errors)).map (·.2)).reverse.flatten

def run (host : Host) (path : String) (script : Bytes) (arguments : List String)
    (environment : Dictionary String) : Completed :=
  match read? script with
  | none => ⟨some 2, [], bytesOf (path ++ ": 1: Syntax error\n")⟩
  | some body =>
    let sh : Shell :=
      { bindings := ⟨bytesOf path, arguments.map bytesOf, ⟨environment.entries.map fun (k, v) => (k, bytesOf v)⟩, 0⟩
        exported := environment.keys
        functions := []
        input := []
        printed := [] }
    match (Running.runList host stepLimit ⟨.output, .errors⟩ body).run.run sh with
    | (.ok (), sh) => sh.completed (some sh.bindings.status)
    | (.error (.finished code), sh) => sh.completed (some code)
    | (.error .killed, sh) => sh.completed none
    | (.error _, sh) => sh.completed (some sh.bindings.status)

end Script

end SketchPrep
