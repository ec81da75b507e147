import SketchPrep.Path.Basic

namespace SketchPrep.CommandLine

inductive OptionName where
  | verbose
  | noColour
  | platform
  | architecture
  | buildPath
  | libraries
  | includeDir
  | compiler
  | symbolLister
  | toOutput
  | asJson
  | mainFile
deriving DecidableEq, Inhabited

namespace OptionName

def long : OptionName → String
  | .verbose => "verbose"
  | .noColour => "no-color"
  | .platform => "platform"
  | .architecture => "arch"
  | .buildPath => "build-path"
  | .libraries => "libraries"
  | .includeDir => "include"
  | .compiler => "cxx"
  | .symbolLister => "ctags"
  | .toOutput => "stdout"
  | .asJson => "json"
  | .mainFile => "main-file"

def short? : OptionName → Option Char
  | .verbose => some 'v'
  | .includeDir => some 'I'
  | _ => none

def isList : OptionName → Bool
  | .libraries | .includeDir => true
  | _ => false

def allowsEmpty : OptionName → Bool
  | .architecture => true
  | _ => false

def value? : OptionName → Option String
  | .verbose | .noColour | .toOutput | .asJson => none
  | .platform | .libraries | .includeDir => some "DIR"
  | .architecture => some "ID"
  | .buildPath => some "BUILD_PATH"
  | .compiler => some "CXX"
  | .symbolLister => some "CTAGS"
  | .mainFile => some "MAIN_FILE"

def hasValue (option : OptionName) : Bool := option.value?.isSome

def shown (option : OptionName) : String :=
  "--" ++ option.long ++ ((option.value?.map fun name => " <" ++ name ++ ">").getD "")

def common : List OptionName := [.verbose, .noColour, .platform, .architecture]

end OptionName

/-- The program, its commands and groups of commands: each level of a command line has options of its
own. -/
inductive Level where
  | program
  | preprocess
  | libraries
  | listLibraries
  | resolveHeader
  | prototypes
deriving DecidableEq, Inhabited

namespace Level

def words : Level → String
  | .program => "sketchport"
  | .preprocess => "sketchport preprocess"
  | .libraries => "sketchport libs"
  | .listLibraries => "sketchport libs list"
  | .resolveHeader => "sketchport libs resolve"
  | .prototypes => "sketchport prototypes"

def argument? : Level → Option String
  | .preprocess => some "SKETCH"
  | .resolveHeader => some "HEADER"
  | .prototypes => some "TAGS_FILE"
  | _ => none

def commands : Level → List String
  | .program => ["preprocess", "libs", "prototypes", "completions", "help"]
  | .libraries => ["list", "resolve", "help"]
  | _ => []

def required (l : Level) : String :=
  match l.argument? with
  | some name => " <" ++ name ++ ">"
  | none => if l.commands.isEmpty then "" else " <COMMAND>"

def usage (l : Level) : String := "\n\nUsage: " ++ l.words ++ " [OPTIONS]" ++ l.required

end Level

inductive UsageFault where
  | unknownOption (text : String)
  | unknownCommand (text : String)
  | missingCommand
  | missingValue (option : OptionName)
  | unexpectedValue (option : OptionName) (value : String)
  | repeated (option : OptionName)
  | missingArgument (name : String)
  | emptyArgument (name : String)
  | unexpectedArgument (text : String)
deriving DecidableEq, Inhabited

structure UsageError where
  level : Level
  fault : UsageFault
deriving DecidableEq, Inhabited

def UsageError.message (e : UsageError) : String :=
  (match e.fault with
  | .unknownOption text =>
    let tip := "\n\n  tip: to pass '" ++ text ++ "' as a value, use '-- " ++ text ++ "'"
    "unexpected argument '" ++ text ++ "' found" ++ (if e.level.argument?.isSome then tip else "") ++
      e.level.usage
  | .unknownCommand text => "unrecognized subcommand '" ++ text ++ "'" ++ e.level.usage
  | .missingCommand =>
    "'" ++ e.level.words ++ "' requires a subcommand but one was not provided\n  [subcommands: " ++
      ", ".intercalate e.level.commands ++ "]" ++ e.level.usage
  | .missingValue option => "a value is required for '" ++ option.shown ++ "' but none was supplied"
  | .unexpectedValue option value =>
    "unexpected value '" ++ value ++ "' for '" ++ option.shown ++ "' found; no more were expected" ++
      e.level.usage
  | .repeated option =>
    "the argument '" ++ option.shown ++ "' cannot be used multiple times" ++ e.level.usage
  | .missingArgument name =>
    "the following required arguments were not provided:\n  <" ++ name ++ ">\n\nUsage: " ++
      e.level.words ++ e.level.required
  | .emptyArgument name => "a value is required for '<" ++ name ++ ">' but none was supplied"
  | .unexpectedArgument text => "unexpected argument '" ++ text ++ "' found" ++ e.level.usage) ++
    "\n\nFor more information, try '--help'."

abbrev Given := OptionName × String

/-- An option whose value, if it has one, is the text that is attached to it or else the next argument.
What is left of the arguments comes after it. -/
def takeValue (option : OptionName) (attached : Option String) (rest : List String) :
    Except UsageFault (Given × List String) :=
  let checked := fun (value : String) (rest : List String) =>
    if value.isEmpty && !option.allowsEmpty then .error (.missingValue option)
    else .ok ((option, value), rest)
  if option.hasValue then
    match attached, rest with
    | some value, _ => checked value rest
    | none, [] => .error (.missingValue option)
    | none, value :: rest =>
      if value.startsWith "-" && value != "-" then .error (.missingValue option) else checked value rest
  else match attached with
    | some value => .error (.unexpectedValue option value)
    | none => .ok ((option, ""), rest)

def takeShort (options : List OptionName) (rest : List String) :
    List Char → Except UsageFault (List Given × List String)
  | [] => .ok ([], rest)
  | c :: letters =>
    match options.find? (·.short? = some c) with
    | none => .error (.unknownOption (String.ofList ['-', c]))
    | some option =>
      if option.hasValue then do
        let attached := if letters.head? = some '=' then letters.tail else letters
        let (given, rest) ←
          takeValue option (if letters.isEmpty then none else some (String.ofList attached)) rest
        return ([given], rest)
      else do
        let (more, rest) ← takeShort options rest letters
        return ((option, "") :: more, rest)

def takeOption (options : List OptionName) (text : String) (rest : List String) :
    Except UsageFault (List Given × List String) :=
  match text.toList with
  | '-' :: '-' :: chars => do
    let name := chars.takeWhile (· != '=')
    let attached :=
      if name.length < chars.length then some (String.ofList (chars.drop (name.length + 1))) else none
    match options.find? (·.long.toList = name) with
    | none => .error (.unknownOption ("--" ++ String.ofList name))
    | some option =>
      let (given, rest) ← takeValue option attached rest
      return ([given], rest)
  | chars => takeShort options rest chars.tail

def takeAll (options : List OptionName) (onlyOptions : Bool) :
    Nat → List String → Except UsageFault (List Given × List String)
  | 0, args => .ok ([], args)
  | _, [] => .ok ([], [])
  | n + 1, text :: rest =>
    if text = "--" then .ok ([], rest)
    else if text.startsWith "-" && text != "-" then do
      let (given, rest) ← takeOption options text rest
      let (more, others) ← takeAll options onlyOptions n rest
      return (given ++ more, others)
    else if onlyOptions then .ok ([], text :: rest)
    else do
      let (given, others) ← takeAll options onlyOptions n rest
      return (given, text :: others)

/-- The options of one level, none of them twice unless it is a list, and what follows them. A group of
commands reads no further than to the name of one. -/
def takeLevel (level : Level) (options : List OptionName) (args : List String) :
    Except UsageError (List Given × List String) :=
  let taken : Except UsageFault (List Given × List String) := do
    let (given, others) ← takeAll options (!level.commands.isEmpty) (args.length + 1) args
    match given.find? fun (option, _) => !option.isList && (given.countP (·.1 = option)) > 1 with
    | some (option, _) => .error (.repeated option)
    | none => return (given, others)
  taken.mapError (⟨level, ·⟩)

inductive Task where
  | preprocess (sketch : Path)
  | listLibraries
  | resolveHeader (header : String)
  | prototypes (tagsFile : Path)

structure Request where
  task : Task
  given : List Given

namespace Request

def has (r : Request) (option : OptionName) : Bool := r.given.any (·.1 = option)

def texts (r : Request) (option : OptionName) : List String :=
  (r.given.filter (·.1 = option)).map (·.2)

def text? (r : Request) (option : OptionName) : Option String := (r.texts option).getLast?

def paths (r : Request) (option : OptionName) : List Path := (r.texts option).map Path.mk

def path? (r : Request) (option : OptionName) : Option Path := (r.paths option).getLast?

end Request

def onlyArgument (level : Level) : List String → Except UsageError String
  | [] => .error ⟨level, .missingArgument (level.argument?.getD "")⟩
  | [text] => .ok text
  | _ :: text :: _ => .error ⟨level, .unexpectedArgument text⟩

def onlyPath (level : Level) (args : List String) : Except UsageError Path := do
  let text ← onlyArgument level args
  if text.isEmpty then .error ⟨level, .emptyArgument (level.argument?.getD "")⟩ else return ⟨text⟩

def noArgument (level : Level) : List String → Except UsageError Unit
  | [] => .ok ()
  | text :: _ => .error ⟨level, .unexpectedArgument text⟩

def fromEnvironment (lookUp : String → Option String) (given : List Given) :
    Except UsageError (List Given) :=
  [(OptionName.compiler, "CXX"), (.symbolLister, "CTAGS")].filterMapM fun (option, name) =>
    if given.any (·.1 = option) then return none
    else match lookUp name with
      | none => return none
      | some "" => throw ⟨.preprocess, .missingValue option⟩
      | some value => return some (option, value)

def parseLibraries (args : List String) : Except UsageError Request := do
  let (given, rest) ← takeLevel .libraries OptionName.common args
  let options := OptionName.common ++ [.libraries, .asJson]
  match rest with
  | "list" :: args =>
    let (more, others) ← takeLevel .listLibraries options args
    noArgument .listLibraries others
    return ⟨.listLibraries, given ++ more⟩
  | "resolve" :: args =>
    let (more, others) ← takeLevel .resolveHeader options args
    return ⟨.resolveHeader (← onlyArgument .resolveHeader others), given ++ more⟩
  | [] => throw ⟨.libraries, .missingCommand⟩
  | text :: _ => throw ⟨.libraries, .unknownCommand text⟩

def parse (lookUp : String → Option String) (args : List String) : Except UsageError Request := do
  let (given, rest) ← takeLevel .program OptionName.common args
  match rest with
  | "preprocess" :: args =>
    let options := OptionName.common ++
      [.buildPath, .libraries, .includeDir, .compiler, .symbolLister, .toOutput]
    let (more, others) ← takeLevel .preprocess options args
    let sketch ← onlyPath .preprocess others
    return ⟨.preprocess sketch, given ++ more ++ (← fromEnvironment lookUp more)⟩
  | "libs" :: args =>
    let r ← parseLibraries args
    return { r with given := given ++ r.given }
  | "prototypes" :: args =>
    let (more, others) ← takeLevel .prototypes (OptionName.common ++ [.mainFile]) args
    return ⟨.prototypes (← onlyPath .prototypes others), given ++ more⟩
  | [] => throw ⟨.program, .missingCommand⟩
  | text :: _ => throw ⟨.program, .unknownCommand text⟩

end SketchPrep.CommandLine
