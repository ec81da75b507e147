import SketchPrep.Tag.CLinkage
import SketchPrep.Tag.Record

namespace SketchPrep.Tag

def skipWhere (reason : SkipReason) (p : Tag → Bool) (tags : List Tag) : List Tag :=
  tags.map fun t => if !t.isSkipped && p t then { t with skip := some reason } else t

/-- A template is declared by its own head: up to its parameters, or up to its body. -/
def templateDeclaration (code : List Char) : List Char :=
  let head := code.takeWhile (· != '{')
  match Text.cutLast ')' head with
  | some (before, _) => before ++ [')', ';']
  | none => Text.trimEnd head ++ [';']

def head (t : Tag) : List Char :=
  match Text.cut t.name.toList t.code.toList with
  | some (before, _) => before
  | none => t.code.toList

def declare (t : Tag) : Tag :=
  if t.isTemplate then { t with prototype := String.ofList (templateDeclaration t.code.toList) }
  else
    { t with
      prototype := t.returnType.getD "" ++ " " ++ t.name ++ t.signature.getD "" ++ ";"
      modifiers :=
        { isStatic := Text.occurs (staticWord ++ " ").toList t.head
          cLinkage := Text.occurs (cLinkageWords ++ " ").toList t.head } }

def addPrototypes (tags : List Tag) : List Tag :=
  tags.map fun t => if t.isSkipped then t else t.declare

def declared (tags : List Tag) : List String :=
  (tags.filter fun t => !t.isSkipped && t.kind = .prototype).map (·.prototype)

/-- Marks each tag whose declaration an earlier one has; `seen` holds those before. -/
def markRepeats (seen : List String) : List Tag → List Tag
  | [] => []
  | t :: tags =>
    if t.isSkipped then t :: markRepeats seen tags
    else if seen.contains t.prototype then
      { t with skip := some .duplicate } :: markRepeats seen tags
    else t :: markRepeats (t.prototype :: seen) tags

def declarationLines : Nat := 10

def joinToParenthesis (joined : List Char) : List (List Char) → Option (List Char)
  | [] => none
  | row :: rows =>
    if (joined ++ row).contains ')' then some (joined ++ row)
    else joinToParenthesis (joined ++ row) rows

def readDeclaration (text : String) (line : Nat) : Option (List Char) :=
  joinToParenthesis [] (((Text.lines text.toList).drop (line - 1)).take declarationLines)

/-- The code in which the declaration has to be found: the source line, or, if that is cut before
the parameters end, as many lines of the file as they take. -/
def codeToSearch (source : String → Option String) (t : Tag) : List Char :=
  let code := Text.stripBlanks t.code.toList
  if code.contains ')' then code
  else
    match (source t.file).bind (readDeclaration · t.line) with
    | some full => Text.stripBlanks full
    | none => code

/-- Macros make listers report declarations that the source does not contain. -/
def matchesCode (source : String → Option String) (t : Tag) : Bool :=
  let text := Text.stripBlanks t.prototype.toList
  Text.occurs ((Text.withoutEnd? [';'] text).getD text) (t.codeToSearch source)

def hasCLinkage (regions : List (String × List Nat)) (t : Tag) : Bool :=
  ((regions.lookup t.file).getD []).contains t.line

def markCLinkage (source : String → Option String) (tags : List Tag) : List Tag :=
  let regions := CLinkage.regions source tags
  tags.map fun t =>
    if t.hasCLinkage regions then { t with modifiers := { t.modifiers with cLinkage := true } }
    else t

inductive Stage where
  | skipUnknownKinds
  | skipScoped
  | addPrototypes
  | skipDeclared
  | skipDuplicates
  | skipCodeMismatches
  | markCLinkage
deriving DecidableEq, Inhabited

def Stage.run (source : String → Option String) : Stage → List Tag → List Tag
  | .skipUnknownKinds => skipWhere .unknownKind fun t => !t.kind.isCallable
  | .skipScoped => skipWhere .scoped fun t => t.scope.isSome
  | .addPrototypes => Tag.addPrototypes
  | .skipDeclared => fun tags => skipWhere .alreadyDeclared (fun t => (declared tags).contains t.prototype) tags
  | .skipDuplicates => markRepeats []
  | .skipCodeMismatches => skipWhere .codeMismatch fun t => !t.matchesCode source
  | .markCLinkage => Tag.markCLinkage source

def stages : List Stage :=
  [.skipUnknownKinds, .skipScoped, .addPrototypes, .skipDeclared, .skipDuplicates,
    .skipCodeMismatches, .markCLinkage]

def runStages (source : String → Option String) (stages : List Stage) (tags : List Tag) : List Tag :=
  stages.foldl (fun tags stage => stage.run source tags) tags

def filter (source : String → Option String) (tags : List Tag) : List Tag :=
  runStages source stages tags

end SketchPrep.Tag
