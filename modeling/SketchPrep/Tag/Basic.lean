namespace SketchPrep

inductive TagKind where
  | function
  | prototype
  | plainVariable
  | structType
  | classType
  | other (text : String)
deriving DecidableEq, Inhabited

def TagKind.ofText : String → TagKind
  | "function" => .function
  | "prototype" => .prototype
  | "variable" => .plainVariable
  | "struct" => .structType
  | "class" => .classType
  | text => .other text

def TagKind.text : TagKind → String
  | .function => "function"
  | .prototype => "prototype"
  | .plainVariable => "variable"
  | .structType => "struct"
  | .classType => "class"
  | .other text => text

def TagKind.isCallable : TagKind → Bool
  | .function => true
  | .prototype => true
  | _ => false

inductive Scope where
  | inClass (name : String)
  | inStruct (name : String)
  | inNamespace (name : String)
deriving DecidableEq, Inhabited

structure Modifiers where
  isStatic : Bool
  cLinkage : Bool
deriving DecidableEq, Inhabited

def Modifiers.none : Modifiers := ⟨false, false⟩

def staticWord : String := "static"

def cLinkageWords : String := "extern \"C\""

def Modifiers.text (m : Modifiers) : String :=
  " ".intercalate
    ((if m.isStatic then [staticWord] else []) ++ (if m.cLinkage then [cLinkageWords] else []))

inductive SkipReason where
  | unknownKind
  | scoped
  | alreadyDeclared
  | duplicate
  | codeMismatch
deriving DecidableEq, Inhabited

def SkipReason.text : SkipReason → String
  | .unknownKind => "not a function"
  | .scoped => "member of a class, struct or namespace"
  | .alreadyDeclared => "already declared"
  | .duplicate => "duplicate"
  | .codeMismatch => "prototype does not match the code"

structure Tag where
  name : String
  file : String
  kind : TagKind
  line : Nat
  code : String
  scope : Option Scope
  typeref : Option String
  signature : Option String
  returnType : Option String
  prototype : String
  modifiers : Modifiers
  skip : Option SkipReason
deriving DecidableEq, Inhabited

namespace Tag

def isSkipped (t : Tag) : Bool := t.skip.isSome

def isHandled (t : Tag) : Bool := t.kind.isCallable && t.scope.isNone

def bare (name file : String) : Tag where
  name := name
  file := file
  kind := .other ""
  line := 0
  code := ""
  scope := none
  typeref := none
  signature := none
  returnType := none
  prototype := ""
  modifiers := .none
  skip := none

def templateWord : List Char := "template".toList

def isTemplate (t : Tag) : Bool :=
  (t.returnType.any fun r => templateWord.isPrefixOf r.toList) || templateWord.isPrefixOf t.code.toList

end Tag

end SketchPrep
