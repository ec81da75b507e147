import SketchPrep.Path.Basic

namespace SketchPrep

inductive Severity where
  | error
  | warning
  | note
deriving DecidableEq, Inhabited

def Severity.text : Severity → String
  | .error => "error"
  | .warning => "warning"
  | .note => "note"

def Severity.colour : Severity → String
  | .error => "31"
  | .warning => "33"
  | .note => "36"

structure Diagnostic where
  severity : Severity
  message : String
  context : List String
  suggestions : List String
  location : Option Path

namespace Diagnostic

def plain (severity : Severity) (message : String) : Diagnostic :=
  ⟨severity, message, [], [], none⟩

def painted (colour text : String) : String := "\x1b[1;" ++ colour ++ "m" ++ text ++ "\x1b[0m"

def numbered (n : Nat) : List String → List String
  | [] => []
  | line :: lines => ("  " ++ toString n ++ ". " ++ line ++ "\n") :: numbered (n + 1) lines

def format (d : Diagnostic) (colour : Bool) : String :=
  let paint (c text : String) := if colour then painted c text else text
  let title := paint d.severity.colour d.severity.text ++ ": " ++ d.message ++ "\n"
  let place := match d.location with
    | some p => "  --> " ++ p.text ++ "\n"
    | none => ""
  let context := String.join (d.context.map fun line => "  = " ++ line ++ "\n")
  let help :=
    if d.suggestions.isEmpty then ""
    else "\n" ++ paint "32" "help" ++ ": consider:\n" ++ String.join (numbered 1 d.suggestions)
  title ++ place ++ context ++ help

end Diagnostic

end SketchPrep
