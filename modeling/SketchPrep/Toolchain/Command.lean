import SketchPrep.Path.Basic

namespace SketchPrep

structure Command where
  program : Path
  arguments : List String
  environment : List (String × String)
deriving DecidableEq, Inhabited

def Command.text (c : Command) : String := " ".intercalate (c.program.text :: c.arguments)

def Command.hasNul (c : Command) : Bool :=
  (c.program.text :: c.arguments ++ c.environment.flatMap fun (k, v) => [k, v]).any
    fun text => text.toList.contains '\x00'

end SketchPrep
