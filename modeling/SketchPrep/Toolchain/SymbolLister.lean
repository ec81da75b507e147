import SketchPrep.Toolchain.System

namespace SketchPrep

structure SymbolLister where
  program : Path
deriving DecidableEq, Inhabited

namespace SymbolLister

/-- Functions, prototypes, structures and variables, in their order, with all columns of a record, and
by the names that line directives give to files. -/
def flags : List String :=
  ["-u", "--language-force=c++", "-f", "-", "--c++-kinds=svpf", "--fields=KSTtzns", "--line-directives"]

def command (l : SymbolLister) (source : Path) : Command := ⟨l.program, flags ++ [source.text], []⟩

def list (sys : System) (l : SymbolLister) (source : Path) : Except Failure String := do
  return (← sys.runChecked (l.command source)).output.text

end SymbolLister

end SketchPrep
