import SketchPrep.Preparation
import SketchPrep.Toolchain.Compiler
import SketchPrep.Toolchain.SymbolLister

namespace SketchPrep

def installedTools (environment : Dictionary String) (compiler : Compiler) (lister : SymbolLister) :
    Tools (List LogEvent) where
  compiler t := compiler.preprocessor ⟨t, environment⟩
  listSymbols t source log :=
    (lister.list ⟨t, environment⟩ source, log ++ [.debug (lister.command source).text])

end SketchPrep
