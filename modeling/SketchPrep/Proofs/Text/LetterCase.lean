import Mathlib.Data.List.Infix
import SketchPrep.Text.LetterCase

namespace SketchPrep.Text

variable {s w : List Char}

end SketchPrep.Text
