import SketchPrep.Tag.Basic
import SketchPrep.Text.Blank
import SketchPrep.Text.Lines
import SketchPrep.Text.Number
import SketchPrep.Text.Search

namespace SketchPrep.Tag

def field? (column : List Char) : Option (String × String) :=
  (Text.cut [':'] column).map fun (field, value) =>
    (String.ofList field, String.ofList (Text.trim value))

def within (t : Tag) (scope : Scope) : Tag :=
  { t with scope := t.scope <|> some scope }

def setField (t : Tag) : String × String → Tag
  | ("kind", value) => { t with kind := .ofText value }
  | ("line", value) => { t with line := (Text.lineNumber? value.toList).getD 0 }
  | ("typeref", value) => { t with typeref := some value }
  | ("signature", value) => { t with signature := some value }
  | ("returntype", value) => { t with returnType := some value }
  | ("class", value) => t.within (.inClass value)
  | ("struct", value) => t.within (.inStruct value)
  | ("namespace", value) => t.within (.inNamespace value)
  | _ => t

def codeStart : List Char := ['/', '^']

def codeEnd : List Char := ['$', '/', ';']

/-- The source line between the first mark of each kind, if they stand in this order. -/
def codeOf (row : List Char) : List Char :=
  match Text.cut codeStart row, Text.cut codeEnd row with
  | some (before, after), some (upTo, _) => after.take (upTo.length - (before.length + codeStart.length))
  | _, _ => []

def ofRow? (row : List Char) : Option Tag :=
  match row.splitOn '\t' with
  | name :: file :: columns =>
    let t := (columns.filterMap field?).foldl setField (bare (String.ofList name) (String.ofList file))
    some { t with code := String.ofList (codeOf row) }
  | _ => none

def parse (listing : String) : List Tag :=
  (((Text.lines listing.toList).map Text.trim).filter (!·.isEmpty)).filterMap ofRow?

end SketchPrep.Tag
