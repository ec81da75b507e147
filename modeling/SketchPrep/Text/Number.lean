namespace SketchPrep.Text

def digitsValue (ds : List Char) : Nat := ds.foldl (fun n d => n * 10 + (d.toNat - '0'.toNat)) 0

/-- A line number: decimal digits after at most one plus sign, below two to the power of 64. -/
def lineNumber? (s : List Char) : Option Nat :=
  let ds := match s with
    | '+' :: ds => ds
    | ds => ds
  if ds.isEmpty || !ds.all Char.isDigit then none
  else
    let n := digitsValue ds
    if n < UInt64.size then some n else none

end SketchPrep.Text
