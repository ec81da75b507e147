namespace SketchPrep.Text

def cut (w : List Char) : List Char → Option (List Char × List Char)
  | [] => if w.isEmpty then some ([], []) else none
  | c :: s =>
    match w.isPrefixOf? (c :: s) with
    | some rest => some ([], rest)
    | none => (cut w s).map fun (before, after) => (c :: before, after)

def cutLast (c : Char) : List Char → Option (List Char × List Char)
  | [] => none
  | d :: s =>
    match cutLast c s with
    | some (before, after) => some (d :: before, after)
    | none => if d = c then some ([], s) else none

def occurs (w s : List Char) : Bool := (cut w s).isSome

def withoutEnd? (w s : List Char) : Option (List Char) :=
  (w.reverse.isPrefixOf? s.reverse).map List.reverse

end SketchPrep.Text
