import SketchPrep.Text.Search

namespace SketchPrep

inductive Component where
  | root
  | here
  | up
  | name (text : String)
deriving DecidableEq, Inhabited

def Component.rank : Component → Nat
  | .root => 0
  | .here => 1
  | .up => 2
  | .name _ => 3

def Component.text : Component → String
  | .root => "/"
  | .here => "."
  | .up => ".."
  | .name n => n

instance : Ord Component := ⟨compareLex (compareOn Component.rank) (compareOn Component.text)⟩

structure Path where
  text : String
deriving DecidableEq, Inhabited

namespace Path

/-- The first component when it is no name: the root, or the dot of a path that begins with one;
and the pieces between the separators after it. -/
def body (p : Path) : Option Component × List (List Char) :=
  match p.text.toList.splitOn '/' with
  | [] => (none, [])
  | [] :: piece :: pieces => (some .root, piece :: pieces)
  | ['.'] :: pieces => (some .here, pieces)
  | pieces => (none, pieces)

def isFiller (piece : List Char) : Bool := piece.isEmpty || piece == ['.']

def ofPiece (piece : List Char) : Component :=
  if piece = ['.', '.'] then .up else .name (String.ofList piece)

def components (p : Path) : List Component :=
  p.body.1.toList ++ (p.body.2.filter (!isFiller ·)).map ofPiece

def same (p q : Path) : Bool := p.components == q.components

def isAbsolute (p : Path) : Bool := p.text.toList.head? == some '/'

def join (p q : Path) : Path :=
  if q.isAbsolute || p.text.isEmpty then q
  else if p.text.toList.getLast? == some '/' then ⟨p.text ++ q.text⟩
  else ⟨p.text ++ "/" ++ q.text⟩

instance : HDiv Path String Path := ⟨fun p name => p.join ⟨name⟩⟩

def ofComponents (cs : List Component) : Path :=
  cs.foldl (fun p c => p.join ⟨c.text⟩) ⟨""⟩

def withoutFillers (pieces : List (List Char)) : List (List Char) :=
  (pieces.reverse.dropWhile isFiller).reverse

def ofBody (lead : Option Component) (pieces : List (List Char)) : Path :=
  let rest := String.ofList (['/'].intercalate pieces)
  match lead with
  | none => ⟨rest⟩
  | some .root => ⟨"/" ++ rest⟩
  | some c => if pieces.isEmpty then ⟨c.text⟩ else ⟨c.text ++ "/" ++ rest⟩

def parent? (p : Path) : Option Path :=
  let (lead, pieces) := p.body
  match withoutFillers pieces, lead with
  | [], none => none
  | [], some .root => none
  | [], some _ => some ⟨""⟩
  | pieces, lead => some (ofBody lead (withoutFillers pieces.dropLast))

def fileName? (p : Path) : Option String :=
  match p.components.getLast? with
  | some (.name n) => some n
  | _ => none

def fileName (p : Path) : String := p.fileName?.getD ""

/-- What follows the last dot of a name. A dot in front does not begin an extension. -/
def extensionOf (name : List Char) : Option (List Char) :=
  match Text.cutLast '.' name with
  | some ([], _) => none
  | some (_, ext) => some ext
  | none => none

def extension? (p : Path) : Option String := do
  let name ← p.fileName?
  let ext ← extensionOf name.toList
  return String.ofList ext

def isWithin (p folder : Path) : Bool := folder.components.isPrefixOf p.components

def afterName? (p : Path) (name : String) : Option Path :=
  match p.body with
  | (none, pieces) =>
    match pieces.dropWhile isFiller with
    | first :: rest =>
      if ofPiece first = .name name then
        some (ofBody none (withoutFillers (rest.dropWhile isFiller)))
      else none
    | [] => none
  | _ => none

def le (p q : Path) : Bool := (compare p.components q.components).isLE

def sort (ps : List Path) : List Path := ps.mergeSort le

/-- `p` and the paths after it, without repetitions of the path just before. -/
def afterDistinct (p : Path) : List Path → List Path
  | [] => [p]
  | q :: ps => if p.same q then afterDistinct p ps else p :: afterDistinct q ps

def withoutRepeats : List Path → List Path
  | [] => []
  | p :: ps => afterDistinct p ps

theorem same_refl (p : Path) : p.same p = true := by simp [same]

theorem same_iff {p q : Path} : p.same q = true ↔ p.components = q.components := by simp [same]

end Path

def hasPath (ps : List Path) (p : Path) : Bool := ps.any (·.same p)

end SketchPrep
