import SketchPrep.Path.Basic
import SketchPrep.Tag.Stage

namespace SketchPrep

structure Prototype where
  name : String
  file : String
  text : String
  modifiers : Modifiers
  line : Nat
deriving DecidableEq, Inhabited

def Prototype.declaration (p : Prototype) : String :=
  if p.modifiers = .none then p.text else p.modifiers.text ++ " " ++ p.text

namespace Prototype

def ofTag (t : Tag) : Prototype := ⟨t.name, t.file, t.prototype, t.modifiers, t.line⟩

def ofTags (tags : List Tag) : List Prototype :=
  (tags.filter fun t => !t.isSkipped && !(Text.trim t.prototype.toList).isEmpty).map ofTag

def isIn (mainFile : Option Path) (t : Tag) : Bool := mainFile.all (Path.same ⟨t.file⟩)

def firstFunction (mainFile : Option Path) (tags : List Tag) : Option Nat :=
  (tags.find? fun t => isIn mainFile t && t.isHandled && t.kind = .function).map (·.line)

def takesAddress (names : List String) (t : Tag) : Bool :=
  names.any fun name => Text.occurs ('&' :: name.toList) t.code.toList

def firstAddress (tags : List Tag) : Option Nat :=
  let names := (tags.filter (·.kind = .function)).map (·.name)
  (tags.find? (takesAddress names)).map (·.line)

def insertionLine (mainFile : Option Path) (tags : List Tag) : Option Nat :=
  match firstFunction mainFile tags, firstAddress tags with
  | some a, some b => some (min a b)
  | some a, none => some a
  | none, b => b

def ofListing (source : String → Option String) (mainFile : Option Path) (listing : String) :
    List Prototype × Option Nat :=
  let tags := Tag.filter source (Tag.parse listing)
  (ofTags tags, insertionLine mainFile tags)

end Prototype

end SketchPrep
