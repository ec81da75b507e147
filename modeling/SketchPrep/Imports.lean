import SketchPrep.Library.Basic

namespace SketchPrep

structure Resolution where
  library : Library
  fromPlatform : Bool
  notUsed : List Library
deriving DecidableEq, Inhabited

/-- Libraries in the order of their import, none of them twice. -/
structure Imports where
  libraries : List Library
  resolutions : Dictionary Resolution
deriving DecidableEq, Inhabited

namespace Imports

def empty : Imports := ⟨[], .empty⟩

def contains (i : Imports) (l : Library) : Bool := i.libraries.any (·.same l)

def findByName? (i : Imports) (name : String) : Option Library := i.libraries.find? (·.name == name)

def insert (i : Imports) (l : Library) : Imports :=
  if i.contains l then i else { i with libraries := i.libraries ++ [l] }

def record (i : Imports) (header : String) (r : Resolution) : Imports :=
  { i with resolutions := i.resolutions.insert header r }

theorem contains_of_findByName? {i : Imports} {name : String} {l : Library}
    (h : i.findByName? name = some l) : i.contains l = true :=
  List.any_eq_true.2 ⟨l, List.mem_of_find?_eq_some h, l.same_refl⟩

theorem contains_insert (i : Imports) (l m : Library) :
    (i.insert l).contains m = (i.contains m || l.same m) := by
  unfold insert
  split
  · rename_i h
    cases hs : l.same m with
    | false => simp
    | true =>
      obtain ⟨d, hd, he⟩ := List.any_eq_true.1 h
      have : i.contains m = true :=
        List.any_eq_true.2 ⟨d, hd, Path.same_iff.2 ((Path.same_iff.1 he).trans (Path.same_iff.1 hs))⟩
      simp [this]
  · simp [contains]

end Imports

end SketchPrep
