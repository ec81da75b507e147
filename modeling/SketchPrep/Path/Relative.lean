import SketchPrep.Path.Basic

namespace SketchPrep.Path

/-- Components that lead to `path` from `base`. A step up out of `base` cannot be undone when its
name is not known, so there is no way then. `moved` tells that a component was already taken. -/
def wayTo (moved : Bool) : (path base : List Component) → Option (List Component)
  | [], [] => some []
  | path, [] => some path
  | [], base => some (base.map fun _ => .up)
  | a :: path, b :: base =>
    if !moved && a = b then wayTo false path base
    else match b with
      | .here => (wayTo true path base).map (a :: ·)
      | .up => none
      | _ => some ((b :: base).map (fun _ => .up) ++ a :: path)

def relativeTo (p base : Path) : Path :=
  if p.isAbsolute != base.isAbsolute then p
  else match wayTo false p.components base.components with
    | some way => ofComponents way
    | none => p

end SketchPrep.Path
