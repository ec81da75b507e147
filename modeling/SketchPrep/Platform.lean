import SketchPrep.FileTree.Basic

namespace SketchPrep

structure Platform where
  id : String
  folder : Path
deriving DecidableEq, Inhabited

namespace Platform

def librariesFolder (p : Platform) : Path := p.folder / "libraries"

def normalize (t : FileTree) (p : Platform) : Platform := { p with folder := t.normalize p.folder }

def contains (p : Platform) (path : Path) : Bool := path.isWithin p.folder

end Platform

structure Platforms where
  core : Platform
  target : Platform
deriving DecidableEq, Inhabited

namespace Platforms

def of (t : FileTree) (core target : Platform) : Platforms := ⟨core.normalize t, target.normalize t⟩

def single (t : FileTree) (p : Platform) : Platforms := of t p p

def byPriority (ps : Platforms) : List Platform := [ps.core, ps.target]

def contains (ps : Platforms) (path : Path) : Bool := ps.byPriority.any (·.contains path)

end Platforms

end SketchPrep
