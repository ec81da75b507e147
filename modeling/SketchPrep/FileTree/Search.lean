import SketchPrep.FileTree.Basic
import SketchPrep.Pattern

namespace SketchPrep

structure PathPattern where
  start : Path
  components : List Pattern
  onlyFolders : Bool

namespace PathPattern

def piecesOf (text : List Char) : List (List Char) :=
  let pieces := text.splitOn '/'
  if pieces.getLast? = some [] then pieces.dropLast else pieces

def parse (text : String) : Except PatternError PathPattern := do
  let chars := text.toList
  let _ ← Pattern.parse chars
  let rest := if chars.head? = some '/' then chars.tail else chars
  let components ← (piecesOf rest).mapM Pattern.parse
  return {
    start := ⟨if chars.head? = some '/' then "/" else "."⟩
    components := if rest.isEmpty then [[]] else components
    onlyFolders := chars.getLast? = some '/' }

end PathPattern

namespace FileTree

/-- The path of an entry of `folder`. The dot of the start is not part of it. -/
def inside (folder : Path) (name : String) : Path :=
  if folder.same ⟨"."⟩ then ⟨name⟩ else folder / name

def dotsFor (pattern : Pattern) : List String :=
  if pattern.head? = some (.char '.') then ["..", "."].filter (pattern.fits ·.toList) else []

/-- Everything at or below `p` that satisfies the components. A pattern for any folders stays for the
folders below, and the components after it are tried at every depth. What a folder itself satisfies comes
before what is below it. At most `n` steps are taken. -/
def matching (t : FileTree) (onlyFolders : Bool) : Nat → List Pattern → Path → List Path
  | 0, _, _ => []
  | _ + 1, [], p => if onlyFolders && !t.isFolder p then [] else [p]
  | n + 1, pattern :: rest, p =>
    match pattern.literal? with
    | some name =>
      let name := String.ofList name
      let next := inside p name
      if if name = "." ∨ name = ".." then t.isFolder p else t.hasEntry next then
        t.matching onlyFolders n rest next
      else []
    | none =>
      let dots := if t.isFolder p then dotsFor pattern else []
      let names := (((t.list p).toOption.getD []).map (·.1)).mergeSort fun a b => decide (a ≤ b)
      dots.flatMap (fun dot => t.matching onlyFolders n rest (p / dot)) ++
        names.flatMap fun name =>
          let next := inside p name
          if pattern.isRecursive then
            let rest := rest.dropWhile Pattern.isRecursive
            (match rest with
              | [] => if t.isFolder next then [next] else []
              | pattern :: rest =>
                if pattern.fits name.toList then t.matching onlyFolders n rest next else []) ++
              if t.isFolder next then t.matching onlyFolders n (pattern :: rest) next else []
          else if pattern.fits name.toList then t.matching onlyFolders n rest next
          else []

/-- More steps than any path needs: links end after their limit, and between two of them a path
goes down, but for the steps up that the pattern asks for. -/
def searchBound (t : FileTree) (pattern : PathPattern) : Nat :=
  (linkLimit + 1 + pattern.components.length) * (t.entries.length + 2) + pattern.components.length

def search (t : FileTree) (pattern : PathPattern) : List Path :=
  t.matching pattern.onlyFolders (t.searchBound pattern) pattern.components pattern.start

def filesMatching (t : FileTree) (base : Path) (patterns : List String) :
    Except (String × PatternError) (List Path) := do
  let found ← patterns.mapM fun pattern =>
    match PathPattern.parse (base / pattern).text with
    | .ok parsed => .ok (t.search parsed)
    | .error e => .error (pattern, e)
  return Path.withoutRepeats (Path.sort (found.flatten.filter t.isFile))

end FileTree

end SketchPrep
