import SketchPrep.Path.Basic

namespace SketchPrep

abbrev Location := List String

inductive Entry where
  | file (content : ByteArray) (runnable : Bool)
  | link (target : String)
  | folder
deriving Inhabited

def Entry.decEq : (a b : Entry) → Decidable (a = b)
  | .file c r, .file d s =>
    match ByteArray.decEq c d, Bool.decEq r s with
    | isTrue hc, isTrue hr => isTrue (by rw [hc, hr])
    | isFalse h, _ => isFalse fun e => h (Entry.file.inj e).1
    | _, isFalse h => isFalse fun e => h (Entry.file.inj e).2
  | .link s, .link t =>
    match instDecidableEqString s t with
    | isTrue h => isTrue (by rw [h])
    | isFalse h => isFalse fun e => h (Entry.link.inj e)
  | .folder, .folder => isTrue rfl
  | .file .., .link _ | .file .., .folder | .link _, .file .. | .link _, .folder
  | .folder, .file .. | .folder, .link _ => isFalse nofun

instance : DecidableEq Entry := Entry.decEq

/-- The entries below the root, and the folder from which relative paths start. -/
structure FileTree where
  entries : List (Location × Entry)
  here : Location

inductive TreeError where
  | missing
  | notFormat
  | denied
  | occupied
  | notFolder
  | isFolder
  | nameTooLong
  | tooManyLinks
  | nulInPath
  | nulInCommand
deriving DecidableEq, Inhabited

def TreeError.message : TreeError → String
  | .missing => "No such file or directory (os error 2)"
  | .notFormat => "Exec format error (os error 8)"
  | .denied => "Permission denied (os error 13)"
  | .occupied => "File exists (os error 17)"
  | .notFolder => "Not a directory (os error 20)"
  | .isFolder => "Is a directory (os error 21)"
  | .nameTooLong => "File name too long (os error 36)"
  | .nulInPath => "file name contained an unexpected NUL byte"
  | .nulInCommand => "nul byte found in provided data"
  | .tooManyLinks => "Too many levels of symbolic links (os error 40)"

inductive Reached where
  | found (location : Location) (entry : Entry)
  /-- Nothing is there, but the folder that would hold it exists. -/
  | vacant (location : Location)
  | failed (error : TreeError)

inductive Descent where
  | reached (r : Reached)
  | link (folder : Location) (target : String) (rest : List String)

/-- The names that a path's text asks for in turn. A separator at the end asks for a folder. -/
def stepsOf (text : String) : List String :=
  let chars := text.toList
  let names := (chars.splitOn '/').filter fun piece => !piece.isEmpty
  let names := if chars.getLast? == some '/' then names ++ [['.']] else names
  names.map String.ofList

def isRooted (text : String) : Bool := text.toList.head? == some '/'

def Location.path (location : Location) : Path := ⟨"/" ++ "/".intercalate location⟩

namespace FileTree

def find? (t : FileTree) (location : Location) : Option Entry :=
  if location.isEmpty then some .folder else t.entries.lookup location

def nameLimit : Nat := 255

def pathLimit : Nat := 4096

/-- Follows names down from `folder` as far as the first link. A link in the last place is only
followed if `last` says so. -/
def descend (t : FileTree) (last : Bool) (folder : Location) : List String → Descent
  | [] =>
    match t.find? folder with
    | some entry => .reached (.found folder entry)
    | none => .reached (.failed .missing)
  | name :: rest =>
    match t.find? folder with
    | some .folder =>
      if name = "." then t.descend last folder rest
      else if name = ".." then t.descend last folder.dropLast rest
      else if nameLimit < name.utf8ByteSize then .reached (.failed .nameTooLong)
      else match t.find? (folder ++ [name]) with
        | none =>
          if rest.isEmpty then .reached (.vacant (folder ++ [name])) else .reached (.failed .missing)
        | some (.link target) =>
          if rest.isEmpty && !last then .reached (.found (folder ++ [name]) (.link target))
          else .link folder target rest
        | some _ => t.descend last (folder ++ [name]) rest
    | some _ => .reached (.failed .notFolder)
    | none => .reached (.failed .missing)

def walk (t : FileTree) (last : Bool) : Nat → Location → List String → Reached
  | links, folder, names =>
    match t.descend last folder names with
    | .reached r => r
    | .link place target rest =>
      match links with
      | 0 => .failed .tooManyLinks
      | links + 1 => t.walk last links (if isRooted target then [] else place) (stepsOf target ++ rest)

def linkLimit : Nat := 40

def startOf (t : FileTree) (text : String) : Location := if isRooted text then [] else t.here

def reachText (t : FileTree) (last : Bool) (text : String) : Reached :=
  if text.isEmpty then .failed .missing
  else if text.toList.contains '\x00' then .failed .nulInPath
  else if pathLimit ≤ text.utf8ByteSize then .failed .nameTooLong
  else t.walk last linkLimit (t.startOf text) (stepsOf text)

def reach (t : FileTree) (p : Path) : Reached := t.reachText true p.text

def entry? (t : FileTree) (p : Path) : Except TreeError (Location × Entry) :=
  match t.reach p with
  | .found location entry => .ok (location, entry)
  | .vacant _ => .error .missing
  | .failed e => .error e

def isFile (t : FileTree) (p : Path) : Bool :=
  match t.entry? p with
  | .ok (_, .file ..) => true
  | _ => false

def isFolder (t : FileTree) (p : Path) : Bool :=
  match t.entry? p with
  | .ok (_, .folder) => true
  | _ => false

def hasEntry (t : FileTree) (p : Path) : Bool :=
  match t.entry? p with
  | .ok _ => true
  | .error _ => false

def isRunnable (t : FileTree) (p : Path) : Bool :=
  match t.entry? p with
  | .ok (_, .file _ runnable) => runnable
  | _ => false

/-- The one path, without links and steps up, of what `p` leads to. -/
def canonical (t : FileTree) (p : Path) : Except TreeError Path :=
  (t.entry? p).map fun (location, _) => location.path

def normalize (t : FileTree) (p : Path) : Path :=
  match t.canonical p with
  | .ok q => q
  | .error _ => p

def read (t : FileTree) (p : Path) : Except TreeError ByteArray :=
  match t.entry? p with
  | .ok (_, .file content _) => .ok content
  | .ok _ => .error .isFolder
  | .error e => .error e

def children (t : FileTree) (location : Location) : List (String × Entry) :=
  t.entries.filterMap fun (place, entry) =>
    match location.isPrefixOf? place with
    | some [name] => some (name, entry)
    | _ => none

def list (t : FileTree) (p : Path) : Except TreeError (List (String × Entry)) :=
  match t.entry? p with
  | .ok (location, .folder) => .ok (t.children location)
  | .ok _ => .error .notFolder
  | .error e => .error e

/-- Everything below `location` whose names from there on all satisfy `keep`. A folder that does
not is left out with all that it holds. -/
def below (t : FileTree) (keep : String → Bool) (location : Location) : List (Location × Entry) :=
  t.entries.filterMap fun (place, entry) =>
    match location.isPrefixOf? place with
    | some [] => none
    | some way => if way.all keep then some (way, entry) else none
    | none => none

end FileTree

end SketchPrep
