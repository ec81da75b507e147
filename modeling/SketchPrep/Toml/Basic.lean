namespace SketchPrep

inductive TableOrigin where
  | inline
  | implied
  | dotted
  | header
deriving DecidableEq, Inhabited

/-- Floating numbers and dates are kept as they are written. -/
inductive Toml where
  | text (s : String)
  | integer (n : Int)
  | float (written : String)
  | boolean (b : Bool)
  | moment (written : String)
  | array (isOpen : Bool) (items : List Toml)
  | table (origin : TableOrigin) (entries : List (String × Toml))
deriving Inhabited

namespace Toml

abbrev Entries := List (String × Toml)

def putEntry (key : String) (value : Toml) : Entries → Entries
  | [] => [(key, value)]
  | (k, v) :: rest => if k = key then (k, value) :: rest else (k, v) :: putEntry key value rest

/-- Changes the table that a path leads to. Tables on the way that do not exist begin by `byDots`: with
a key with dots, which cannot go into a table with a header of its own, or with a header. Complete
values cannot be entered. -/
def changeAt (byDots : Bool) (change : TableOrigin → Entries → Option Entries) :
    (path : List String) → TableOrigin → Entries → Option Entries
  | [], origin, entries => change origin entries
  | key :: path, _, entries =>
    match entries.lookup key with
    | none => do
      let origin := if byDots then .dotted else .implied
      return putEntry key (.table origin (← changeAt byDots change path origin [])) entries
    | some (.table origin inner) =>
      if origin = .inline || (byDots && origin = .header) then none
      else do return putEntry key (.table origin (← changeAt byDots change path origin inner)) entries
    | some (.array true items) =>
      match items.getLast? with
      | some (.table origin inner) => do
        let last := Toml.table origin (← changeAt byDots change path origin inner)
        return putEntry key (.array true (items.dropLast ++ [last])) entries
      | _ => none
    | some _ => none

def addKey (path : List String) (key : String) (value : Toml) :
    TableOrigin → Entries → Option Entries :=
  changeAt true
    (fun origin entries =>
      if (origin == .dotted) == path.isEmpty || (entries.lookup key).isSome then none
      else some (entries ++ [(key, value)])) path

structure Setting where
  path : List String
  key : String
  value : Toml

def addSettings (origin : TableOrigin) : List Setting → Entries → Option Entries
  | [], entries => some entries
  | s :: rest, entries => do addSettings origin rest (← addKey s.path s.key s.value origin entries)

inductive Header where
  | root
  | table (path : List String) (key : String)
  | item (path : List String) (key : String)

structure Section where
  header : Header
  settings : List Setting

/-- Adds a section to a document. A table can be given a header of its own if it has begun by headers of
tables inside it. -/
def addSection (root : Entries) (s : Section) : Option Entries :=
  match s.header with
  | .root => addSettings .header s.settings root
  | .table path key =>
    changeAt false
      (fun _ entries => do
        let before ← match entries.lookup key with
          | none => some []
          | some (.table .implied inner) => some inner
          | some _ => none
        return putEntry key (.table .header (← addSettings .header s.settings before)) entries)
      path .header root
  | .item path key =>
    changeAt false
      (fun _ entries => do
        let before ← match entries.lookup key with
          | none => some []
          | some (.array true items) => some items
          | some _ => none
        let item := Toml.table .header (← addSettings .header s.settings [])
        return putEntry key (.array true (before ++ [item])) entries)
      path .header root

def ofSections (sections : List Section) : Option Toml := do
  return .table .header (← sections.foldlM addSection [])

end Toml

end SketchPrep
