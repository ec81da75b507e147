import SketchPrep.Library.Basic

namespace SketchPrep.Library

def mandatory : List String := ["name", "version", "author", "maintainer"]

def optional : List String := ["sentence", "paragraph", "url"]

def categories : List String :=
  ["Display", "Communication", "Signal Input/Output", "Sensors", "Device Control", "Timing",
    "Data Storage", "Data Processing", "Other", uncategorized]

def readProperties (t : FileTree) (file : Path) : Except Failure Properties := do
  let text ← attempting (.readingProperties file) (t.readText file)
  attempting (.parsingProperties file) ((Properties.parse text).mapError .badLine)

def withMaintainer (ps : Properties) : Properties :=
  match ps.has "maintainer", ps.value? "email" with
  | false, some email => ps.insert "maintainer" email
  | _, _ => ps

def withOptional (ps : Properties) : Properties :=
  optional.foldl (fun ps key => if ps.has key then ps else ps.insert key "-") ps

def spuriousFolders (entries : List (String × Entry)) : List String :=
  (entries.filter fun (name, entry) => entry = .folder && FileTree.isIgnoredName name).map (·.1)

def loadDescribed (t : FileTree) (folder : Path) : Except Failure Library := do
  let written ← readProperties t (folder / propertiesFile)
  let maintained := withMaintainer written
  let properties := withOptional maintained
  let nested := t.isFolder (folder / "src")
  let defects :=
    (if t.isFolder (folder / "arch") then [.archFolder] else []) ++
      (mandatory.filter fun key => (maintained.find? key).isNone).map .missingProperty ++
      (if nested && t.isFolder (folder / "utility") then [.sourceAndUtility] else [])
  let realName := properties.valueOr "name" folder.fileName
  let entries ← attempting (.listingFolder folder) (ofTree (t.list folder))
  let field := fun key =>
    String.ofList (Text.trim ((properties.find? key).getD "").toList)
  let category := field "category"
  let known := categories.contains category
  return {
    name := folder.fileName
    realName := realName
    folder := folder
    sourceFolder := if nested then folder / "src" else folder
    layout := if nested then .nested else .flat
    architectures := .parse ((properties.find? "architectures").getD "*")
    category := if known then category else uncategorized
    license := properties.valueOr "license" "Unspecified"
    legacy := false
    version := field "version"
    author := field "author"
    maintainer := field "maintainer"
    sentence := field "sentence"
    paragraph := field "paragraph"
    url := field "url"
    dotALinkage := field "dot_a_linkage" == "true"
    properties := properties
    defects := defects
    notices :=
      ((spuriousFolders entries).map fun name =>
        "WARNING: Spurious " ++ name ++ " folder in '" ++ realName ++ "' library") ++
      (if known then []
        else ["Category '" ++ category ++ "' in library " ++ realName ++
          " is not valid. Setting to '" ++ uncategorized ++ "'"]) }

def load (t : FileTree) (folder : Path) : Except Failure Library :=
  if t.isFile (folder / propertiesFile) then loadDescribed t folder else .ok (legacyAt folder)

end SketchPrep.Library
