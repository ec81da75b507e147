import SketchPrep.Imports
import SketchPrep.Platform
import SketchPrep.Text.LetterCase
import SketchPrep.Text.Search

namespace SketchPrep.Selection

/-- How a library's name can fit a header's, best first. -/
inductive NameMatch where
  | exact
  | master
  | starts
  | ends
  | contains
deriving DecidableEq, Inhabited

def NameMatch.all : List NameMatch := [.exact, .master, .starts, .ends, .contains]

def masterEnd : List Char := "-master".toList

def NameMatch.holds : NameMatch → (name stem : List Char) → Bool
  | .exact, name, stem => name == stem
  | .master, name, stem => Text.withoutEnd? masterEnd name == some stem
  | .starts, name, stem => stem.isPrefixOf name
  | .ends, name, stem => stem.isSuffixOf name
  | .contains, name, stem => Text.occurs stem name

def stemOf (header : List Char) : List Char :=
  match Text.cutLast '.' header with
  | some (stem, _) => stem
  | none => header

def sanitize (name : List Char) : List Char :=
  name.map fun c => if c.isAlphanum || c == '.' || c == '_' || c == '-' then c else '_'

structure NameTest where
  lowered : Bool
  kind : NameMatch
deriving DecidableEq, Inhabited

def NameTest.all : List NameTest := NameMatch.all.map (⟨false, ·⟩) ++ NameMatch.all.map (⟨true, ·⟩)

def NameTest.passes (test : NameTest) (header : String) (l : Library) : Bool :=
  let stem := stemOf header.toList
  let name := sanitize l.name.toList
  if test.lowered then test.kind.holds (Text.lower name) (Text.lower stem)
  else test.kind.holds name stem

/-- The first library that passes the first test that any library passes. -/
def bestByName (header : String) (libraries : List Library) : Option Library :=
  NameTest.all.findSome? fun test => libraries.find? (test.passes header)

structure Choice where
  library : Library
  fromPlatform : Bool

def bundled (ps : Platforms) (l : Library) : Bool := ps.contains l.folder

def bestOutside (header : String) (candidates : List Library) (ps : Platforms) : Option Library :=
  let outside := candidates.filter (!bundled ps ·)
  ps.byPriority.findSome? fun p =>
    bestByName header (outside.filter (·.architectures.supports p.id))

def bestInside (header : String) (candidates : List Library) (ps : Platforms) : Option Library :=
  let inside := candidates.filter (bundled ps)
  ps.byPriority.findSome? fun p =>
    bestByName header (inside.filter (·.folder.isWithin p.folder))

def choose (header : String) (candidates : List Library) (imports : Imports) (ps : Platforms) :
    Option Choice :=
  match candidates with
  | [] => none
  | [only] => some ⟨only, bundled ps only⟩
  | candidates =>
    match candidates.find? imports.contains with
    | some l => some ⟨l, bundled ps l⟩
    | none =>
      match bestOutside header candidates ps, bestInside header candidates ps with
      | some l, _ => some ⟨l, false⟩
      | none, some l => some ⟨l, true⟩
      | none, none => candidates.getLast?.map fun l => ⟨l, bundled ps l⟩

/-- The library for a header. An imported library takes the place of a candidate with its name. -/
def resolve (header : String) (candidates : List Library) (imports : Imports) (ps : Platforms) :
    Option Resolution :=
  (choose header candidates imports ps).map fun choice =>
    let library := (imports.findByName? choice.library.name).getD choice.library
    { library := library
      fromPlatform := choice.fromPlatform
      notUsed := candidates.filter (!·.same library) }

theorem mem_of_bestByName {header : String} {libraries : List Library} {l : Library}
    (h : bestByName header libraries = some l) : l ∈ libraries := by
  obtain ⟨_, _, hf⟩ := List.exists_of_findSome?_eq_some h
  exact List.mem_of_find?_eq_some hf

theorem mem_of_bestOutside {header : String} {candidates : List Library} {ps : Platforms} {l : Library}
    (h : bestOutside header candidates ps = some l) : l ∈ candidates := by
  obtain ⟨_, _, hf⟩ := List.exists_of_findSome?_eq_some h
  exact (List.mem_filter.1 (List.mem_filter.1 (mem_of_bestByName hf)).1).1

theorem mem_of_bestInside {header : String} {candidates : List Library} {ps : Platforms} {l : Library}
    (h : bestInside header candidates ps = some l) : l ∈ candidates := by
  obtain ⟨_, _, hf⟩ := List.exists_of_findSome?_eq_some h
  exact (List.mem_filter.1 (List.mem_filter.1 (mem_of_bestByName hf)).1).1

theorem mem_of_choose {header : String} {candidates : List Library} {imports : Imports}
    {ps : Platforms} {choice : Choice} (h : choose header candidates imports ps = some choice) :
    choice.library ∈ candidates := by
  unfold choose at h
  split at h
  · cases h
  · cases h; simp
  · split at h
    · cases h; exact List.mem_of_find?_eq_some ‹_›
    · split at h
      · cases h; exact mem_of_bestOutside ‹_›
      · cases h; exact mem_of_bestInside ‹_›
      · obtain ⟨l, hl, rfl⟩ := Option.map_eq_some_iff.1 h
        exact List.mem_of_getLast? hl

theorem mem_of_resolve {header : String} {candidates : List Library} {imports : Imports}
    {ps : Platforms} {r : Resolution} (h : resolve header candidates imports ps = some r) :
    r.library ∈ candidates ∨ r.library ∈ imports.libraries := by
  obtain ⟨choice, hc, rfl⟩ := Option.map_eq_some_iff.1 h
  cases hf : imports.findByName? choice.library.name with
  | none => exact .inl (by simpa [hf] using mem_of_choose hc)
  | some l => exact .inr (by simpa [hf] using List.mem_of_find?_eq_some hf)

end SketchPrep.Selection
