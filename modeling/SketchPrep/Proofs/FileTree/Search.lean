import Mathlib.Data.List.Basic
import SketchPrep.FileTree.Access
import SketchPrep.Proofs.Failure
import SketchPrep.Proofs.Path.Location
import SketchPrep.Proofs.Path.Order

namespace SketchPrep

/-- Characters that stand for themselves in a pattern. -/
def Pattern.isVerbatim (text : List Char) : Bool := text.all fun c => c != '?' && c != '*' && c != '['

/-- Stands for names of entries only: neither for the dots that name a folder, nor for other texts. -/
def Pattern.isSober (pattern : Pattern) : Bool :=
  match pattern.literal? with
  | some name => Path.isPlain (String.ofList name)
  | none => pattern.head? != some (.char '.')

def FileTree.WellNamed (t : FileTree) : Prop := ∀ e ∈ t.entries, Location.IsPlain e.1

namespace Pattern

variable {text : List Char}

theorem parseFrom_verbatim (h : isVerbatim text = true) {n : Nat} (hn : text.length ≤ n) (place : Nat)
    (before : Option Char) (tokens : Pattern) :
    parseFrom n place before tokens text = .ok (tokens ++ text.map .char) := by
  induction text generalizing n place before tokens with
  | nil => cases n <;> simp [parseFrom]
  | cons c rest ih =>
      obtain ⟨⟨⟨hq, hs⟩, hb⟩, hrest⟩ : ((c ≠ '?' ∧ c ≠ '*') ∧ c ≠ '[') ∧ isVerbatim rest = true := by
        simpa [isVerbatim] using h
      cases n with
      | zero => cases hn
      | succ n =>
          rw [parseFrom, if_neg hq, if_neg hs, if_neg hb, ih hrest (Nat.le_of_succ_le_succ hn)]
          simp

theorem parse_verbatim (h : isVerbatim text = true) : parse text = .ok (text.map .char) :=
  parseFrom_verbatim h (Nat.le_refl _) 0 none []

theorem literal?_map_char (text : List Char) : literal? (text.map .char) = some text := by
  induction text with
  | nil => rfl
  | cons c rest ih => rw [List.map_cons, literal?, ih]; rfl

end Pattern

namespace FileTree

variable {t : FileTree} {location names : Location} {pattern : Pattern} {components : List Pattern}
  {onlyFolders : Bool} {n : Nat} {p q : Path}

theorem inside_path (h : location.IsPlain) {name : String} (hn : Path.isPlain name = true) :
    inside location.path name = (location ++ [name]).path := by
  have hdot : location.path.same ⟨"."⟩ = false := by
    rw [Path.same, Location.components_path h]
    rfl
  rw [inside, hdot]
  exact Location.path_div h hn

theorem isPrefixOf?_append (location names : Location) :
    location.isPrefixOf? (location ++ names) = some names := by
  induction location with
  | nil => rfl
  | cons name location ih => simp [List.isPrefixOf?, ih]

theorem mem_children_iff {name : String} {entry : Entry} :
    (name, entry) ∈ t.children location ↔ (location ++ [name], entry) ∈ t.entries := by
  constructor
  · intro hm
    obtain ⟨⟨place, found⟩, hplace, hname⟩ := List.mem_filterMap.1 hm
    dsimp only at hname
    split at hname
    · rename_i hprefix
      cases hname
      rwa [List.append_eq_of_isPrefixOf?_eq_some hprefix]
    · cases hname
  · intro hm
    refine List.mem_filterMap.2 ⟨_, hm, ?_⟩
    dsimp only
    rw [isPrefixOf?_append]

theorem WellNamed.children (ht : t.WellNamed) {e : String × Entry} (he : e ∈ t.children location) :
    Path.isPlain e.1 = true := ht _ (mem_children_iff.1 he) e.1 (by simp)

theorem WellNamed.list (ht : t.WellNamed) {name : String}
    (h : name ∈ ((t.list p).toOption.getD []).map (·.1)) : Path.isPlain name = true := by
  obtain ⟨e, he, rfl⟩ := List.mem_map.1 h
  unfold FileTree.list at he
  split at he
  · exact ht.children he
  · cases he
  · cases he

theorem matching_literal (h : location.IsPlain) {name : String} (hn : Path.isPlain name = true) :
    t.matching onlyFolders (n + 1) (name.toList.map .char :: components) location.path =
      if t.hasEntry (Location.path (location ++ [name])) then
        t.matching onlyFolders n components (Location.path (location ++ [name]))
      else [] := by
  have hdots : ¬ (name = "." ∨ name = "..") := by
    rintro (rfl | rfl)
    · exact absurd hn (by decide)
    · exact absurd hn (by decide)
  rw [matching, Pattern.literal?_map_char]
  simp only [String.ofList_toList, inside_path h hn, if_neg hdots]

theorem mem_matching_literal (h : location.IsPlain) {name : String} (hn : Path.isPlain name = true)
    (hq : q ∈ t.matching onlyFolders n (name.toList.map .char :: components) location.path) :
    ∃ m, q ∈ t.matching onlyFolders m components (location ++ [name]).path := by
  cases n with
  | zero => cases hq
  | succ n =>
      rw [matching_literal h hn] at hq
      exact ⟨n, (List.mem_ite_nil_right.1 hq).2⟩

/-- One step of a search goes to an entry, and on from there with some of the components. -/
theorem mem_matching_cons (ht : t.WellNamed) (h : location.IsPlain) (hs : pattern.isSober = true)
    (hq : q ∈ t.matching onlyFolders (n + 1) (pattern :: components) location.path) :
    ∃ name, Path.isPlain name = true ∧ (q = (location ++ [name]).path ∨
      ∃ rest, rest ⊆ pattern :: components ∧
        q ∈ t.matching onlyFolders n rest (location ++ [name]).path) := by
  rw [matching] at hq
  unfold Pattern.isSober at hs
  split at hq
  · rename_i name hliteral
    rw [hliteral] at hs
    simp only at hq
    rw [inside_path h hs] at hq
    exact ⟨_, hs, .inr ⟨components, List.subset_cons_self _ _, (List.mem_ite_nil_right.1 hq).2⟩⟩
  · rename_i hliteral
    rw [hliteral] at hs
    have hdots : dotsFor pattern = [] := if_neg (by simpa using hs)
    rw [hdots] at hq
    simp only [ite_self, List.flatMap_nil, List.nil_append, List.mem_flatMap, List.mem_mergeSort] at hq
    obtain ⟨name, hname, hq⟩ := hq
    have hn : Path.isPlain name = true := ht.list hname
    rw [inside_path h hn] at hq
    refine ⟨name, hn, ?_⟩
    -- any folders: what follows them is tried here, and the same pattern further down
    split at hq
    · have hdrop : components.dropWhile Pattern.isRecursive ⊆ components := (List.dropWhile_suffix _).subset
      rcases List.mem_append.1 hq with hq | hq
      · split at hq
        · exact .inl (List.mem_singleton.1 (List.mem_ite_nil_right.1 hq).2)
        · rename_i next rest hrest
          have hsub : rest ⊆ pattern :: components := fun c hc =>
            List.mem_cons_of_mem _ (hdrop (hrest ▸ List.mem_cons_of_mem _ hc))
          exact .inr ⟨rest, hsub, (List.mem_ite_nil_right.1 hq).2⟩
      · exact .inr ⟨_, List.cons_subset_cons pattern hdrop, (List.mem_ite_nil_right.1 hq).2⟩
    · exact .inr ⟨components, List.subset_cons_self _ _, (List.mem_ite_nil_right.1 hq).2⟩

theorem mem_matching (ht : t.WellNamed) (h : location.IsPlain)
    (hs : ∀ pattern ∈ components, pattern.isSober = true)
    (hq : q ∈ t.matching onlyFolders n components location.path) :
    ∃ names : Location, names.IsPlain ∧ (components ≠ [] → names ≠ []) ∧ q = (location ++ names).path := by
  induction n generalizing location components with
  | zero => cases hq
  | succ n ih =>
      cases components with
      | nil =>
          rw [matching] at hq
          split at hq
          · cases hq
          · exact ⟨[], nofun, fun hne => absurd rfl hne, by simpa using hq⟩
      | cons pattern components =>
          obtain ⟨name, hn, rfl | ⟨rest, hsub, hq⟩⟩ :=
            mem_matching_cons ht h (hs pattern List.mem_cons_self) hq
          · exact ⟨[name], Location.isPlain_singleton.2 hn, fun _ => List.cons_ne_nil name [], rfl⟩
          · have hdown : Location.IsPlain (location ++ [name]) := h.append (Location.isPlain_singleton.2 hn)
            obtain ⟨names, hnames, -, rfl⟩ := ih hdown (fun pattern hp => hs pattern (hsub hp)) hq
            refine ⟨name :: names, List.forall_mem_cons.2 ⟨hn, hnames⟩, fun _ => List.cons_ne_nil name names, ?_⟩
            rw [List.append_assoc]
            rfl

theorem mem_matching_verbatim (h : location.IsPlain) (hn : names.IsPlain)
    (hq : q ∈ t.matching onlyFolders n (names.map (fun name => name.toList.map .char) ++ components)
      location.path) : ∃ m, q ∈ t.matching onlyFolders m components (location ++ names).path := by
  induction names generalizing location n with
  | nil => exact ⟨n, by simpa using hq⟩
  | cons name names ih =>
      obtain ⟨hname, hnames⟩ := List.forall_mem_cons.1 hn
      obtain ⟨m, hq⟩ := mem_matching_literal h hname hq
      obtain ⟨k, hq⟩ := ih (h.append (Location.isPlain_singleton.2 hname)) hnames hq
      refine ⟨k, ?_⟩
      rw [List.append_assoc] at hq
      exact hq

theorem afterDistinct_sublist (p : Path) (ps : List Path) : (Path.afterDistinct p ps).Sublist (p :: ps) := by
  induction ps generalizing p with
  | nil => exact List.Sublist.refl _
  | cons first ps ih =>
      rw [Path.afterDistinct]
      split
      · exact (ih p).trans ((List.sublist_cons_self first ps).cons_cons p)
      · exact (ih first).cons_cons p

theorem withoutRepeats_sublist (ps : List Path) : (Path.withoutRepeats ps).Sublist ps := by
  cases ps with
  | nil => exact List.Sublist.refl _
  | cons p ps => exact afterDistinct_sublist p ps

theorem mem_of_mem_afterDistinct {ps : List Path} (hq : q ∈ Path.afterDistinct p ps) : q ∈ p :: ps :=
  (afterDistinct_sublist p ps).subset hq

theorem mem_of_mem_withoutRepeats {ps : List Path} (hq : q ∈ Path.withoutRepeats ps) : q ∈ ps :=
  (withoutRepeats_sublist ps).subset hq

/-- Repetitions of a path stand together in a sorted list. -/
theorem pairwise_afterDistinct {ps : List Path} (h : (p :: ps).Pairwise fun p q => p.le q = true) :
    (Path.afterDistinct p ps).Pairwise fun p q => p.same q = false := by
  induction ps generalizing p with
  | nil => exact List.pairwise_singleton _ p
  | cons q ps ih =>
      obtain ⟨hp, hq⟩ := List.pairwise_cons.1 h
      rw [Path.afterDistinct]
      split
      · exact ih (h.sublist ((List.sublist_cons_self q ps).cons_cons p))
      · rename_i hpq
        refine List.pairwise_cons.2 ⟨fun r hr => ?_, ih hq⟩
        rw [Bool.eq_false_iff]
        intro hpr
        rcases List.mem_cons.1 (mem_of_mem_afterDistinct hr) with rfl | hr
        · exact hpq hpr
        · -- what comes after `q` would come before it too
          have hqp : q.le p = true := by
            rw [Path.le, Path.same_iff.1 hpr]
            exact (List.pairwise_cons.1 hq).1 r hr
          exact hpq (Path.same_of_le_of_le (hp q List.mem_cons_self) hqp)

theorem pairwise_findFiles {base : Path} {patterns : List String} {found : List Path}
    (hfound : t.findFiles base patterns = .ok found) : found.Pairwise fun p q => p.same q = false := by
  obtain ⟨results, -, hpaths⟩ := exists_of_bind_ok (ok_of_mapError hfound)
  obtain rfl := Except.ok.inj hpaths
  have hsorted := Path.pairwise_sort (results.flatten.filter t.isFile)
  cases hs : Path.sort (results.flatten.filter t.isFile) with
  | nil => exact List.Pairwise.nil
  | cons p ps =>
      rw [hs] at hsorted
      exact pairwise_afterDistinct hsorted

theorem mapM_parse_verbatim (hv : ∀ name ∈ location, Pattern.isVerbatim name.toList = true) :
    (location.map String.toList).mapM Pattern.parse =
      .ok (location.map fun name => name.toList.map .char) := by
  induction location with
  | nil => rfl
  | cons name rest ih =>
      obtain ⟨hname, hrest⟩ := List.forall_mem_cons.1 hv
      rw [List.map_cons, List.mapM_cons, Pattern.parse_verbatim hname, ih hrest]
      rfl

theorem parse_join_path (h : location.IsPlain)
    (hv : ∀ name ∈ location, Pattern.isVerbatim name.toList = true) {text : String}
    (habs : (⟨text⟩ : Path).isAbsolute = false) (hlast : (text.toList.splitOn '/').getLast? ≠ some [])
    {parsed : PathPattern} (hp : PathPattern.parse (location.path / text).text = .ok parsed) :
    ∃ rest, (text.toList.splitOn '/').mapM Pattern.parse = .ok rest ∧ parsed.start = Location.path [] ∧
      parsed.components = location.map (fun name => name.toList.map .char) ++ rest := by
  have hchars : (location.path / text).text.toList =
      '/' :: ['/'].intercalate (location.map String.toList ++ [text.toList]) :=
    Location.toList_join_path h habs
  have hpieces : (['/'].intercalate (location.map String.toList ++ [text.toList])).splitOn '/' =
      location.map String.toList ++ text.toList.splitOn '/' :=
    Path.splitOn_intercalate_append h.slash_not_mem text.toList
  have hend : (location.map String.toList ++ text.toList.splitOn '/').getLast? ≠ some [] := by
    rwa [List.getLast?_append_of_ne_nil _ (List.splitOn_ne_nil '/' text.toList)]
  unfold PathPattern.parse at hp
  rw [hchars] at hp
  generalize ['/'].intercalate (location.map String.toList ++ [text.toList]) = below at hp hpieces
  obtain ⟨whole, -, hp⟩ := exists_of_bind_ok hp
  simp only [List.head?_cons, if_true, List.tail_cons, PathPattern.piecesOf, hpieces, if_neg hend,
    List.mapM_append, mapM_parse_verbatim hv] at hp
  obtain ⟨components, hcomponents, hp⟩ := exists_of_bind_ok hp
  obtain ⟨first, hfirst, hcomponents⟩ := exists_of_bind_ok hcomponents
  obtain ⟨rest, hrest, hcomponents⟩ := exists_of_bind_ok hcomponents
  have hne : below.isEmpty = false := by
    cases below with
    | nil => rw [← hpieces] at hend; exact absurd rfl hend
    | cons => rfl
  rw [hne] at hp
  cases hp
  cases hfirst
  cases hcomponents
  exact ⟨rest, hrest, rfl, rfl⟩

def isSearchable (text : String) : Bool :=
  let pieces := text.toList.splitOn '/'
  !(⟨text⟩ : Path).isAbsolute && pieces.getLast? != some [] &&
    pieces.all fun piece => (Pattern.parse piece).toOption.all Pattern.isSober

theorem exists_of_mem_findFiles {base : Path} {patterns : List String} {found : List Path}
    (hfound : t.findFiles base patterns = .ok found) (hq : q ∈ found) :
    ∃ text ∈ patterns, ∃ parsed, PathPattern.parse (base / text).text = .ok parsed ∧ q ∈ t.search parsed := by
  obtain ⟨results, hresults, hpaths⟩ := exists_of_bind_ok (ok_of_mapError hfound)
  cases hpaths
  have hsorted := List.mem_mergeSort.1 (mem_of_mem_withoutRepeats hq)
  obtain ⟨result, hresult, hq⟩ := List.mem_flatten.1 (List.mem_filter.1 hsorted).1
  obtain ⟨text, htext, hsearch⟩ := exists_of_mem_mapM hresults hresult
  split at hsearch
  · rename_i parsed hparsed
    cases hsearch
    exact ⟨text, htext, parsed, hparsed, hq⟩
  · cases hsearch

theorem isFile_of_mem_findFiles {base : Path} {patterns : List String} {found : List Path}
    (hfound : t.findFiles base patterns = .ok found) (hq : q ∈ found) : t.isFile q = true := by
  obtain ⟨results, -, hpaths⟩ := exists_of_bind_ok (ok_of_mapError hfound)
  obtain rfl := Except.ok.inj hpaths
  exact (List.mem_filter.1 (List.mem_mergeSort.1 (mem_of_mem_withoutRepeats hq))).2

theorem mem_findFiles (ht : t.WellNamed) (h : location.IsPlain)
    (hv : ∀ name ∈ location, Pattern.isVerbatim name.toList = true) {patterns : List String}
    (hpatterns : ∀ text ∈ patterns, isSearchable text = true) {found : List Path}
    (hfound : t.findFiles location.path patterns = .ok found) (hq : q ∈ found) :
    ∃ names : Location, names.IsPlain ∧ names ≠ [] ∧ q = (location ++ names).path := by
  obtain ⟨text, htext, parsed, hparsed, hq⟩ := exists_of_mem_findFiles hfound hq
  obtain ⟨⟨habs, hlast⟩, hsober⟩ : ((⟨text⟩ : Path).isAbsolute = false ∧
      (text.toList.splitOn '/').getLast? ≠ some []) ∧ ∀ piece ∈ text.toList.splitOn '/',
        (Pattern.parse piece).toOption.all Pattern.isSober = true := by
    simpa [isSearchable] using hpatterns text htext
  obtain ⟨rest, hrest, hstart, hcomponents⟩ := parse_join_path h hv habs hlast hparsed
  rw [search, hstart, hcomponents] at hq
  obtain ⟨m, hq⟩ := mem_matching_verbatim (List.forall_mem_nil _) h hq
  rw [List.nil_append] at hq
  have hpieces : ∀ pattern ∈ rest, pattern.isSober = true := by
    intro pattern hp
    obtain ⟨piece, hpiece, hparse⟩ := exists_of_mem_mapM hrest hp
    have hall := hsober piece hpiece
    rwa [hparse] at hall
  have hne : rest ≠ [] := by
    rintro rfl
    cases hs : text.toList.splitOn '/' with
    | nil => exact List.splitOn_ne_nil '/' text.toList hs
    | cons piece pieces =>
        rw [hs, List.mapM_cons] at hrest
        obtain ⟨first, -, hrest⟩ := exists_of_bind_ok hrest
        obtain ⟨others, -, hrest⟩ := exists_of_bind_ok hrest
        cases hrest
  obtain ⟨names, hnames, hsome, rfl⟩ := mem_matching ht h hpieces hq
  exact ⟨names, hnames, hsome hne, rfl⟩

theorem flatMap_ite_eq {α β : Type} {fits : α → Bool} {g : α → List β} (xs : List α) :
    (xs.flatMap fun x => if fits x = true then g x else []) = (xs.filter fits).flatMap g := by
  induction xs with
  | nil => rfl
  | cons x xs ih =>
      rw [List.flatMap_cons, List.filter_cons, ih]
      split <;> rfl

theorem matching_nil (t : FileTree) (n : Nat) (p : Path) : t.matching false (n + 1) [] p = [p] := rfl

/-- A component that stands for names takes the names that it fits, in a folder whose names are in order. -/
theorem matching_names {names : List String} (hl : pattern.literal? = none) (hd : dotsFor pattern = [])
    (hr : pattern.isRecursive = false) (hn : ((t.list p).toOption.getD []).map (·.1) = names)
    (hs : names.Pairwise (· ≤ ·)) :
    t.matching onlyFolders (n + 1) (pattern :: components) p =
      (names.filter fun name => pattern.fits name.toList).flatMap fun name =>
        t.matching onlyFolders n components (inside p name) := by
  have hsorted : names.mergeSort (fun a b => decide (a ≤ b)) = names :=
    List.mergeSort_of_pairwise (hs.imp fun h => by simpa using h)
  rw [matching, hl]
  simp only [hd, hr, hn, hsorted, ite_self, List.flatMap_nil, List.nil_append, Bool.false_eq_true, if_false]
  exact flatMap_ite_eq names

def foundBy (t : FileTree) (base : Path) (text : String) : List Path :=
  ((PathPattern.parse (base / text).text).toOption.map t.search).getD []

theorem findFiles_eq {base : Path} {patterns : List String}
    (h : ∀ text ∈ patterns, (PathPattern.parse (base / text).text).toOption.isSome = true) :
    t.findFiles base patterns =
      .ok (Path.withoutRepeats (Path.sort ((patterns.flatMap (t.foundBy base)).filter t.isFile))) := by
  rw [findFiles, filesMatching, mapM_eq_ok (g := t.foundBy base)]
  · rfl
  · intro text ht
    have hsome := h text ht
    rw [foundBy]
    cases hp : PathPattern.parse (base / text).text with
    | ok parsed => rfl
    | error e => rw [hp] at hsome; cases hsome

end FileTree

end SketchPrep
