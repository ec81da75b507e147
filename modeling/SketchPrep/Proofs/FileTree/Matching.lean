import SketchPrep.Proofs.FileTree.Linkless

namespace SketchPrep

namespace Pattern

variable {text s : List Char}

def ending (text : List Char) : Pattern := .anyText :: text.map .char

theorem someRest_iff {p : List Char → Bool} : someRest p s = true ↔ ∃ rest, rest <:+ s ∧ p rest = true := by
  induction s with
  | nil => simp [someRest]
  | cons c s ih =>
      rw [someRest, Bool.or_eq_true, ih]
      constructor
      · rintro (hwhole | ⟨rest, hrest, hp⟩)
        · exact ⟨c :: s, List.suffix_rfl, hwhole⟩
        · exact ⟨rest, hrest.trans (List.suffix_cons c s), hp⟩
      · rintro ⟨rest, hrest, hp⟩
        rcases List.suffix_cons_iff.1 hrest with rfl | hrest
        · exact .inl hp
        · exact .inr ⟨rest, hrest, hp⟩

theorem fits_map_char : fits (text.map .char) s = true ↔ s = text := by
  induction text generalizing s with
  | nil => simp [fits]
  | cons c text ih =>
      cases s with
      | nil => simp [fits]
      | cons d s => simp [fits, ih]

theorem fits_ending : (ending text).fits s = true ↔ text <:+ s := by
  rw [ending, fits, someRest_iff]
  constructor
  · rintro ⟨rest, hrest, hp⟩
    rwa [fits_map_char.1 hp] at hrest
  · intro h
    exact ⟨text, h, fits_map_char.2 rfl⟩

theorem isRecursive_ending : (ending text).isRecursive = false := by simp [isRecursive, ending]

end Pattern

namespace FileTree

variable {t : FileTree} {location names folders : Location} {name folder : String} {components : List Pattern}
  {ending : List Char} {onlyFolders : Bool} {n : Nat} {q : Path}

theorem matching_verbatim (hl : t.Linkless) (hp : location.IsPlain) (hn : names.IsPlain)
    (he : t.hasEntry (Location.path (location ++ names)) = true) :
    t.matching onlyFolders (n + names.length) (names.map (fun name => name.toList.map .char) ++ components)
      location.path = t.matching onlyFolders n components (Location.path (location ++ names)) := by
  induction names generalizing location with
  | nil => rw [List.append_nil]; rfl
  | cons name names ih =>
      obtain ⟨hname, hnames⟩ := List.forall_mem_cons.1 hn
      have hdown : Location.IsPlain (location ++ [name]) := hp.append (Location.isPlain_singleton.2 hname)
      rw [List.append_cons] at he ⊢
      have hnext : t.hasEntry (Location.path (location ++ [name])) = true := by
        by_cases hlast : names = []
        · rwa [hlast, List.append_nil] at he
        · obtain ⟨found, hfound⟩ := hasEntry_iff.1 he
          exact hasEntry_iff.2 ⟨_, hl.entry?_prefix hdown hnames hlast hfound⟩
      rw [List.map_cons, List.cons_append, List.length_cons, ← Nat.add_assoc, matching_literal hp hname,
        if_pos hnext]
      exact ih hdown hnames he

theorem mem_matching_ending (ht : t.WellFormed) (hl : t.Linkless) (hp : location.IsPlain) :
    q ∈ t.matching false (n + 2) [.ending ending] location.path ↔
      ∃ name, t.Lists location name ∧ ending <:+ name.toList ∧ q = Location.path (location ++ [name]) := by
  have hliteral : (Pattern.ending ending).literal? = none := rfl
  have hdots : dotsFor (.ending ending) = [] := rfl
  rw [matching, hliteral]
  simp only [hdots, ite_self, List.flatMap_nil, List.nil_append, Pattern.isRecursive_ending,
    Bool.false_eq_true, if_false, matching_nil, List.mem_flatMap, List.mem_mergeSort,
    mem_names_iff ht hl hp, Pattern.fits_ending, List.mem_ite_nil_right, List.mem_singleton]
  refine exists_congr fun name => and_congr_right fun hlists => ?_
  obtain ⟨entry, he⟩ := hlists.2
  have hname : Path.isPlain name = true := ht.named.isPlain he name (by simp)
  rw [inside_path hp hname]

/-- What two stars and an ending find is in the folder itself or, in the same way, in a folder inside. -/
theorem mem_matching_anyFolders (ht : t.WellFormed) (hl : t.Linkless) (hp : location.IsPlain) :
    q ∈ t.matching false (n + 1) [[.anyFolders], .ending ending] location.path ↔
      ∃ name, t.Lists location name ∧
        (ending <:+ name.toList ∧ q ∈ t.matching false n [] (Location.path (location ++ [name])) ∨
          t.isFolder (Location.path (location ++ [name])) = true ∧
            q ∈ t.matching false n [[.anyFolders], .ending ending] (Location.path (location ++ [name]))) := by
  have hliteral : Pattern.literal? [.anyFolders] = none := rfl
  have hdots : dotsFor [.anyFolders] = [] := rfl
  have hrecursive : Pattern.isRecursive [.anyFolders] = true := rfl
  have hdrop : [Pattern.ending ending].dropWhile Pattern.isRecursive = [.ending ending] :=
    List.dropWhile_cons_of_neg (by simp [Pattern.isRecursive_ending])
  rw [matching, hliteral]
  simp only [hdots, ite_self, List.flatMap_nil, List.nil_append, hrecursive, hdrop, if_true,
    List.mem_flatMap, List.mem_mergeSort, mem_names_iff ht hl hp, Pattern.fits_ending, List.mem_append,
    List.mem_ite_nil_right]
  refine exists_congr fun name => and_congr_right fun hlists => ?_
  obtain ⟨entry, he⟩ := hlists.2
  have hname : Path.isPlain name = true := ht.named.isPlain he name (by simp)
  rw [inside_path hp hname]

theorem exists_of_mem_matching_anyFolders (ht : t.WellFormed) (hl : t.Linkless) (hp : location.IsPlain)
    (hq : q ∈ t.matching false n [[.anyFolders], .ending ending] location.path) :
    ∃ folders name, Location.IsPlain (folders ++ [name]) ∧ ending <:+ name.toList ∧
      q = Location.path (location ++ (folders ++ [name])) := by
  induction n generalizing location with
  | zero => cases hq
  | succ n ih =>
      obtain ⟨name, ⟨-, entry, he⟩, ⟨hending, hq⟩ | ⟨-, hq⟩⟩ := (mem_matching_anyFolders ht hl hp).1 hq
      · cases n with
        | zero => cases hq
        | succ n =>
            refine ⟨[], name, fun other ho => ?_, hending, List.mem_singleton.1 hq⟩
            exact ht.named.isPlain he other (List.mem_append_right _ ho)
      · have hdown := ht.named.isPlain he
        obtain ⟨folders, last, hplain, hending, rfl⟩ := ih hdown hq
        refine ⟨name :: folders, last, List.forall_mem_cons.2 ⟨hdown name (by simp), hplain⟩, hending, ?_⟩
        rw [List.append_assoc]
        rfl

/-- A step for every folder on the way and two for the name at its end are enough. -/
theorem mem_matching_anyFolders_of_entry (ht : t.WellFormed) (hl : t.Linkless)
    (hp : Location.IsPlain (location ++ (folders ++ [name]))) {found : Location × Entry}
    (he : t.entry? (Location.path (location ++ (folders ++ [name]))) = .ok found)
    (hending : ending <:+ name.toList) (hn : folders.length + 2 ≤ n) :
    Location.path (location ++ (folders ++ [name])) ∈
      t.matching false n [[.anyFolders], .ending ending] location.path := by
  induction folders generalizing location n with
  | nil =>
      obtain ⟨m, rfl⟩ : ∃ m, n = m + 2 := Nat.exists_eq_add_of_le' hn
      have hlists := hl.lists_of_entry hp he
      refine (mem_matching_anyFolders ht hl (List.forall_mem_append.1 hp).1).2 ⟨name, hlists, .inl ⟨hending, ?_⟩⟩
      exact List.mem_singleton_self _
  | cons folder folders ih =>
      rw [List.length_cons] at hn
      obtain ⟨m, rfl⟩ : ∃ m, n = m + 1 := Nat.exists_eq_add_of_le' (by omega)
      have hlists := hl.lists_of_entry hp he
      have hlocation := (List.forall_mem_append.1 hp).1
      rw [List.cons_append, List.append_cons] at hp he ⊢
      obtain ⟨hdown, hnames⟩ := List.forall_mem_append.1 hp
      have hfolder := (hl.isFolder_path hdown).2 (hl.entry?_prefix hdown hnames (by simp) he)
      exact (mem_matching_anyFolders ht hl hlocation).2
        ⟨folder, hlists, .inr ⟨hfolder, ih hp he (by omega)⟩⟩

theorem mem_files_ending (ht : t.WellFormed) (hl : t.Linkless) (hp : location.IsPlain) (hn : 2 ≤ n) :
    q ∈ t.matching false n [.ending ending] location.path ∧ t.isFile q = true ↔
      ∃ name, ending <:+ name.toList ∧ t.HoldsFile (location ++ [name]) ∧ q = Location.path (location ++ [name]) := by
  obtain ⟨m, rfl⟩ : ∃ m, n = m + 2 := Nat.exists_eq_add_of_le' hn
  rw [mem_matching_ending ht hl hp]
  constructor
  · rintro ⟨⟨name, ⟨-, entry, he⟩, hending, rfl⟩, hfile⟩
    exact ⟨name, hending, hl.holdsFile (ht.named.isPlain he) hfile, rfl⟩
  · rintro ⟨name, hending, hfile, rfl⟩
    obtain ⟨content, runnable, he⟩ := id hfile
    exact ⟨⟨name, hl.lists_of_entry (ht.isPlain_of_holdsFile hfile) he, hending, rfl⟩, hfile.isFile⟩

theorem mem_files_below (ht : t.WellFormed) (hl : t.Linkless) (hp : location.IsPlain)
    (hf : Path.isPlain folder = true) (hn : t.entries.length + 2 ≤ n) :
    q ∈ t.matching false n [folder.toList.map .char, [.anyFolders], .ending ending] location.path ∧
        t.isFile q = true ↔
      ∃ folders name, ending <:+ name.toList ∧ t.HoldsFile (location ++ (folder :: folders ++ [name])) ∧
        q = Location.path (location ++ (folder :: folders ++ [name])) := by
  obtain ⟨m, rfl⟩ : ∃ m, n = m + 1 := Nat.exists_eq_add_of_le' (by omega)
  have hdown : Location.IsPlain (location ++ [folder]) := hp.append (Location.isPlain_singleton.2 hf)
  have hway (folders : Location) (name : String) :
      location ++ (folder :: folders ++ [name]) = location ++ [folder] ++ (folders ++ [name]) := by simp
  simp only [matching_literal hp hf, List.mem_ite_nil_right, hway]
  constructor
  · rintro ⟨⟨-, hq⟩, hfile⟩
    obtain ⟨folders, name, hplain, hending, rfl⟩ := exists_of_mem_matching_anyFolders ht hl hdown hq
    exact ⟨folders, name, hending, hl.holdsFile (hdown.append hplain) hfile, rfl⟩
  · rintro ⟨folders, name, hending, hfile, rfl⟩
    have hplain := ht.isPlain_of_holdsFile hfile
    obtain ⟨content, runnable, he⟩ := id hfile
    have hdepth := ht.length_le (find?_of_found he)
    simp only [List.length_append, List.length_singleton] at hdepth
    have hfolder := hl.entry?_prefix hdown (List.forall_mem_append.1 hplain).2 (by simp) he
    refine ⟨⟨hasEntry_iff.2 ⟨_, hfolder⟩, ?_⟩, hfile.isFile⟩
    exact mem_matching_anyFolders_of_entry ht hl hplain he hending (by omega)

theorem exists_same_of_mem_afterDistinct {p : Path} {ps : List Path} (hq : q ∈ p :: ps) :
    ∃ r ∈ Path.afterDistinct p ps, r.same q = true := by
  induction ps generalizing p q with
  | nil => exact ⟨q, hq, Path.same_refl q⟩
  | cons first ps ih =>
      rw [Path.afterDistinct]
      split
      · rename_i hsame
        rcases List.mem_cons.1 hq with hp | hq
        · exact ih (List.mem_cons.2 (.inl hp))
        · rcases List.mem_cons.1 hq with rfl | hq
          · -- the spelling that is kept is the one just before
            obtain ⟨r, hr, hrp⟩ := ih List.mem_cons_self
            exact ⟨r, hr, Path.same_iff.2 ((Path.same_iff.1 hrp).trans (Path.same_iff.1 hsame))⟩
          · exact ih (List.mem_cons_of_mem _ hq)
      · rcases List.mem_cons.1 hq with rfl | hq
        · exact ⟨q, List.mem_cons_self, Path.same_refl q⟩
        · obtain ⟨r, hr, hrq⟩ := ih hq
          exact ⟨r, List.mem_cons_of_mem _ hr, hrq⟩

theorem pairwise_le_findFiles {base : Path} {patterns : List String} {found : List Path}
    (hfound : t.findFiles base patterns = .ok found) : found.Pairwise fun p q => p.le q = true := by
  obtain ⟨results, -, hpaths⟩ := exists_of_bind_ok (ok_of_mapError hfound)
  obtain rfl := Except.ok.inj hpaths
  exact (Path.pairwise_sort _).sublist (withoutRepeats_sublist _)

theorem isSome_parse_of_findFiles {base : Path} {patterns : List String} {found : List Path}
    (hfound : t.findFiles base patterns = .ok found) :
    ∀ text ∈ patterns, (PathPattern.parse (base / text).text).toOption.isSome = true := by
  obtain ⟨results, hresults, -⟩ := exists_of_bind_ok (ok_of_mapError hfound)
  intro text htext
  obtain ⟨paths, -, hpaths⟩ := ok_of_mem_mapM hresults htext
  cases hparse : PathPattern.parse (base / text).text with
  | ok parsed => rfl
  | error e =>
      rw [hparse] at hpaths
      cases hpaths

/-- No path is lost with the repetitions, where paths have one spelling each. -/
theorem mem_findFiles_iff {base : Path} {patterns : List String} {found : List Path}
    (hfound : t.findFiles base patterns = .ok found)
    (hplain : ∀ text ∈ patterns, ∀ q, q ∈ t.foundBy base text ∧ t.isFile q = true →
      ∃ location : Location, location.IsPlain ∧ q = location.path) :
    q ∈ found ↔ ∃ text ∈ patterns, q ∈ t.foundBy base text ∧ t.isFile q = true := by
  rw [findFiles_eq (isSome_parse_of_findFiles hfound)] at hfound
  obtain rfl := Except.ok.inj hfound
  have hall {q : Path} : q ∈ Path.sort ((patterns.flatMap (t.foundBy base)).filter t.isFile) ↔
      ∃ text ∈ patterns, q ∈ t.foundBy base text ∧ t.isFile q = true := by
    rw [Path.sort, List.mem_mergeSort, List.mem_filter, List.mem_flatMap]
    exact ⟨fun ⟨⟨text, htext, hq⟩, hfile⟩ => ⟨text, htext, hq, hfile⟩,
      fun ⟨text, htext, hq, hfile⟩ => ⟨⟨text, htext, hq⟩, hfile⟩⟩
  refine ⟨fun hq => hall.1 (mem_of_mem_withoutRepeats hq), fun hq => ?_⟩
  have hsorted := hall.2 hq
  obtain ⟨r, hr, hsame⟩ : ∃ r ∈ Path.withoutRepeats (Path.sort ((patterns.flatMap (t.foundBy base)).filter t.isFile)),
      r.same q = true := by
    cases hs : Path.sort ((patterns.flatMap (t.foundBy base)).filter t.isFile) with
    | nil =>
        rw [hs] at hsorted
        cases hsorted
    | cons p ps => exact exists_same_of_mem_afterDistinct (hs ▸ hsorted)
  obtain ⟨_, htext, hfound⟩ := hall.1 (mem_of_mem_withoutRepeats hr)
  obtain ⟨location, hlocation, rfl⟩ := hplain _ htext _ hfound
  obtain ⟨_, htext, hfound⟩ := hq
  obtain ⟨place, hplace, rfl⟩ := hplain _ htext _ hfound
  rwa [(Location.same_path_iff hlocation hplace).1 hsame] at hr

theorem onlyFolders_eq {text : String} {parsed : PathPattern} (h : PathPattern.parse text = .ok parsed) :
    parsed.onlyFolders = decide (text.toList.getLast? = some '/') := by
  obtain ⟨whole, -, h⟩ := exists_of_bind_ok h
  obtain ⟨components, -, h⟩ := exists_of_bind_ok h
  cases h
  rfl

theorem getLast?_ne_slash {text : List Char} (h : (text.splitOn '/').getLast? ≠ some []) :
    text ≠ [] ∧ text.getLast? ≠ some '/' := by
  constructor
  · rintro rfl
    exact h rfl
  · intro hlast
    obtain ⟨init, rfl⟩ := List.getLast?_eq_some_iff.1 hlast
    rw [List.splitOn_append_cons_self, List.splitOn_nil, List.getLast?_concat] at h
    exact h rfl

/-- Below a folder whose path is a pattern for itself, a search goes on from the folder. -/
theorem foundBy_eq (hl : t.Linkless) (hp : location.IsPlain)
    (hv : ∀ name ∈ location, Pattern.isVerbatim name.toList = true) {text : String}
    (habs : (⟨text⟩ : Path).isAbsolute = false) (hlast : (text.toList.splitOn '/').getLast? ≠ some [])
    (hrest : (text.toList.splitOn '/').mapM Pattern.parse = .ok components)
    (hparse : (PathPattern.parse (location.path / text).text).toOption.isSome = true)
    (he : t.hasEntry location.path = true) :
    ∃ n, t.entries.length + 2 ≤ n ∧
      t.foundBy location.path text = t.matching false n components location.path := by
  cases hparsed : PathPattern.parse (location.path / text).text with
  | error e =>
      rw [hparsed] at hparse
      cases hparse
  | ok parsed =>
      obtain ⟨rest, hpieces, hstart, hcomponents⟩ := parse_join_path hp hv habs hlast hparsed
      rw [hrest] at hpieces
      cases hpieces
      have honly : parsed.onlyFolders = false := by
        obtain ⟨hne, hslash⟩ := getLast?_ne_slash hlast
        obtain ⟨folder, -, htext⟩ := Path.exists_toList_join (p := location.path) (q := ⟨text⟩)
          (by simp [Location.toList_path]) habs
        have hend : (location.path / text).text.toList.getLast? = text.toList.getLast? :=
          (congrArg List.getLast? htext).trans
            (by rw [List.getLast?_append_cons, List.getLast?_cons_of_ne_nil hne])
        rw [onlyFolders_eq hparsed, hend]
        exact decide_eq_false hslash
      obtain ⟨n, hn⟩ : ∃ n, t.searchBound parsed = n + location.length := by
        refine Nat.exists_eq_add_of_le' ?_
        rw [searchBound, hcomponents, List.length_append, List.length_map]
        omega
      refine ⟨n, ?_, ?_⟩
      · rw [searchBound, hcomponents, List.length_append, List.length_map] at hn
        have hbound := Nat.le_mul_of_pos_left (t.entries.length + 2)
          (show 0 < linkLimit + 1 + (location.length + components.length) by omega)
        omega
      · rw [foundBy, hparsed]
        show t.search parsed = _
        rw [search, hn, hstart, hcomponents, honly]
        exact matching_verbatim hl (List.forall_mem_nil _) hp he

end FileTree

end SketchPrep
