import SketchPrep.Proofs.Catalog.Listing
import SketchPrep.Proofs.FileTree.Matching
import SketchPrep.Proofs.Sketch.Load

namespace SketchPrep

namespace Sketch

def IsNamed (extensions : List String) (name : String) : Prop :=
  name.toList.head? ≠ some '.' ∧ ∃ ext ∈ extensions, '.' :: ext.toList <:+ name.toList

instance (extensions : List String) (name : String) : Decidable (IsNamed extensions name) :=
  inferInstanceAs (Decidable (_ ∧ _))

/-- A file of the tree that is in the folder at `base` or below its source folder, with one of the extensions. -/
def IsCandidate (t : FileTree) (base : Location) (q : Path) : Prop :=
  ∃ folders name, (folders = [] ∨ folders.head? = some "src") ∧
    (∃ ext ∈ mergedExtensions ++ additionalExtensions, '.' :: ext.toList <:+ name.toList) ∧
      t.HoldsFile (base ++ folders ++ [name]) ∧ q = Location.path (base ++ folders ++ [name])

variable {t : FileTree} {p q folder main : Path} {base location : Location} {name first ext : String}
  {extensions : List String} {s : Sketch}

theorem isNamed_iff (h : Location.IsPlain (location ++ [name])) (hdots : ∀ ext ∈ extensions, '.' ∉ ext.toList) :
    isHidden (Location.path (location ++ [name])) = false ∧
      hasExtension extensions (Location.path (location ++ [name])) = true ↔ IsNamed extensions name := by
  obtain ⟨hlocation, hplain⟩ := List.forall_mem_append.1 h
  rw [isHidden, Location.fileName_path h, IsNamed, beq_eq_false_iff_ne]
  refine and_congr_right fun hname => ?_
  rw [hasExtension, ← Location.path_div hlocation (Location.isPlain_singleton.1 hplain)]
  exact Path.any_extension?_join _ (Location.isPlain_singleton.1 hplain) hname hdots

theorem hasExtension_merged (h : hasExtension additionalExtensions p = true) :
    hasExtension mergedExtensions p = false := by
  have hother : ∀ ext ∈ additionalExtensions, mergedExtensions.contains ext = false := by decide
  unfold hasExtension at h ⊢
  cases hp : p.extension? with
  | none => rfl
  | some ext =>
      rw [hp, Option.any_some, List.contains_iff_mem] at h
      exact hother ext h

theorem dot_not_mem : ∀ ext ∈ mergedExtensions ++ additionalExtensions, '.' ∉ ext.toList := by decide

theorem role?_merged : role? folder main p = some .merged ↔
    p.same main = false ∧ isHidden p = false ∧ p.parent?.any (·.same folder) = true ∧
      hasExtension mergedExtensions p = true := by
  rw [role?, Option.ite_none_left_eq_some, Bool.or_eq_true, not_or, and_assoc, Bool.not_eq_true, Bool.not_eq_true]
  refine and_congr_right fun _ => and_congr_right fun _ => ?_
  split
  · rename_i hm
    exact iff_of_true rfl (Bool.and_eq_true_iff.1 hm)
  · rename_i hm
    refine iff_of_false ?_ fun h => hm (Bool.and_eq_true_iff.2 h)
    split <;> nofun

theorem role?_additional : role? folder main p = some .additional ↔
    p.same main = false ∧ isHidden p = false ∧ hasExtension additionalExtensions p = true := by
  rw [role?, Option.ite_none_left_eq_some, Bool.or_eq_true, not_or, and_assoc, Bool.not_eq_true, Bool.not_eq_true]
  refine and_congr_right fun _ => and_congr_right fun _ => ?_
  split
  · rename_i hm
    refine iff_of_false nofun fun h => ?_
    rw [hasExtension_merged h, Bool.and_false] at hm
    cases hm
  · rw [Option.ite_none_right_eq_some]
    exact and_iff_left rfl

section Roles

variable (hl : Location.IsPlain (location ++ [name])) (hm : Location.IsPlain (base ++ [first]))

include hl hm

theorem role?_eq_merged_iff :
    role? base.path (Location.path (base ++ [first])) (Location.path (location ++ [name])) = some .merged ↔
      location = base ∧ name ≠ first ∧ IsNamed mergedExtensions name := by
  have hfolder := Location.same_path_iff (List.forall_mem_append.1 hl).1 (List.forall_mem_append.1 hm).1
  rw [role?_merged, ← Bool.not_eq_true, Location.same_path_iff hl hm, Location.parent?_concat hl,
    Option.any_some, hfolder, ← isNamed_iff hl fun ext he => dot_not_mem ext (List.mem_append_left _ he)]
  constructor
  · rintro ⟨hne, hhidden, rfl, hext⟩
    exact ⟨rfl, fun he => hne (he ▸ rfl), hhidden, hext⟩
  · rintro ⟨rfl, hne, hhidden, hext⟩
    exact ⟨fun he => hne (by simpa using he), hhidden, rfl, hext⟩

theorem role?_eq_additional_iff (hmain : hasExtension mergedExtensions (Location.path (base ++ [first])) = true) :
    role? base.path (Location.path (base ++ [first])) (Location.path (location ++ [name])) = some .additional ↔
      IsNamed additionalExtensions name := by
  rw [role?_additional, ← isNamed_iff hl fun ext he => dot_not_mem ext (List.mem_append_right _ he)]
  refine and_iff_right_of_imp fun ⟨_, hext⟩ => ?_
  rw [← Bool.not_eq_true, Location.same_path_iff hl hm]
  intro he
  rw [hasExtension_merged (he ▸ hext)] at hmain
  cases hmain

end Roles

section Search

variable (ht : t.WellFormed) (hl : t.Linkless) (hp : base.IsPlain)
  (hv : ∀ name ∈ base, Pattern.isVerbatim name.toList = true) (he : t.hasEntry base.path = true)

include ht hl hp hv he

theorem mem_foundBy_folder (hext : ext ∈ mergedExtensions ++ additionalExtensions)
    (hparse : (PathPattern.parse (base.path / ("*." ++ ext)).text).toOption.isSome = true) :
    q ∈ t.foundBy base.path ("*." ++ ext) ∧ t.isFile q = true ↔
      ∃ name, '.' :: ext.toList <:+ name.toList ∧ t.HoldsFile (base ++ [name]) ∧
        q = Location.path (base ++ [name]) := by
  have hpieces : ∀ ext ∈ mergedExtensions ++ additionalExtensions,
      (⟨"*." ++ ext⟩ : Path).isAbsolute = false ∧ (("*." ++ ext).toList.splitOn '/').getLast? ≠ some [] ∧
        ((("*." ++ ext).toList.splitOn '/').mapM Pattern.parse).toOption =
          some [.ending ('.' :: ext.toList)] := by decide +kernel
  obtain ⟨habs, hlast, hrest⟩ := hpieces ext hext
  obtain ⟨n, hn, hfound⟩ := FileTree.foundBy_eq hl hp hv habs hlast (ok_of_toOption hrest) hparse he
  rw [hfound]
  exact FileTree.mem_files_ending ht hl hp (by omega)

theorem mem_foundBy_source (hext : ext ∈ mergedExtensions ++ additionalExtensions)
    (hparse : (PathPattern.parse (base.path / ("src/**/*." ++ ext)).text).toOption.isSome = true) :
    q ∈ t.foundBy base.path ("src/**/*." ++ ext) ∧ t.isFile q = true ↔
      ∃ folders name, '.' :: ext.toList <:+ name.toList ∧ t.HoldsFile (base ++ ("src" :: folders ++ [name])) ∧
        q = Location.path (base ++ ("src" :: folders ++ [name])) := by
  have hpieces : ∀ ext ∈ mergedExtensions ++ additionalExtensions,
      (⟨"src/**/*." ++ ext⟩ : Path).isAbsolute = false ∧
        (("src/**/*." ++ ext).toList.splitOn '/').getLast? ≠ some [] ∧
        ((("src/**/*." ++ ext).toList.splitOn '/').mapM Pattern.parse).toOption =
          some ["src".toList.map .char, [.anyFolders], Pattern.ending ('.' :: ext.toList)] := by decide +kernel
  obtain ⟨habs, hlast, hrest⟩ := hpieces ext hext
  obtain ⟨n, hn, hfound⟩ := FileTree.foundBy_eq hl hp hv habs hlast (ok_of_toOption hrest) hparse he
  rw [hfound]
  exact FileTree.mem_files_below ht hl hp (show Path.isPlain "src" = true by decide) hn

theorem exists_foundBy_iff
    (hparse : ∀ text ∈ patterns, (PathPattern.parse (base.path / text).text).toOption.isSome = true) :
    (∃ text ∈ patterns, q ∈ t.foundBy base.path text ∧ t.isFile q = true) ↔ IsCandidate t base q := by
  constructor
  · rintro ⟨text, htext, hq⟩
    obtain ⟨ext, hext, htexts⟩ := List.mem_flatMap.1 htext
    rcases List.mem_pair.1 htexts with rfl | rfl
    · obtain ⟨name, hending, hfile, rfl⟩ := (mem_foundBy_folder ht hl hp hv he hext (hparse _ htext)).1 hq
      refine ⟨[], name, .inl rfl, ⟨ext, hext, hending⟩, ?_⟩
      rw [List.append_nil]
      exact ⟨hfile, rfl⟩
    · obtain ⟨folders, name, hending, hfile, rfl⟩ :=
        (mem_foundBy_source ht hl hp hv he hext (hparse _ htext)).1 hq
      refine ⟨"src" :: folders, name, .inr rfl, ⟨ext, hext, hending⟩, ?_⟩
      rw [List.append_assoc]
      exact ⟨hfile, rfl⟩
  · rintro ⟨folders, name, hfolders, ⟨ext, hext, hending⟩, hfile, rfl⟩
    have htexts : "*." ++ ext ∈ patterns ∧ "src/**/*." ++ ext ∈ patterns :=
      ⟨List.mem_flatMap.2 ⟨ext, hext, List.mem_cons_self⟩,
        List.mem_flatMap.2 ⟨ext, hext, List.mem_cons_of_mem _ List.mem_cons_self⟩⟩
    rcases hfolders with rfl | hsource
    · rw [List.append_nil] at hfile ⊢
      exact ⟨_, htexts.1,
        (mem_foundBy_folder ht hl hp hv he hext (hparse _ htexts.1)).2 ⟨name, hending, hfile, rfl⟩⟩
    · obtain ⟨rest, rfl⟩ := List.head?_eq_some_iff.1 hsource
      rw [List.append_assoc] at hfile ⊢
      exact ⟨_, htexts.2,
        (mem_foundBy_source ht hl hp hv he hext (hparse _ htexts.2)).2 ⟨rest, name, hending, hfile, rfl⟩⟩

theorem mem_found_iff {found : List Path} (hfound : t.findFiles base.path patterns = .ok found) :
    q ∈ found ↔ IsCandidate t base q := by
  have hparse := FileTree.isSome_parse_of_findFiles hfound
  have hplain : ∀ text ∈ patterns, ∀ q, q ∈ t.foundBy base.path text ∧ t.isFile q = true →
      ∃ location : Location, location.IsPlain ∧ q = location.path := by
    intro text htext q hq
    obtain ⟨folders, name, -, -, hfile, rfl⟩ :=
      (exists_foundBy_iff ht hl hp hv he hparse).1 ⟨text, htext, hq⟩
    exact ⟨_, ht.isPlain_of_holdsFile hfile, rfl⟩
  rw [FileTree.mem_findFiles_iff hfound hplain]
  exact exists_foundBy_iff ht hl hp hv he hparse

end Search

section Found

variable (ht : t.WellFormed) (hl : t.Linkless) (hp : Location.IsPlain (base ++ [first]))
  (hv : ∀ name ∈ base, Pattern.isVerbatim name.toList = true) (he : t.hasEntry base.path = true)
  {found : List Path} (hfound : t.findFiles base.path patterns = .ok found)

include ht hl hp hv he hfound

theorem mem_merged_iff :
    q ∈ found.filter (role? base.path (Location.path (base ++ [first])) · = some .merged) ↔
      ∃ name, name ≠ first ∧ IsNamed mergedExtensions name ∧ t.HoldsFile (base ++ [name]) ∧
        q = Location.path (base ++ [name]) := by
  rw [List.mem_filter, decide_eq_true_iff, mem_found_iff ht hl (List.forall_mem_append.1 hp).1 hv he hfound]
  constructor
  · rintro ⟨⟨folders, name, -, -, hfile, rfl⟩, hrole⟩
    obtain ⟨hplace, hne, hnamed⟩ := (role?_eq_merged_iff (ht.isPlain_of_holdsFile hfile) hp).1 hrole
    rw [hplace] at hfile ⊢
    exact ⟨name, hne, hnamed, hfile, rfl⟩
  · rintro ⟨name, hne, hnamed, hfile, rfl⟩
    obtain ⟨ext, hext, hending⟩ := hnamed.2
    refine ⟨⟨[], name, .inl rfl, ⟨ext, List.mem_append_left _ hext, hending⟩, ?_⟩, ?_⟩
    · rw [List.append_nil]
      exact ⟨hfile, rfl⟩
    · exact (role?_eq_merged_iff (ht.isPlain_of_holdsFile hfile) hp).2 ⟨rfl, hne, hnamed⟩

theorem mem_additional_iff (hmain : hasExtension mergedExtensions (Location.path (base ++ [first])) = true) :
    q ∈ found.filter (role? base.path (Location.path (base ++ [first])) · = some .additional) ↔
      ∃ folders name, (folders = [] ∨ folders.head? = some "src") ∧ IsNamed additionalExtensions name ∧
        t.HoldsFile (base ++ folders ++ [name]) ∧ q = Location.path (base ++ folders ++ [name]) := by
  rw [List.mem_filter, decide_eq_true_iff, mem_found_iff ht hl (List.forall_mem_append.1 hp).1 hv he hfound]
  constructor
  · rintro ⟨⟨folders, name, hfolders, -, hfile, rfl⟩, hrole⟩
    have hnamed := (role?_eq_additional_iff (ht.isPlain_of_holdsFile hfile) hp hmain).1 hrole
    exact ⟨folders, name, hfolders, hnamed, hfile, rfl⟩
  · rintro ⟨folders, name, hfolders, hnamed, hfile, rfl⟩
    obtain ⟨ext, hext, hending⟩ := hnamed.2
    refine ⟨⟨folders, name, hfolders, ⟨ext, List.mem_append_right _ hext, hending⟩, hfile, rfl⟩, ?_⟩
    exact (role?_eq_additional_iff (ht.isPlain_of_holdsFile hfile) hp hmain).2 hnamed

end Found

/-- A file has one role at most, and the main file none. -/
theorem nodup_roles {found : List Path} (h : found.Pairwise fun p q => p.same q = false) (folder main : Path) :
    (main :: (found.filter (role? folder main · = some .merged) ++
      found.filter (role? folder main · = some .additional))).Nodup := by
  have hdistinct : found.Nodup := h.imp fun {p q} hpq he => by
    rw [he, Path.same_refl] at hpq
    cases hpq
  have hmain : role? folder main main = none := by
    rw [role?, Path.same_refl]
    rfl
  rw [List.nodup_cons, List.nodup_append]
  refine ⟨?_, hdistinct.filter _, hdistinct.filter _, ?_⟩
  · simp [hmain]
  · rintro p hp q hq rfl
    have hmerged := (List.mem_filter.1 hp).2
    have hadditional := (List.mem_filter.1 hq).2
    rw [decide_eq_true_iff] at hmerged hadditional
    rw [hmerged] at hadditional
    cases hadditional

/-- The sketch has its main file directly in the folder at `base`, and beside it just the files of the tree
that belong to a sketch there. -/
structure IsFrom (s : Sketch) (t : FileTree) (base : Location) (first : String) : Prop where
  folder : s.folder = base.path
  main : s.main.path = Location.path (base ++ [first]) ∧ t.HoldsFile (base ++ [first])
  others : ∀ q, q ∈ s.others.map (·.path) ↔ ∃ name, name ≠ first ∧ IsNamed mergedExtensions name ∧
    t.HoldsFile (base ++ [name]) ∧ q = Location.path (base ++ [name])
  additional : ∀ q, q ∈ s.additional.map (·.path) ↔ ∃ folders name,
    (folders = [] ∨ folders.head? = some "src") ∧ IsNamed additionalExtensions name ∧
      t.HoldsFile (base ++ folders ++ [name]) ∧ q = Location.path (base ++ folders ++ [name])
  ordered : ∀ files ∈ [s.others, s.additional], files.Pairwise fun f g => f.path.le g.path = true
  once : ((s.main :: (s.others ++ s.additional)).map (·.path)).Nodup
  sources : ∀ f ∈ s.main :: (s.others ++ s.additional), t.fileText f.path = .ok f.source

theorem IsFrom.eq_of_main (h : s.IsFrom t base first) (ht : t.WellFormed)
    (hl : Location.IsPlain (location ++ [name])) (hs : s.main.path = Location.path (location ++ [name])) :
    base = location ∧ first = name := by
  have he := Location.path_inj (ht.isPlain_of_holdsFile h.main.2) hl (h.main.1.symm.trans hs)
  exact ⟨List.append_inj_left' he rfl, List.singleton_inj.1 (List.append_inj_right' he rfl)⟩

theorem isFile_of_fileText {text : String} (h : t.fileText p = .ok text) : t.isFile p = true := by
  obtain ⟨content, hread, -⟩ := exists_of_bind_ok (ok_of_mapError h)
  replace hread := ok_of_mapError hread
  unfold FileTree.read at hread
  split at hread
  · rename_i hentry
    exact FileTree.isFile_iff.2 ⟨_, _, _, hentry⟩
  · cases hread
  · cases hread

/-- Which files a sketch has, in a tree without links and where the path of its folder is a pattern for itself. -/
theorem load_isFrom (ht : t.WellFormed) (hl : t.Linkless) (hs : load t p = .ok s)
    (hv : Pattern.isVerbatim s.folder.text.toList = true) :
    ∃ base first, (t.canonical p = .ok s.folder ∨ t.canonical p = .ok s.main.path) ∧ s.IsFrom t base first := by
  obtain ⟨q, ⟨folder, main⟩, found, hq, hplace, hfolder, hext, hmain, hfound, hothers, hadditional, hfiles⟩ :=
    files_of_load hs
  obtain ⟨location, hlocation, rfl⟩ := ht.named.canonical hq
  obtain ⟨base, first, hplain, rfl, rfl, hcases⟩ := locate_cases hlocation hplace
  obtain ⟨hmainPath, hmainText⟩ := loadFile_eq_ok_iff.1 hmain
  have hmainFile := hl.holdsFile hplain (isFile_of_fileText hmainText)
  obtain ⟨hbase, hfirst⟩ := List.forall_mem_append.1 hplain
  have hentry : t.hasEntry base.path = true := by
    obtain ⟨content, runnable, he⟩ := id hmainFile
    exact FileTree.hasEntry_iff.2 ⟨_, hl.entry?_prefix hbase hfirst (by simp) he⟩
  have hnames : ∀ name ∈ base, Pattern.isVerbatim name.toList = true := fun name hname =>
    List.all_eq_true.2 fun c hc => List.all_eq_true.1 hv c (hfolder ▸ Location.subset_path hname hc)
  refine ⟨base, first, ?_, ?_⟩
  · rw [hfolder, hmainPath, hq]
    rcases hcases with rfl | rfl
    · exact .inl rfl
    · exact .inr rfl
  · exact
      { folder := hfolder
        main := ⟨hmainPath, hmainFile⟩
        others := fun q => by
          rw [hothers]
          exact mem_merged_iff ht hl hplain hnames hentry hfound
        additional := fun q => by
          rw [hadditional]
          exact mem_additional_iff ht hl hplain hnames hentry hfound hext
        ordered := by
          have hsorted := FileTree.pairwise_le_findFiles hfound
          intro files hfiles
          rcases List.mem_pair.1 hfiles with rfl | rfl
          · exact List.pairwise_map.1 (hothers ▸ hsorted.filter _)
          · exact List.pairwise_map.1 (hadditional ▸ hsorted.filter _)
        once := by
          rw [List.map_cons, List.map_append, hothers, hadditional, hmainPath]
          exact nodup_roles (FileTree.pairwise_findFiles hfound) _ _
        sources := by
          intro f hf
          rcases List.mem_cons.1 hf with rfl | hf
          · rwa [hmainPath]
          · exact (loadFile_eq_ok_iff.1 (hfiles f hf)).2 }

def blinkTree : FileTree where
  entries :=
    [ (["Blink"], .folder), (["Blink", "Blink.ino"], .file "int led;".toUTF8 false),
      (["Blink", "tab.pde"], .file .empty false), (["Blink", ".spare.h"], .file .empty false),
      (["Blink", "doc"], .folder), (["Blink", "doc", "led.h"], .file .empty false),
      (["Blink", "src"], .folder), (["Blink", "src", "util"], .folder),
      (["Blink", "src", "util", "crc.c"], .file .empty false) ]
  here := []

theorem blinkTree_wellFormed : blinkTree.WellFormed where
  named := by
    unfold FileTree.WellNamed
    decide +kernel
  single := by decide +kernel
  housed := by decide +kernel
  home := rfl

theorem blinkTree_linkless : blinkTree.Linkless := by simp [FileTree.Linkless, blinkTree]

theorem load_isFrom_blink : blinkTree.WellFormed ∧ blinkTree.Linkless ∧ ∃ s, load blinkTree ⟨"/Blink"⟩ = .ok s ∧
    Pattern.isVerbatim s.folder.text.toList = true ∧ ⟨"/Blink/tab.pde"⟩ ∈ s.others.map (·.path) ∧
      ⟨"/Blink/src/util/crc.c"⟩ ∈ s.additional.map (·.path) ∧ ⟨"/Blink/doc/led.h"⟩ ∉ s.additional.map (·.path) := by
  have hplace : (blinkTree.canonical ⟨"/Blink"⟩).toOption = some ⟨"/Blink"⟩ ∧
      (locate blinkTree ⟨"/Blink"⟩).toOption = some (⟨"/Blink"⟩, ⟨"/Blink/Blink.ino"⟩) ∧
      (loadFile blinkTree ⟨"/Blink/Blink.ino"⟩).toOption = some ⟨⟨"/Blink/Blink.ino"⟩, "int led;"⟩ := by
    decide +kernel
  obtain ⟨hcanonical, hlocate, hmain⟩ := hplace
  obtain ⟨s, hs, hfolder, hfirst⟩ := exists_load (ok_of_toOption hcanonical) (ok_of_toOption hlocate)
    (by decide +kernel) (ok_of_toOption hmain) (by decide +kernel) (by decide +kernel)
  have hv : Pattern.isVerbatim s.folder.text.toList = true := by
    rw [hfolder]
    decide
  obtain ⟨base, first, -, hfiles⟩ := load_isFrom blinkTree_wellFormed blinkTree_linkless hs hv
  obtain ⟨rfl, rfl⟩ : base = ["Blink"] ∧ first = "Blink.ino" :=
    hfiles.eq_of_main blinkTree_wellFormed (by decide) (by rw [hfirst]; rfl)
  have hholds {location : Location} (hp : location.IsPlain) (hf : blinkTree.isFile location.path = true) :=
    blinkTree_linkless.holdsFile hp hf
  refine ⟨blinkTree_wellFormed, blinkTree_linkless, s, hs, hv, ?_, ?_, ?_⟩
  · exact (hfiles.others _).2 ⟨"tab.pde", by decide, by decide, hholds (by decide) (by decide +kernel), rfl⟩
  · exact (hfiles.additional _).2
      ⟨["src", "util"], "crc.c", .inr rfl, by decide, hholds (by decide) (by decide +kernel), rfl⟩
  · intro hmem
    obtain ⟨folders, name, hfolders, -, hfile, hpath⟩ := (hfiles.additional _).1 hmem
    have hplace : ["Blink", "doc"] ++ ["led.h"] = ["Blink"] ++ folders ++ [name] :=
      Location.path_inj (by decide) (blinkTree_wellFormed.isPlain_of_holdsFile hfile) hpath
    obtain rfl : ["doc"] = folders := (List.cons.inj (List.append_inj_left' hplace rfl)).2
    exact absurd hfolders (by decide)

def bracketTree : FileTree where
  entries :=
    [ (["[ab]"], .folder), (["[ab]", "[ab].ino"], .file "int led;".toUTF8 false),
      (["[ab]", "tab.ino"], .file .empty false) ]
  here := []

theorem bracketTree_wellFormed : bracketTree.WellFormed where
  named := by
    unfold FileTree.WellNamed
    decide +kernel
  single := by decide +kernel
  housed := by decide +kernel
  home := rfl

theorem load_bracketed : bracketTree.WellFormed ∧ bracketTree.Linkless ∧
    bracketTree.HoldsFile ["[ab]", "tab.ino"] ∧ ∃ s, load bracketTree ⟨"/[ab]"⟩ = .ok s ∧ s.others = [] ∧
      ¬ ∃ base first, s.IsFrom bracketTree base first := by
  have hlinks : bracketTree.Linkless := by simp [FileTree.Linkless, bracketTree]
  have hfile : bracketTree.HoldsFile ["[ab]", "tab.ino"] :=
    (FileTree.holdsFile_iff bracketTree_wellFormed hlinks).2 ⟨by decide, ⟨rfl, by decide, by decide⟩, by decide⟩
  have hrun : ((load bracketTree ⟨"/[ab]"⟩).toOption.map fun s => (s.main.path, s.others)) =
      some (⟨"/[ab]/[ab].ino"⟩, []) := by decide +kernel
  obtain ⟨s, hs, hparts⟩ := Option.map_eq_some_iff.1 hrun
  obtain ⟨hmain, hothers⟩ := Prod.mk.inj hparts
  refine ⟨bracketTree_wellFormed, hlinks, hfile, s, ok_of_toOption hs, hothers, ?_⟩
  rintro ⟨base, first, hfiles⟩
  obtain ⟨rfl, rfl⟩ : base = ["[ab]"] ∧ first = "[ab].ino" :=
    hfiles.eq_of_main bracketTree_wellFormed (by decide) hmain
  have hmem := (hfiles.others _).2 ⟨"tab.ino", by decide, by decide, hfile, rfl⟩
  rw [hothers] at hmem
  cases hmem

end Sketch

end SketchPrep
