import SketchPrep.Library.Files
import SketchPrep.Proofs.FileTree.Below
import SketchPrep.Proofs.Path.Extension
import SketchPrep.Proofs.Path.Order
import SketchPrep.Proofs.Path.Sameness

namespace SketchPrep

def IsShown (name : String) : Prop :=
  name.toList.head? ≠ some '.' ∧ name ∉ ["CVS", "RCS", ".git", ".github", ".svn", ".hg", ".bzr", "SCCS"]

instance (name : String) : Decidable (IsShown name) := inferInstanceAs (Decidable (_ ∧ _))

/-- The folders that the layout looks into, as seen from the source folder. -/
def LibraryLayout.Covers : LibraryLayout → Location → Prop
  | .nested, folders => ∀ folder ∈ folders, IsShown folder
  | .flat, folders => folders = [] ∨ folders = ["utility"]

def Library.IsSource (t : FileTree) (l : Library) (q : Path) : Prop :=
  ∃ place folders name, t.entry? l.sourceFolder = .ok (place, .folder) ∧ l.layout.Covers folders ∧
    IsShown name ∧ (∃ ext ∈ ["c", "cpp", "S"], '.' :: ext.toList <:+ name.toList) ∧
      (t.find? (place ++ folders ++ [name])).any Entry.isFile = true ∧
        q = l.sourceFolder.under (folders ++ [name])

variable {t : FileTree} {l : Library} {q : Path} {place names : Location} {name : String} {entry : Entry}

theorem isIgnoredName_eq_false_iff : FileTree.isIgnoredName name = false ↔ IsShown name := by
  rw [FileTree.isIgnoredName, Bool.or_eq_false_iff, beq_eq_false_iff_ne, IsShown]
  refine and_congr_right fun hhead => ?_
  have hhidden : ∀ other ∈ [".git", ".github", ".svn", ".hg", ".bzr"], name ≠ other := by
    rintro other hother rfl
    have hdot : ∀ other ∈ [".git", ".github", ".svn", ".hg", ".bzr"], other.toList.head? = some '.' := by decide
    exact hhead (hdot name hother)
  simp only [List.forall_mem_cons] at hhidden
  simp [hhidden]

theorem isSourceFile_div (p : Path) (h : Path.isPlain name = true) (hs : IsShown name) :
    isSourceFile (p / name) = true ↔ ∃ ext ∈ ["c", "cpp", "S"], '.' :: ext.toList <:+ name.toList :=
  Path.any_extension?_join p h hs.1 (by decide)

namespace FileTree

theorem mem_waysIn_direct (ht : t.WellFormed) : names ∈ t.waysIn place false ↔
    ∃ name, names = [name] ∧ IsShown name ∧ (t.find? (place ++ [name])).any Entry.isFile = true := by
  rw [mem_waysIn ht]
  constructor
  · rintro ⟨-, hkept, hdepth, hfile⟩
    obtain ⟨name, rfl⟩ := List.length_eq_one_iff.1 (hdepth.resolve_left (by decide))
    exact ⟨name, rfl, isIgnoredName_eq_false_iff.1 (hkept name List.mem_cons_self), hfile⟩
  · rintro ⟨name, rfl, hshown, hfile⟩
    exact ⟨by simp, by simpa using isIgnoredName_eq_false_iff.2 hshown, .inr rfl, hfile⟩

theorem mem_waysIn_deep (ht : t.WellFormed) : names ∈ t.waysIn place true ↔
    ∃ folders name, names = folders ++ [name] ∧ (∀ folder ∈ folders, IsShown folder) ∧ IsShown name ∧
      (t.find? (place ++ (folders ++ [name]))).any Entry.isFile = true := by
  simp only [mem_waysIn ht, isIgnoredName_eq_false_iff]
  constructor
  · rintro ⟨hne, hshown, -, hfile⟩
    obtain ⟨folders, name, rfl⟩ := (List.eq_nil_or_concat' names).resolve_left hne
    obtain ⟨hfolders, hname⟩ := List.forall_mem_append.1 hshown
    exact ⟨folders, name, rfl, hfolders, hname name List.mem_cons_self, hfile⟩
  · rintro ⟨folders, name, rfl, hfolders, hname, hfile⟩
    exact ⟨by simp, List.forall_mem_append.2 ⟨hfolders, by simpa using hname⟩, .inl trivial, hfile⟩

end FileTree

namespace Library

open FileTree

def waysFrom (t : FileTree) (l : Library) (place : Location) : List Location :=
  match l.layout with
  | .nested => t.waysIn place true
  | .flat => t.waysIn place false ++ (t.waysIn (place ++ ["utility"]) false).map ("utility" :: ·)

theorem mem_waysFrom (ht : t.WellFormed) : names ∈ l.waysFrom t place ↔
    ∃ folders name, names = folders ++ [name] ∧ l.layout.Covers folders ∧ IsShown name ∧
      (t.find? (place ++ (folders ++ [name]))).any Entry.isFile = true := by
  unfold waysFrom
  cases l.layout with
  | nested => exact mem_waysIn_deep ht
  | flat =>
      rw [List.mem_append, List.mem_map]
      simp only [mem_waysIn_direct ht]
      constructor
      · rintro (⟨name, rfl, hshown, hfile⟩ | ⟨_, ⟨name, rfl, hshown, hfile⟩, rfl⟩)
        · exact ⟨[], name, rfl, .inl rfl, hshown, hfile⟩
        · rw [List.append_assoc] at hfile
          exact ⟨["utility"], name, rfl, .inr rfl, hshown, hfile⟩
      · rintro ⟨_, name, rfl, rfl | rfl, hshown, hfile⟩
        · exact .inl ⟨name, rfl, hshown, hfile⟩
        · refine .inr ⟨[name], ⟨name, rfl, hshown, ?_⟩, rfl⟩
          rw [List.append_assoc]
          exact hfile

theorem nodup_waysFrom (ht : t.WellFormed) (l : Library) (place : Location) : (l.waysFrom t place).Nodup := by
  unfold waysFrom
  split
  · exact nodup_waysIn ht place true
  · have hutility := (nodup_waysIn ht (place ++ ["utility"]) false).map (List.cons_injective (a := "utility"))
    refine List.nodup_append.2 ⟨nodup_waysIn ht place false, hutility, ?_⟩
    -- a file in the folder is one name down, and one in its subfolder two
    rintro names hn _ ho rfl
    obtain ⟨name, rfl, -⟩ := (mem_waysIn_direct ht).1 hn
    obtain ⟨way, hway, he⟩ := List.mem_map.1 ho
    obtain ⟨other, rfl, -⟩ := (mem_waysIn_direct ht).1 hway
    cases he

theorem allFiles_of_found (ht : t.WellFormed) (hl : t.Linkless) (hr : t.Readable l.sourceFolder)
    (hp : t.entry? l.sourceFolder = .ok (place, entry)) :
    l.allFiles t = .ok ((l.waysFrom t place).map l.sourceFolder.under) := by
  unfold allFiles waysFrom
  cases l.layout with
  | nested => exact filesIn_of_found ht hp true
  | flat =>
      have hplain : Path.isPlain "utility" = true := by decide
      dsimp only
      rw [bind_of_ok (filesIn_of_found ht hp false), List.map_append, List.map_map]
      split
      · rename_i hfolder
        rw [bind_of_ok (filesIn_of_folder (hl.entry?_div hp hplain hfolder) false)]
        rfl
      · rename_i hnone
        have hother : t.find? (place ++ ["utility"]) ≠ some .folder := by
          intro hfolder
          have hplace := ht.find?_dropLast hfolder
          rw [List.dropLast_concat, find?_of_found hp] at hplace
          rw [Option.some.inj hplace] at hp
          exact hnone ((hr.isFolder_div_iff hl hp hplain).2 hfolder)
        rw [waysIn_eq_nil ht hother, List.map_nil, List.append_nil]
        rfl

theorem allFiles_of_error {e : TreeError} (h : t.entry? l.sourceFolder = .error e) :
    l.allFiles t = .error (.during (.walkingFolder l.sourceFolder) (.walk l.sourceFolder e)) := by
  have hfiles (deep : Bool) : t.filesIn l.sourceFolder deep =
      .error (.during (.walkingFolder l.sourceFolder) (.walk l.sourceFolder e)) := by
    rw [filesIn, h]
  unfold allFiles
  split
  · exact hfiles true
  · rw [hfiles false]
    rfl

theorem mem_sources_iff (ht : t.WellFormed) (hp : t.entry? l.sourceFolder = .ok (place, entry)) :
    q ∈ ((l.waysFrom t place).map l.sourceFolder.under).filter isSourceFile ↔ l.IsSource t q := by
  have hplain {folders : Location} {name : String}
      (h : (t.find? (place ++ (folders ++ [name]))).any Entry.isFile = true) : Path.isPlain name = true :=
    isPlain_of_isFile ht h name (List.mem_concat_self ..)
  rw [List.mem_filter, List.mem_map]
  constructor
  · rintro ⟨⟨_, hway, rfl⟩, hsource⟩
    obtain ⟨folders, name, rfl, hcovers, hshown, hfile⟩ := (mem_waysFrom ht).1 hway
    rw [Path.under_concat] at hsource
    have hext := (isSourceFile_div _ (hplain hfile) hshown).1 hsource
    have hfolder : entry = .folder := by
      obtain ⟨found, hfound, -⟩ := (Option.any_eq_true _ _).1 hfile
      have hplace := ht.find?_of_prefix hfound (List.prefix_append place _) (by simp)
      rw [find?_of_found hp] at hplace
      exact Option.some.inj hplace
    rw [hfolder] at hp
    rw [← List.append_assoc] at hfile
    exact ⟨place, folders, name, hp, hcovers, hshown, hext, hfile, rfl⟩
  · rintro ⟨other, folders, name, ho, hcovers, hshown, hext, hfile, rfl⟩
    obtain ⟨rfl, -⟩ := Prod.mk.inj (Except.ok.inj (hp.symm.trans ho))
    rw [List.append_assoc] at hfile
    refine ⟨⟨_, (mem_waysFrom ht).2 ⟨folders, name, rfl, hcovers, hshown, hfile⟩, rfl⟩, ?_⟩
    rw [Path.under_concat]
    exact (isSourceFile_div _ (hplain hfile) hshown).2 hext

theorem pairwise_not_same (ht : t.WellFormed) (l : Library) (place : Location) :
    ((l.waysFrom t place).map l.sourceFolder.under).Pairwise fun p q => p.same q = false := by
  have hplain : ∀ names ∈ l.waysFrom t place, Location.IsPlain names := by
    intro names hn
    obtain ⟨folders, name, rfl, -, -, hfile⟩ := (mem_waysFrom ht).1 hn
    exact isPlain_of_isFile ht hfile
  rw [List.pairwise_map]
  refine (nodup_waysFrom ht l place).imp_of_mem fun {names others} hn ho hne => ?_
  rw [Bool.eq_false_iff]
  exact fun hsame => hne ((Path.under_same_iff (hplain names hn) (hplain others ho)).1 hsame)

/-- The library's source files can be listed just if its source folder can be, and then they are those of its
layout, each once and in the order of their paths. -/
theorem sourceFiles_exact (ht : t.WellFormed) (hl : t.Linkless) (hr : t.Readable l.sourceFolder) :
    ((∃ files, l.sourceFiles t = .ok files) ↔ t.hasEntry l.sourceFolder = true) ∧
      ∀ files, l.sourceFiles t = .ok files →
        (files.Pairwise fun p q => p.le q = true ∧ p.same q = false) ∧ ∀ q, q ∈ files ↔ l.IsSource t q := by
  rw [hasEntry_iff]
  cases hp : t.entry? l.sourceFolder with
  | error e =>
      have hfailed : l.sourceFiles t =
          .error (.during (.walkingFolder l.sourceFolder) (.walk l.sourceFolder e)) := by
        rw [sourceFiles, allFiles_of_error hp]
        rfl
      rw [hfailed]
      exact ⟨iff_of_false nofun nofun, nofun⟩
  | ok found =>
      obtain ⟨place, entry⟩ := found
      have hfiles : l.sourceFiles t =
          .ok (Path.sort (((l.waysFrom t place).map l.sourceFolder.under).filter isSourceFile)) := by
        rw [sourceFiles, allFiles_of_found ht hl hr hp]
        rfl
      rw [hfiles]
      refine ⟨iff_of_true ⟨_, rfl⟩ ⟨_, rfl⟩, ?_⟩
      rintro _ ⟨⟩
      constructor
      · refine (Path.pairwise_sort _).and ?_
        have hdistinct := (pairwise_not_same ht l place).filter isSourceFile
        exact hdistinct.perm (List.mergeSort_perm _ _).symm fun {p q} h => by rw [Path.same_comm, h]
      · intro q
        rw [Path.sort, List.mem_mergeSort]
        exact mem_sources_iff ht hp

def bridgeTree : FileTree where
  entries :=
    [ ([".libs"], .folder), ([".libs", "Bridge"], .folder), ([".libs", "Bridge", "Bridge.h"], .file .empty false),
      ([".libs", "Bridge", "utility"], .folder), ([".libs", "Bridge", "utility", "spi.S"], .file .empty false),
      ([".libs", "Bridge", "utility", ".spi.c"], .file .empty false), ([".libs", "Bridge", "examples"], .folder),
      ([".libs", "Bridge", "examples", "demo.cpp"], .file .empty false) ]
  here := []

theorem bridgeTree_wellFormed : bridgeTree.WellFormed where
  named := by
    unfold WellNamed
    decide +kernel
  single := by decide +kernel
  housed := by decide +kernel
  home := rfl

theorem bridgeTree_readable : bridgeTree.Readable ⟨"/.libs/Bridge"⟩ := by
  have hplace : (bridgeTree.entry? ⟨"/.libs/Bridge"⟩).toOption = some ([".libs", "Bridge"], .folder) := by
    decide +kernel
  apply (readable_iff bridgeTree_wellFormed (ok_of_toOption hplace)).2
  decide +kernel

theorem sourceFiles_exact_bridge : bridgeTree.WellFormed ∧ bridgeTree.Linkless ∧
    bridgeTree.Readable ⟨"/.libs/Bridge"⟩ ∧
      (legacyAt ⟨"/.libs/Bridge"⟩).IsSource bridgeTree ⟨"/.libs/Bridge/utility/spi.S"⟩ ∧
        ¬ (legacyAt ⟨"/.libs/Bridge"⟩).IsSource bridgeTree ⟨"/.libs/Bridge/examples/demo.cpp"⟩ := by
  have hlinks : bridgeTree.Linkless := by simp [Linkless, bridgeTree]
  have hrun : ((legacyAt ⟨"/.libs/Bridge"⟩).sourceFiles bridgeTree).toOption =
      some [⟨"/.libs/Bridge/utility/spi.S"⟩] := by decide +kernel
  obtain ⟨-, hfiles⟩ := (sourceFiles_exact bridgeTree_wellFormed hlinks bridgeTree_readable).2 _ (ok_of_toOption hrun)
  refine ⟨bridgeTree_wellFormed, hlinks, bridgeTree_readable, (hfiles _).1 (by decide), ?_⟩
  intro hsource
  exact absurd ((hfiles _).2 hsource) (by decide)

end Library

end SketchPrep
