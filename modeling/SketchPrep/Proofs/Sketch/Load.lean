import SketchPrep.Proofs.FileTree.Search
import SketchPrep.Proofs.FileTree.Way
import SketchPrep.Sketch.Load

namespace SketchPrep

theorem Location.subset_path {location : Location} {name : String} (h : name ∈ location) :
    name.toList ⊆ location.path.text.toList := by
  rw [toList_path]
  refine List.subset_cons_of_subset _ ?_
  induction location with
  | nil => cases h
  | cons first rest ih =>
      cases rest with
      | nil =>
          obtain rfl := List.mem_singleton.1 h
          simp
      | cons next rest =>
          rw [List.map_cons, List.map_cons, List.intercalate_cons_cons]
          rcases List.mem_cons.1 h with rfl | h
          · exact List.subset_append_of_subset_left _ (List.subset_append_left _ _)
          · exact List.subset_append_of_subset_right _ (ih h)

def Entry.isText : Entry → Bool
  | .file content _ => (String.fromUTF8? content).isSome
  | _ => true

theorem FileTree.WellNamed.canonical {t : FileTree} (ht : t.WellNamed) {p q : Path}
    (h : t.canonical p = .ok q) : ∃ location : Location, location.IsPlain ∧ q = location.path := by
  unfold FileTree.canonical at h
  cases he : t.entry? p with
  | error e =>
      rw [he] at h
      cases h
  | ok found =>
      obtain ⟨location, entry⟩ := found
      rw [he] at h
      cases h
      refine ⟨location, ?_, rfl⟩
      by_cases hne : location = []
      · rw [hne]
        exact List.forall_mem_nil _
      · exact ht _ (FileTree.mem_entries_of_find? (FileTree.find?_of_found he) hne)

namespace Sketch

variable {t : FileTree} {p q folder main : Path} {s : Sketch}

theorem patterns_searchable : ∀ text ∈ patterns, FileTree.isSearchable text = true := by decide +kernel

theorem isPlain_mainName (p : Path) {ext : String} (hext : ext ∈ mergedExtensions) :
    Path.isPlain (p.fileName ++ "." ++ ext) = true := by
  have hletters : ∀ ext ∈ mergedExtensions, '/' ∉ ext.toList ∧ ext.toList.length = 3 := by decide
  obtain ⟨hslash, hlength⟩ := hletters ext hext
  have htext : (p.fileName ++ "." ++ ext).toList = p.fileName.toList ++ '.' :: ext.toList := by
    simp [String.toList_append]
  have hlong : 3 < (p.fileName ++ "." ++ ext).toList.length := by
    rw [htext, List.length_append, List.length_cons]
    omega
  refine Path.isPlain_iff.2 ⟨?_, ?_, ?_⟩
  · rw [htext]
    simp [Path.slash_not_mem_fileName p, hslash]
  · have hne : (p.fileName ++ "." ++ ext).toList ≠ [] := fun hnil => by simp [hnil] at hlong
    have hdot : (p.fileName ++ "." ++ ext).toList ≠ ['.'] := fun hnil => by simp [hnil] at hlong
    rw [Path.isFiller, List.isEmpty_eq_false_iff.2 hne, beq_eq_false_iff_ne.2 hdot, Bool.or_false]
  · intro hup
    rw [hup] at hlong
    exact absurd hlong (by decide)

/-- The main file is directly in the folder of the sketch. -/
theorem locate_cases {location : Location} (h : location.IsPlain)
    (hl : locate t location.path = .ok (folder, main)) :
    ∃ (base : Location) (first : String), Location.IsPlain (base ++ [first]) ∧ folder = base.path ∧
      main = Location.path (base ++ [first]) ∧ (location = base ∨ location = base ++ [first]) := by
  unfold locate at hl
  split at hl
  · simp only at hl
    split at hl
    · rename_i hfind
      cases hl
      obtain ⟨ext, hext, rfl⟩ := List.mem_map.1 (List.mem_of_find?_eq_some hfind)
      have hname := isPlain_mainName location.path hext
      exact ⟨location, _, h.append (Location.isPlain_singleton.2 hname), rfl, Location.path_div h hname, .inl rfl⟩
    · cases hl
  · split at hl
    · rename_i parent hparent
      cases hl
      have hne : location ≠ [] := by
        rintro rfl
        cases hparent
      have hlast := List.dropLast_concat_getLast hne
      refine ⟨location.dropLast, location.getLast hne, ?_, Location.parent?_path h hparent, ?_, .inr hlast.symm⟩
      · rwa [hlast]
      · rw [hlast]
    · cases hl

theorem exists_of_locate {location : Location} (h : location.IsPlain)
    (hl : locate t location.path = .ok (folder, main)) :
    ∃ location : Location, location.IsPlain ∧ folder = location.path := by
  obtain ⟨base, first, hplain, hfolder, -⟩ := locate_cases h hl
  exact ⟨base, (List.forall_mem_append.1 hplain).1, hfolder⟩

theorem loadFile_eq_ok_iff {f : SketchFile} :
    loadFile t p = .ok f ↔ f.path = p ∧ t.fileText p = .ok f.source := by
  rw [loadFile]
  constructor
  · intro h
    obtain ⟨text, htext, h⟩ := exists_of_bind_ok h
    obtain rfl := Except.ok.inj h
    exact ⟨rfl, htext⟩
  · rintro ⟨rfl, htext⟩
    exact bind_of_ok htext

/-- The files with a role, in the order in which they were found. -/
theorem map_path_of_mapM {found : List Path} {role : Path → Option Role} {files : List (Role × SketchFile)}
    (h : (found.filterMap fun p => (role p).map fun r => (r, p)).mapM
      (fun (r, p) => do return (r, ← loadFile t p)) = .ok files) (r : Role) :
    ((files.filter (·.1 = r)).map (·.2)).map (·.path) = found.filter (role · = some r) := by
  have hpaths : files.map (fun e => (e.1, e.2.path)) = found.filterMap fun p => (role p).map fun r => (r, p) := by
    refine (map_of_mapM h fun chosen _ loaded hpair => ?_).trans (List.map_id _)
    obtain ⟨file, hfile, hpair⟩ := exists_of_bind_ok hpair
    obtain rfl := Except.ok.inj hpair
    exact congrArg (Prod.mk chosen.1) (loadFile_eq_ok_iff.1 hfile).1
  calc ((files.filter (·.1 = r)).map (·.2)).map (·.path)
      _ = ((files.map fun e => (e.1, e.2.path)).filter (·.1 = r)).map (·.2) := by
        rw [List.filter_map, List.map_map, List.map_map]
        rfl
      _ = found.filter (role · = some r) := by
        rw [hpaths, List.filter_filterMap, List.map_filterMap, ← List.filterMap_eq_filter]
        refine List.filterMap_congr fun p _ => ?_
        cases hr : role p with
        | none => simp [hr, Option.guard]
        | some other => by_cases ho : other = r <;> simp [hr, ho, Option.guard, Option.filter]

/-- What a loaded sketch is made of: its files are those found below its folder, by their roles. -/
theorem files_of_load (hs : load t p = .ok s) : ∃ q place found, t.canonical p = .ok q ∧
    locate t q = .ok place ∧ s.folder = place.1 ∧ hasExtension mergedExtensions place.2 = true ∧
      loadFile t place.2 = .ok s.main ∧ t.findFiles place.1 patterns = .ok found ∧
      s.others.map (·.path) = found.filter (role? place.1 place.2 · = some .merged) ∧
      s.additional.map (·.path) = found.filter (role? place.1 place.2 · = some .additional) ∧
      ∀ f ∈ s.others ++ s.additional, loadFile t f.path = .ok f := by
  obtain ⟨q, hq, hs⟩ := exists_of_bind_ok hs
  obtain ⟨place, hplace, hs⟩ := exists_of_bind_ok hs
  simp only at hs
  split at hs
  · cases hs
  · rename_i hext
    obtain ⟨mainFile, hmain, hs⟩ := exists_of_bind_ok hs
    obtain ⟨found, hfound, hs⟩ := exists_of_bind_ok hs
    obtain ⟨files, hfiles, hs⟩ := exists_of_bind_ok hs
    cases hs
    refine ⟨q, place, found, ok_of_mapError (ok_of_mapError hq), hplace, rfl, by simpa using hext, hmain, hfound,
      map_path_of_mapM hfiles .merged, map_path_of_mapM hfiles .additional, fun f hf => ?_⟩
    obtain ⟨e, he, rfl⟩ : ∃ e ∈ files, e.2 = f := by
      rcases List.mem_append.1 hf with hf | hf
      all_goals
        obtain ⟨e, he, rfl⟩ := List.mem_map.1 hf
        exact ⟨e, (List.mem_filter.1 he).1, rfl⟩
    obtain ⟨chosen, -, hpair⟩ := exists_of_mem_mapM hfiles he
    obtain ⟨file, hfile, hpair⟩ := exists_of_bind_ok hpair
    obtain rfl := Except.ok.inj hpair
    rwa [(loadFile_eq_ok_iff.1 hfile).1]

theorem exists_of_load (hs : load t p = .ok s) : ∃ q place found, t.canonical p = .ok q ∧
    locate t q = .ok place ∧ s.folder = place.1 ∧ t.findFiles place.1 patterns = .ok found ∧
      (s.additional.map (·.path)).Sublist found := by
  obtain ⟨q, place, found, hq, hplace, hfolder, -, -, hfound, -, hadditional, -⟩ := files_of_load hs
  exact ⟨q, place, found, hq, hplace, hfolder, hfound, hadditional ▸ List.filter_sublist⟩

theorem load_eq {found : List Path} {mainFile : SketchFile} {files : List (Role × SketchFile)}
    (hq : t.canonical p = .ok q) (hl : locate t q = .ok (folder, main))
    (hext : hasExtension mergedExtensions main = true) (hmain : loadFile t main = .ok mainFile)
    (hfound : t.findFiles folder patterns = .ok found)
    (hfiles : (found.filterMap fun p => (role? folder main p).map fun role => (role, p)).mapM
      (fun (role, p) => do return (role, ← loadFile t p)) = .ok files) :
    load t p = .ok
      { folder := folder
        main := mainFile
        others := (files.filter (·.1 = .merged)).map (·.2)
        additional := (files.filter (·.1 = .additional)).map (·.2) } := by
  have hstart : attempting (.findingSketch p) (ofTree (t.canonical p)) = .ok q := by
    rw [hq]
    rfl
  rw [load, bind_of_ok hstart, bind_of_ok hl]
  dsimp only
  rw [hext, bind_of_ok hmain, bind_of_ok hfound, bind_of_ok hfiles]
  rfl

theorem exists_fileText (h : ∀ e ∈ t.entries, e.2.isText = true) (hp : t.isFile p = true) :
    ∃ text, t.fileText p = .ok text := by
  unfold FileTree.isFile at hp
  split at hp
  · rename_i location content runnable hentry
    have hfind := FileTree.find?_of_found hentry
    have hne : location ≠ [] := FileTree.ne_nil_of_find? (t := t) (by simp [hfind])
    obtain ⟨text, htext⟩ := Option.isSome_iff_exists.1 (h _ (FileTree.mem_entries_of_find? hfind hne))
    have hread : ofTree (t.read p) = .ok content := by
      rw [FileTree.read, hentry]
      rfl
    refine ⟨text, ?_⟩
    rw [FileTree.fileText, FileTree.readText, bind_of_ok hread, htext]
    rfl
  · cases hp

/-- If all files are texts, then only its main file can keep a sketch from being loaded. -/
theorem exists_load {mainFile : SketchFile} (hq : t.canonical p = .ok q) (hl : locate t q = .ok (folder, main))
    (hext : hasExtension mergedExtensions main = true) (hmain : loadFile t main = .ok mainFile)
    (hparse : ∀ text ∈ patterns, (PathPattern.parse (folder / text).text).toOption.isSome = true)
    (htexts : ∀ e ∈ t.entries, e.2.isText = true) :
    ∃ s, load t p = .ok s ∧ s.folder = folder ∧ s.main = mainFile := by
  have hfound := FileTree.findFiles_eq (t := t) hparse
  refine ⟨_, load_eq hq hl hext hmain hfound (mapM_eq_ok (g := fun e : Role × Path =>
    (e.1, ⟨e.2, (t.fileText e.2).toOption.getD ""⟩)) fun e he => ?_), rfl, rfl⟩
  obtain ⟨r, hr, hrole⟩ := List.mem_filterMap.1 he
  obtain ⟨role, -, rfl⟩ := Option.map_eq_some_iff.1 hrole
  obtain ⟨text, htext⟩ := exists_fileText htexts (FileTree.isFile_of_mem_findFiles hfound hr)
  have hfile : loadFile t r = .ok ⟨r, text⟩ := loadFile_eq_ok_iff.2 ⟨rfl, htext⟩
  dsimp only
  rw [htext]
  exact bind_of_ok hfile

theorem pairwise_additional (hs : load t p = .ok s) :
    s.additional.Pairwise fun f g => f.path.same g.path = false := by
  obtain ⟨_, _, _, -, -, -, hfound, hpaths⟩ := exists_of_load hs
  exact List.pairwise_map.1 ((FileTree.pairwise_findFiles hfound).sublist hpaths)

/-- The files that are compiled by themselves lie below the folder. -/
theorem load_additional (ht : t.WellNamed)
    (hv : ∀ q place, t.canonical p = .ok q → locate t q = .ok place →
      Pattern.isVerbatim place.1.text.toList = true)
    (hs : load t p = .ok s) : ∃ location : Location, location.IsPlain ∧ s.folder = location.path ∧
      ∀ f ∈ s.additional, ∃ names : Location, names.IsPlain ∧ names ≠ [] ∧
        f.path = (location ++ names).path := by
  obtain ⟨q, ⟨folder, main⟩, found, hcanonical, hplace, hfolder, hfound, hfiles⟩ := exists_of_load hs
  have hverbatim := hv q _ hcanonical hplace
  obtain ⟨place, hlocation, rfl⟩ := ht.canonical hcanonical
  obtain ⟨base, hbase, rfl⟩ := exists_of_locate hlocation hplace
  have hnames : ∀ name ∈ base, Pattern.isVerbatim name.toList = true := fun name hname =>
    List.all_eq_true.2 fun c hc => List.all_eq_true.1 hverbatim c (Location.subset_path hname hc)
  exact ⟨base, hbase, hfolder, fun f hf =>
    FileTree.mem_findFiles ht hbase hnames patterns_searchable hfound (hfiles.subset (List.mem_map_of_mem hf))⟩

theorem load_additional_of_verbatim (ht : t.WellNamed) (hs : load t p = .ok s)
    (hv : Pattern.isVerbatim s.folder.text.toList = true) :
    ∃ base : Location, base.IsPlain ∧ s.folder = base.path ∧
      ∀ f ∈ s.additional, ∃ names : Location, names.IsPlain ∧ names ≠ [] ∧ f.path = (base ++ names).path := by
  obtain ⟨q, place, _, hcanonical, hplace, hfolder, -⟩ := exists_of_load hs
  refine load_additional ht (fun q' place' hq hp => ?_) hs
  rw [hcanonical] at hq
  cases hq
  rw [hplace] at hp
  cases hp
  rwa [← hfolder]

end Sketch

end SketchPrep
