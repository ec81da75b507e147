import SketchPrep.Proofs.Catalog.Folders
import SketchPrep.Proofs.Path.Extension

namespace SketchPrep

variable {t : FileTree} {configured ps : List Path} {platforms : Platforms} {l : Library} {c : Catalog}
  {index : HeaderIndex} {place : Location} {folder p : Path} {name : String}

/-- The folders with libraries: those that were asked for, then those of the target platform and of the core
platform, each where it is first named. -/
def libraryPlaces (t : FileTree) (configured : List Path) (platforms : Platforms) : List Location :=
  t.placesOf (configured ++ [platforms.target.librariesFolder, platforms.core.librariesFolder])

theorem libraryFolders_eq (h : t.WellFormed)
    (hl : ∀ q ∈ libraryFolders t configured platforms, ∃ entries, t.list q = .ok entries) :
    libraryFolders t configured platforms = (libraryPlaces t configured platforms).map Location.path := by
  have hbundled (ps : List Path) : (ps.filter t.isFolder).filterMap t.folderAt? = ps.filterMap t.folderAt? := by
    rw [List.filterMap_filter]
    refine List.filterMap_congr fun p _ => ?_
    rw [t.isFolder_eq p]
    cases t.folderAt? p <;> rfl
  rw [libraryFolders, h.foldl_addFolder hl, FileTree.placesOf, libraryPlaces, FileTree.placesOf,
    List.filterMap_append, List.filterMap_append, hbundled]
  rfl

namespace Library

theorem folder_of_load (h : load t folder = .ok l) : l.folder = folder := by
  unfold load at h
  split at h
  · obtain ⟨written, -, h⟩ := exists_of_bind_ok h
    obtain ⟨entries, -, h⟩ := exists_of_bind_ok h
    cases h
    rfl
  · cases h
    rfl

def isHeaderName (name : String) : Bool :=
  name.toList.head? != some '.' && Path.extensionOf name.toList == some ['h']

def offers (t : FileTree) (l : Library) (header : String) : Bool :=
  isHeaderName header &&
    match t.folderAt? l.sourceFolder with
    | some place => (t.find? (place ++ [header])).any Entry.isFile
    | none => false

end Library

namespace FileTree

def isListed (e : String × Entry) : Bool := !isIgnoredName e.1 && e.2.isFile

theorem filesIn_eq {files : List Path} (hf : t.entry? folder = .ok (place, .folder))
    (h : t.filesIn folder false = .ok files) :
    files = ((t.children place).filter isListed).map fun e => folder / e.1 := by
  rw [filesIn, hf] at h
  obtain rfl := Except.ok.inj h
  rw [children, below, List.filter_filterMap, List.map_filterMap, List.filterMap_filterMap]
  refine List.filterMap_congr fun e _ => ?_
  obtain ⟨way, entry⟩ := e
  dsimp only
  rcases place.isPrefixOf? way with _ | _ | ⟨name, _ | _⟩
  · rfl
  · rfl
  · cases entry <;> cases hn : isIgnoredName name <;> simp [isListed, Entry.isFile, hn, Option.filter]
  · dsimp only
    split <;> cases entry <;> rfl

theorem filesIn_eq_nil {files : List Path} (hf : t.folderAt? folder = none)
    (h : t.filesIn folder false = .ok files) : files = [] := by
  unfold filesIn at h
  split at h
  · rename_i hfound
    rw [folderAt?_eq_some.2 hfound] at hf
    cases hf
  · exact (Except.ok.inj h).symm
  · cases h

theorem isIgnoredName_of_header (h : Path.extensionOf name.toList = some ['h']) :
    isIgnoredName name = (name.toList.head? == some '.') := by
  have hfolders : ∀ other ∈ ["CVS", "RCS", "SCCS"], Path.extensionOf other.toList = none := by decide
  rw [isIgnoredName, Bool.or_eq_left_iff_imp]
  intro hm
  rw [hfolders name (by simpa using hm)] at h
  cases h

end FileTree

namespace Library

open FileTree

def hasHeaderExtension (e : String × Entry) : Bool := Path.extensionOf e.1.toList == some ['h']

theorem filter_extension {entries : List (String × Entry)} (h : ∀ e ∈ entries, Path.isPlain e.1 = true) :
    ((entries.map fun e => folder / e.1).filter fun p => p.extension? == some "h").map Path.fileName =
      (entries.filter hasHeaderExtension).map (·.1) := by
  rw [List.filter_map, List.map_map]
  have hext : entries.filter ((fun p : Path => p.extension? == some "h") ∘ fun e => folder / e.1) =
      entries.filter hasHeaderExtension := by
    refine List.filter_congr fun e he => ?_
    rw [Function.comp_apply, Path.extension?_join folder (h e he), hasHeaderExtension]
    cases Path.extensionOf e.1.toList with
    | none => rfl
    | some ext => simp [← String.toList_inj]
  rw [hext]
  refine List.map_congr_left fun e he => ?_
  exact Path.fileName_join folder (h e (List.mem_filter.1 he).1)

theorem mem_headerNames (ht : t.WellFormed) :
    name ∈ (((t.children place).filter isListed).filter hasHeaderExtension).map (·.1) ↔
      isHeaderName name = true ∧ (t.find? (place ++ [name])).any Entry.isFile = true := by
  constructor
  · intro hm
    obtain ⟨⟨_, entry⟩, he, rfl⟩ := List.mem_map.1 hm
    obtain ⟨he, hext⟩ := List.mem_filter.1 he
    obtain ⟨hchild, hlisted⟩ := List.mem_filter.1 he
    obtain ⟨hkept, hfile⟩ := Bool.and_eq_true_iff.1 hlisted
    rw [isIgnoredName_of_header (beq_iff_eq.1 hext)] at hkept
    rw [ht.mem_children.1 hchild]
    exact ⟨Bool.and_eq_true_iff.2 ⟨hkept, hext⟩, hfile⟩
  · rintro ⟨hname, hany⟩
    obtain ⟨entry, hfind, hfile⟩ := (Option.any_eq_true _ _).1 hany
    obtain ⟨hkept, hext⟩ := Bool.and_eq_true_iff.1 hname
    have hlisted : isListed (name, entry) = true := by
      rw [isListed, isIgnoredName_of_header (beq_iff_eq.1 hext), hfile, Bool.and_true]
      exact hkept
    have hchild := List.mem_filter.2 ⟨ht.mem_children.2 hfind, hlisted⟩
    exact List.mem_map_of_mem (List.mem_filter.2 ⟨hchild, hext⟩)

/-- The headers of a library are those that it offers, each once. -/
theorem headers_spec (ht : t.WellFormed) {headers : List String} (h : l.headers t = .ok headers) :
    headers.Nodup ∧ ∀ header, header ∈ headers ↔ l.offers t header = true := by
  obtain ⟨files, hfiles, h⟩ := exists_of_bind_ok h
  obtain rfl := Except.ok.inj h
  cases hf : t.folderAt? l.sourceFolder with
  | none =>
      obtain rfl := filesIn_eq_nil hf hfiles
      refine ⟨by simp, fun header => ?_⟩
      simp [offers, hf]
  | some place =>
      have hplain : ∀ e ∈ (t.children place).filter isListed, Path.isPlain e.1 = true :=
        fun e he => ht.named.children (List.mem_filter.1 he).1
      obtain rfl := filesIn_eq (folderAt?_eq_some.1 hf) hfiles
      have hsub := (List.filter_sublist (p := hasHeaderExtension)).trans
        (List.filter_sublist (p := isListed) (l := t.children place))
      rw [filter_extension hplain]
      refine ⟨?_, fun header => ?_⟩
      · rw [List.nodup_mergeSort]
        exact (hsub.map _).nodup (ht.nodup_children place)
      · rw [List.mem_mergeSort, mem_headerNames ht, offers, hf, Bool.and_eq_true]

end Library

namespace Catalog

open FileTree

theorem libraryFoldersIn_path (h : t.WellFormed) (hp : place ∈ t.placesOf ps) {folders : List Path}
    (hf : libraryFoldersIn t place.path = .ok folders) : folders = (t.subfolders place).map Location.path := by
  obtain ⟨entries, hentries, hf⟩ := exists_of_bind_ok hf
  obtain rfl := h.list_path hp (ok_of_mapError (ok_of_mapError hentries))
  obtain rfl := Except.ok.inj hf
  rw [subfolders, List.map_mergeSort (s := Path.le) fun _ _ _ _ => rfl, List.map_map, Path.sort]
  congr 1
  refine List.map_congr_left fun e he => ?_
  have hname := h.named.children (List.mem_filter.1 he).1
  exact Location.path_div (h.isPlain_of_mem hp) hname

theorem libraries_of_mapM {folders : List Path} {libraries : List Library}
    (h : folders.mapM (Library.load t) = .ok libraries) :
    libraries.map (·.folder) = folders ∧ ∀ l ∈ libraries, Library.load t l.folder = .ok l := by
  refine ⟨?_, fun l hl => ?_⟩
  · rw [map_of_mapM (k := id) h fun folder _ l hl => Library.folder_of_load hl, List.map_id]
  · obtain ⟨folder, -, hload⟩ := exists_of_mem_mapM h hl
    rwa [Library.folder_of_load hload]

theorem candidates_block {headers : List String} (hnodup : headers.Nodup) (header : String) (l : Library) :
    ((headers.map fun name => (name, l)).filter (·.1 == header)).map (·.2) =
      if header ∈ headers then [l] else [] := by
  have hkey : (fun e : String × Library => e.1 == header) ∘ (fun name => (name, l)) = (· == header) := rfl
  have hsame : (fun e : String × Library => e.2) ∘ (fun name => (name, l)) = fun _ => l := rfl
  rw [List.filter_map, List.map_map, hkey, hsame, List.filter_beq, hnodup.count, List.map_replicate]
  split <;> rfl

theorem candidates_eq (ht : t.WellFormed) (hi : c.headerIndex t = .ok index) (header : String) :
    index.candidates header = c.libraries.filter (·.offers t header) := by
  obtain ⟨blocks, hblocks, hi⟩ := exists_of_bind_ok hi
  obtain rfl := Except.ok.inj hi
  have hoffers : (blocks.map fun block => (block.filter (·.1 == header)).map (·.2)) =
      c.libraries.map fun l => if l.offers t header then [l] else [] := by
    refine map_of_mapM hblocks fun l _ block hl => ?_
    obtain ⟨headers, hheaders, hl⟩ := exists_of_bind_ok hl
    obtain rfl := Except.ok.inj hl
    obtain ⟨hnodup, hmem⟩ := Library.headers_spec ht (ok_of_mapError hheaders)
    rw [candidates_block hnodup]
    exact if_congr (hmem header) rfl rfl
  rw [HeaderIndex.candidates, List.filter_flatten, List.map_flatten, List.map_map]
  calc _ = c.libraries.flatMap fun l => if l.offers t header then [l] else [] :=
        congrArg List.flatten hoffers
    _ = c.libraries.filter (·.offers t header) := by rw [flatMap_ite_eq, List.flatMap_singleton']

theorem mem_headers_iff {header : String} : header ∈ index.headers ↔ index.candidates header ≠ [] := by
  rw [HeaderIndex.headers, List.mem_eraseDups, HeaderIndex.candidates, ne_eq, List.map_eq_nil_iff,
    List.filter_eq_nil_iff]
  simp

/-- The catalog of the folders with libraries, and its index. Every folder of a library is listed once, in
the order of the folders with libraries and of the paths in them; and the candidates for a header are the
listed libraries that offer it. -/
theorem load_libraryFolders (ht : t.WellFormed)
    (hc : load t (libraryFolders t configured platforms) = .ok c) (hi : c.headerIndex t = .ok index) :
    c.folders = (libraryPlaces t configured platforms).map Location.path ∧
    (∃ folders : Location → List Location,
      (∀ place ∈ libraryPlaces t configured platforms, t.HoldsLibraries place (folders place)) ∧
      ((libraryPlaces t configured platforms).flatMap folders).Nodup ∧
      c.libraries.map (·.folder) =
        ((libraryPlaces t configured platforms).flatMap folders).map Location.path) ∧
    (∀ l ∈ c.libraries, Library.load t l.folder = .ok l) ∧
    ∀ header, index.candidates header = c.libraries.filter (·.offers t header) ∧
      (index.candidates header).Nodup ∧ (header ∈ index.headers ↔ index.candidates header ≠ []) := by
  obtain ⟨found, hfound, hc⟩ := exists_of_bind_ok hc
  obtain ⟨libraries, hlibraries, hc⟩ := exists_of_bind_ok hc
  obtain rfl := Except.ok.inj hc
  have hplaces : libraryFolders t configured platforms =
      (libraryPlaces t configured platforms).map Location.path := by
    refine libraryFolders_eq ht fun q hq => ?_
    obtain ⟨_, -, hlisted⟩ := ok_of_mem_mapM hfound hq
    obtain ⟨entries, hentries, -⟩ := exists_of_bind_ok hlisted
    exact ⟨entries, ok_of_mapError (ok_of_mapError hentries)⟩
  have hsubfolders : found.flatten =
      ((libraryPlaces t configured platforms).flatMap t.subfolders).map Location.path := by
    rw [hplaces, List.mapM_map] at hfound
    have hblocks := map_of_mapM (g := id) (k := fun place => (t.subfolders place).map Location.path) hfound
      fun place hp folders hf => libraryFoldersIn_path ht hp hf
    rw [List.map_id] at hblocks
    rw [hblocks, List.map_flatMap, List.flatMap]
  obtain ⟨hfolders, hloaded⟩ := libraries_of_mapM hlibraries
  obtain ⟨hlocations, hpaths⟩ := ht.nodup_flatMap_subfolders
    (Location.nodup_eraseDups _ : (libraryPlaces t configured platforms).Nodup)
  rw [hsubfolders] at hfolders
  have hnodup : libraries.Nodup := List.Nodup.of_map (·.folder) (hfolders ▸ hpaths)
  refine ⟨hplaces, ⟨t.subfolders, ?_, hlocations, hfolders⟩, hloaded, fun header => ⟨?_, ?_, mem_headers_iff⟩⟩
  · exact fun place _ => ht.holdsLibraries_subfolders place
  · exact candidates_eq ht hi header
  · rw [candidates_eq ht hi header]
    exact hnodup.filter _

def servoTree : FileTree where
  entries :=
    [ (["hw"], .folder), (["hw", "libraries"], .folder), (["hw", "libraries", "Servo"], .folder),
      (["hw", "libraries", "Servo", "Servo.h"], .file .empty false), (["user"], .folder),
      (["user", "Servo"], .folder), (["user", "Servo", "Servo.h"], .file .empty false),
      (["user", ".git"], .folder), (["user", "Linked"], .link "Servo") ]
  here := []

theorem servoTree_wellFormed : servoTree.WellFormed where
  named := by
    unfold WellNamed
    decide +kernel
  single := by decide +kernel
  housed := by decide +kernel
  home := rfl

def servoFolders : List Path :=
  libraryFolders servoTree [⟨"user"⟩, ⟨"/hw/../user"⟩] ⟨⟨"avr", ⟨"/hw"⟩⟩, ⟨"avr", ⟨"hw"⟩⟩⟩

theorem load_libraryFolders_servo : servoTree.WellFormed ∧ ∃ c index,
    load servoTree servoFolders = .ok c ∧ c.headerIndex servoTree = .ok index ∧
      (index.candidates "Servo.h").map (·.folder) = [⟨"/user/Servo"⟩, ⟨"/hw/libraries/Servo"⟩] ∧
      index.candidates "Servo.h" = c.libraries.filter (·.offers servoTree "Servo.h") := by
  have hrun : (load servoTree servoFolders >>= fun c => c.headerIndex servoTree >>= fun index =>
      .ok ((index.candidates "Servo.h").map (·.folder))).toOption =
        some [⟨"/user/Servo"⟩, ⟨"/hw/libraries/Servo"⟩] := by decide +kernel
  obtain ⟨c, hc, hrun⟩ := exists_of_bind_ok (ok_of_toOption hrun)
  obtain ⟨index, hi, hrun⟩ := exists_of_bind_ok hrun
  have hlisted := load_libraryFolders servoTree_wellFormed hc hi
  exact ⟨servoTree_wellFormed, c, index, hc, hi, Except.ok.inj hrun, (hlisted.2.2.2 "Servo.h").1⟩

end Catalog

end SketchPrep
