import SketchPrep.Catalog
import SketchPrep.Proofs.Failure
import SketchPrep.Proofs.FileTree.WellFormed
import SketchPrep.Proofs.Path.Order

namespace SketchPrep

namespace Location

variable {location place : Location}

theorem hasPath_map_path {places : List Location} (h : location.IsPlain) (hp : ∀ place ∈ places, place.IsPlain) :
    hasPath (places.map path) location.path = true ↔ location ∈ places := by
  rw [hasPath, List.any_map, List.any_eq_true]
  constructor
  · rintro ⟨place, hplace, hsame⟩
    rwa [← (same_path_iff (hp place hplace) h).1 hsame]
  · exact fun hm => ⟨location, hm, Path.same_refl _⟩

theorem eraseDups_concat (places : List Location) (location : Location) :
    (places ++ [location]).eraseDups =
      if location ∈ places then places.eraseDups else places.eraseDups ++ [location] := by
  rw [List.eraseDups_append, List.removeAll]
  by_cases hm : location ∈ places <;> simp [hm, List.eraseDups_cons]

theorem nodup_eraseDups (places : List Location) : places.eraseDups.Nodup := by
  induction places using List.reverseRecOn with
  | nil => exact List.nodup_nil
  | append_singleton places location ih =>
      rw [eraseDups_concat]
      split
      · exact ih
      · rename_i hm
        refine List.nodup_append.2 ⟨ih, List.nodup_singleton _, ?_⟩
        rintro place hp _ hl rfl
        rw [List.mem_singleton.1 hl, List.mem_eraseDups] at hp
        exact hm hp

end Location

namespace FileTree

variable {t : FileTree} {p : Path} {ps : List Path} {place location : Location}

def folderAt? (t : FileTree) (p : Path) : Option Location := (t.reach p).folder?

theorem folderAt?_eq_some : t.folderAt? p = some place ↔ t.entry? p = .ok (place, .folder) := by
  unfold folderAt? entry?
  cases t.reach p with
  | found location entry => cases entry <;> simp [Reached.folder?]
  | vacant => simp [Reached.folder?]
  | failed => simp [Reached.folder?]

theorem isFolder_eq (t : FileTree) (p : Path) : t.isFolder p = (t.folderAt? p).isSome := by
  unfold isFolder folderAt? entry?
  cases t.reach p with
  | found location entry => cases entry <;> rfl
  | vacant => rfl
  | failed => rfl

theorem normalize_of_found {entry : Entry} (h : t.entry? p = .ok (place, entry)) :
    t.normalize p = place.path := by
  rw [normalize, canonical, h]
  rfl

def placesOf (t : FileTree) (ps : List Path) : List Location := (ps.filterMap t.folderAt?).eraseDups

theorem mem_placesOf : place ∈ t.placesOf ps ↔ ∃ p ∈ ps, t.entry? p = .ok (place, .folder) := by
  simp only [placesOf, List.mem_eraseDups, List.mem_filterMap, folderAt?_eq_some]

namespace WellFormed

theorem found_of_list_normalize (h : t.WellFormed) {entries : List (String × Entry)}
    (hl : t.list (t.normalize p) = .ok entries) : ∃ place, t.entry? p = .ok (place, .folder) := by
  cases hp : t.entry? p with
  | error e =>
      have hsame : t.normalize p = p := by
        rw [normalize, canonical, hp]
        rfl
      rw [hsame, list, hp] at hl
      cases hl
  | ok found =>
      obtain ⟨place, entry⟩ := found
      rw [normalize_of_found hp] at hl
      obtain ⟨other, hcanonical, -⟩ := FileTree.list_eq_ok_iff.1 hl
      obtain ⟨rfl, rfl⟩ := Prod.mk.inj (h.entry?_canonical hp hcanonical)
      exact ⟨_, rfl⟩

theorem isPlain_of_mem (h : t.WellFormed) (hp : place ∈ t.placesOf ps) : place.IsPlain := by
  obtain ⟨p, -, hp⟩ := mem_placesOf.1 hp
  exact h.named.isPlain (find?_of_found hp)

theorem list_path (h : t.WellFormed) (hp : place ∈ t.placesOf ps) {entries : List (String × Entry)}
    (hl : t.list place.path = .ok entries) : entries = t.children place := by
  obtain ⟨p, -, hp⟩ := mem_placesOf.1 hp
  obtain ⟨other, hcanonical, rfl⟩ := FileTree.list_eq_ok_iff.1 hl
  obtain ⟨rfl, -⟩ := Prod.mk.inj (h.entry?_canonical hp hcanonical)
  rfl

theorem foldl_addFolder (h : t.WellFormed)
    (hl : ∀ q ∈ (ps.map t.normalize).foldl addFolder [], ∃ entries, t.list q = .ok entries) :
    (ps.map t.normalize).foldl addFolder [] = (t.placesOf ps).map Location.path := by
  induction ps using List.reverseRecOn with
  | nil => rfl
  | append_singleton ps p ih =>
      rw [List.map_append, List.map_singleton, List.foldl_concat, addFolder] at hl ⊢
      have hfirst := ih fun q hq => hl q (by split <;> simp [hq])
      rw [hfirst] at hl ⊢
      have hplain : ∀ place ∈ t.placesOf ps, place.IsPlain := fun place => h.isPlain_of_mem
      cases hp : t.folderAt? p with
      | some place =>
          have hfound := folderAt?_eq_some.1 hp
          have hknown := Location.hasPath_map_path (h.named.isPlain (find?_of_found hfound)) hplain
          have hplaces : t.placesOf (ps ++ [p]) =
              if place ∈ t.placesOf ps then t.placesOf ps else t.placesOf ps ++ [place] := by
            rw [placesOf, List.filterMap_append, List.filterMap_cons_some hp, List.filterMap_nil]
            simpa only [placesOf, List.mem_eraseDups] using Location.eraseDups_concat _ place
          rw [normalize_of_found hfound, hplaces]
          by_cases hm : place ∈ t.placesOf ps
          · rw [if_pos (hknown.2 hm), if_pos hm]
          · rw [if_neg (fun hk => hm (hknown.1 hk)), if_neg hm, List.map_append, List.map_singleton]
      | none =>
          have hplaces : t.placesOf (ps ++ [p]) = t.placesOf ps := by
            rw [placesOf, List.filterMap_append, List.filterMap_cons_none hp, List.filterMap_nil,
              List.append_nil, placesOf]
          rw [hplaces]
          split
          · rfl
          · -- the path would have to be listed
            rename_i hnew
            rw [if_neg hnew] at hl
            obtain ⟨entries, hentries⟩ := hl (t.normalize p) (by simp)
            obtain ⟨place, hfound⟩ := h.found_of_list_normalize hentries
            rw [folderAt?_eq_some.2 hfound] at hp
            cases hp

end WellFormed

structure HoldsLibraries (t : FileTree) (place : Location) (folders : List Location) : Prop where
  mem_iff : ∀ location, location ∈ folders ↔ ∃ name, location = place ++ [name] ∧
    isIgnoredName name = false ∧ t.find? location = some .folder
  sorted : folders.Pairwise fun a b => a.path.le b.path = true
  nodup : folders.Nodup

def isLibraryFolder (e : String × Entry) : Bool := e.2 = .folder && !isIgnoredName e.1

def subfolders (t : FileTree) (place : Location) : List Location :=
  (((t.children place).filter isLibraryFolder).map fun e => place ++ [e.1]).mergeSort fun a b =>
    a.path.le b.path

theorem WellFormed.holdsLibraries_subfolders (h : t.WellFormed) (place : Location) :
    t.HoldsLibraries place (t.subfolders place) := by
  refine ⟨fun location => ?_, ?_, ?_⟩
  · rw [subfolders, List.mem_mergeSort]
    constructor
    · intro hm
      obtain ⟨⟨name, entry⟩, hfolder, rfl⟩ := List.mem_map.1 hm
      obtain ⟨hchild, hkept⟩ := List.mem_filter.1 hfolder
      obtain ⟨rfl, hname⟩ : entry = .folder ∧ isIgnoredName name = false := by
        simpa [isLibraryFolder] using hkept
      exact ⟨name, rfl, hname, h.mem_children.1 hchild⟩
    · rintro ⟨name, rfl, hname, hfolder⟩
      refine List.mem_map.2 ⟨(name, .folder), List.mem_filter.2 ⟨h.mem_children.2 hfolder, ?_⟩, rfl⟩
      simp [isLibraryFolder, hname]
  · refine List.pairwise_mergeSort (fun a b c => ?_) (fun a b => ?_) _
    · exact Path.le_trans
    · exact Path.le_total a.path b.path
  · have hnames : (((t.children place).filter isLibraryFolder).map (·.1)).Nodup :=
      (List.filter_sublist.map _).nodup (h.nodup_children place)
    have hlocations := hnames.map (f := fun name => place ++ [name]) fun name other he => by simpa using he
    rw [subfolders, List.nodup_mergeSort]
    rwa [List.map_map] at hlocations

/-- Folders of libraries in different places are different, and so are their paths. -/
theorem WellFormed.nodup_flatMap_subfolders (h : t.WellFormed) {places : List Location} (hp : places.Nodup) :
    (places.flatMap t.subfolders).Nodup ∧ ((places.flatMap t.subfolders).map Location.path).Nodup := by
  have hfolders : (places.flatMap t.subfolders).Nodup := by
    refine List.nodup_flatMap.2 ⟨fun place _ => (h.holdsLibraries_subfolders place).nodup, ?_⟩
    refine hp.imp fun {place other} hne location hl ho => hne ?_
    obtain ⟨name, rfl, -⟩ := ((h.holdsLibraries_subfolders place).mem_iff location).1 hl
    obtain ⟨name', he, -⟩ := ((h.holdsLibraries_subfolders other).mem_iff _).1 ho
    exact (List.append_inj' he rfl).1
  have hplain : ∀ location ∈ places.flatMap t.subfolders, location.IsPlain := by
    intro location hl
    obtain ⟨place, -, hl⟩ := List.mem_flatMap.1 hl
    obtain ⟨_, -, -, hfound⟩ := ((h.holdsLibraries_subfolders place).mem_iff location).1 hl
    exact h.named.isPlain hfound
  refine ⟨hfolders, hfolders.map_on fun location hl other ho he => ?_⟩
  exact (Location.same_path_iff (hplain location hl) (hplain other ho)).1 (he ▸ Path.same_refl _)

end FileTree

end SketchPrep
