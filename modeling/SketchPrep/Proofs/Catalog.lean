import SketchPrep.Catalog
import SketchPrep.Proofs.Failure
import SketchPrep.Proofs.FileTree.Spelling

namespace SketchPrep

namespace FileTree

def HasFile (t : FileTree) (folder : Path) (name : String) : Prop :=
  ∃ p entries entry content runnable, p.same folder = true ∧ t.list p = .ok entries ∧
    (entry, .file content runnable) ∈ entries ∧ (p / entry).fileName = name

variable {t : FileTree} {folder p : Path} {name : String}

theorem HasFile.congr {other : Path} (h : t.HasFile folder name) (hs : folder.same other = true) :
    t.HasFile other name := by
  obtain ⟨p, entries, entry, content, runnable, hp, hfile⟩ := h
  have hpo : p.same other = true := Path.same_iff.2 ((Path.same_iff.1 hp).trans (Path.same_iff.1 hs))
  exact ⟨p, entries, entry, content, runnable, hpo, hfile⟩

theorem hasFile_iff {entries : List (String × Entry)} (h : t.list folder = .ok entries)
    (hplain : ∀ e ∈ entries, Path.isPlain e.1 = true) :
    t.HasFile folder name ↔ ∃ content runnable, (name, .file content runnable) ∈ entries := by
  constructor
  · rintro ⟨p, others, entry, content, runnable, hp, hlist, hm, rfl⟩
    rw [list_of_same hp hlist h] at hm
    have hname : Path.isPlain entry = true := hplain (entry, .file content runnable) hm
    rw [Path.fileName_join p hname]
    exact ⟨content, runnable, hm⟩
  · rintro ⟨content, runnable, hm⟩
    have hname : Path.isPlain name = true := hplain (name, .file content runnable) hm
    exact ⟨folder, entries, name, content, runnable, folder.same_refl, h, hm,
      Path.fileName_join folder hname⟩

theorem mem_below_singleton {keep : String → Bool} {location : Location} {way : Location}
    {entry : Entry} (h : (way, entry) ∈ t.below keep location) (hone : way.length = 1) :
    ∃ name, way = [name] ∧ (name, entry) ∈ t.children location := by
  obtain ⟨name, rfl⟩ := List.length_eq_one_iff.1 hone
  obtain ⟨⟨place, found⟩, hm, he⟩ := List.mem_filterMap.1 h
  refine ⟨name, rfl, List.mem_filterMap.2 ⟨(place, found), hm, ?_⟩⟩
  dsimp only at he ⊢
  split at he
  · cases he
  · rename_i hway
    split at he
    · cases he
      rw [hway]
    · cases he
  · cases he

theorem mem_filesIn {files : List Path} (h : t.filesIn folder false = .ok files) (hp : p ∈ files) :
    ∃ entries name content runnable, t.list folder = .ok entries ∧
      (name, .file content runnable) ∈ entries ∧ folder / name = p := by
  unfold filesIn at h
  split at h
  · rename_i location hentry
    cases h
    obtain ⟨⟨way, entry⟩, hbelow, hfile⟩ := List.mem_filterMap.1 hp
    dsimp only at hfile
    split at hfile
    · rename_i content runnable
      split at hfile
      · rename_i hone
        obtain ⟨name, rfl, hm⟩ := mem_below_singleton hbelow (by simpa using hone)
        refine ⟨t.children location, name, content, runnable, ?_, hm, Option.some.inj hfile⟩
        rw [list, hentry]
      · cases hfile
    · cases hfile
  · cases h; cases hp
  · cases h

end FileTree

variable {t : FileTree} {l : Library} {header : String}

theorem Library.hasFile_of_mem_headers {headers : List String} (h : l.headers t = .ok headers)
    (hm : header ∈ headers) : t.HasFile l.sourceFolder header := by
  obtain ⟨files, hf, h⟩ := exists_of_bind_ok h
  cases h
  rw [List.mem_mergeSort] at hm
  obtain ⟨p, hp, rfl⟩ := List.mem_map.1 hm
  obtain ⟨entries, name, content, runnable, hlist, he, rfl⟩ :=
    FileTree.mem_filesIn hf (List.mem_filter.1 hp).1
  exact ⟨l.sourceFolder, entries, name, content, runnable, l.sourceFolder.same_refl, hlist, he, rfl⟩

def IsWalkFailure (f : Failure) : Prop :=
  ∃ folder e, f = .during (.walkingFolder folder) (.walk folder e)

theorem isWalkFailure_of_filesIn {folder : Path} {deep : Bool} {f : Failure}
    (h : t.filesIn folder deep = .error f) : IsWalkFailure f := by
  unfold FileTree.filesIn at h
  split at h
  · cases h
  · cases h
  · rename_i e _
    cases h
    exact ⟨folder, e, rfl⟩

theorem Library.isWalkFailure_of_sourceFiles {f : Failure} (h : l.sourceFiles t = .error f) :
    IsWalkFailure f := by
  obtain hall | ⟨files, _, hsort⟩ := exists_of_bind_error h
  · unfold Library.allFiles at hall
    split at hall
    · exact isWalkFailure_of_filesIn hall
    · obtain hflat | ⟨files, _, hrest⟩ := exists_of_bind_error hall
      · exact isWalkFailure_of_filesIn hflat
      · dsimp only at hrest
        split at hrest
        · obtain hutility | ⟨_, _, hdone⟩ := exists_of_bind_error hrest
          · exact isWalkFailure_of_filesIn hutility
          · cases hdone
        · cases hrest
  · cases hsort

theorem Catalog.headers_of_entry {c : Catalog} {index : HeaderIndex}
    (hi : c.headerIndex t = .ok index) (he : (header, l) ∈ index.entries) :
    ∃ headers, l.headers t = .ok headers ∧ header ∈ headers := by
  obtain ⟨pairs, hpairs, hindex⟩ := exists_of_bind_ok hi
  cases hindex
  obtain ⟨block, hblock, he⟩ := List.mem_flatten.1 he
  obtain ⟨l', _, hl⟩ := exists_of_mem_mapM hpairs hblock
  obtain ⟨headers, hheaders, hl⟩ := exists_of_bind_ok hl
  cases hl
  obtain ⟨header', hm, he⟩ := List.mem_map.1 he
  cases he
  refine ⟨headers, ?_, hm⟩
  cases hr : l.headers t with
  | error f => rw [hr] at hheaders; cases hheaders
  | ok => rw [hr] at hheaders; cases hheaders; rfl

/-- A candidate for a header has it in its source folder. -/
theorem Catalog.hasFile_of_candidate {c : Catalog} {index : HeaderIndex}
    (hi : c.headerIndex t = .ok index) (hl : l ∈ index.candidates header) :
    t.HasFile l.sourceFolder header := by
  obtain ⟨entry, hentry, rfl⟩ := List.mem_map.1 hl
  obtain ⟨hm, hkey⟩ := List.mem_filter.1 hentry
  obtain ⟨headers, hheaders, hin⟩ := Catalog.headers_of_entry hi (show (entry.1, entry.2) ∈ _ from hm)
  rw [beq_iff_eq.1 hkey] at hin
  exact Library.hasFile_of_mem_headers hheaders hin

end SketchPrep
