import Mathlib.Data.List.Nodup
import Mathlib.Data.List.Perm.Subperm
import SketchPrep.Proofs.FileTree.Stages

namespace SketchPrep

def FileTree.Linkless (t : FileTree) : Prop := ∀ e ∈ t.entries, ∀ target, e.2 ≠ .link target

namespace FileTree

variable {t : FileTree} {location folder place names : Location} {name : String} {entry : Entry}
  {found : Location × Entry} {p : Path}

theorem isFile_iff : t.isFile p = true ↔
    ∃ location content runnable, t.entry? p = .ok (location, .file content runnable) := by
  unfold isFile
  split
  · rename_i location content runnable hentry
    simp [hentry]
  · rename_i hother
    refine iff_of_false nofun ?_
    rintro ⟨location, content, runnable, hentry⟩
    exact hother location content runnable hentry

theorem isFolder_iff : t.isFolder p = true ↔ ∃ location, t.entry? p = .ok (location, .folder) := by
  unfold isFolder
  split
  · rename_i location hentry
    simp [hentry]
  · rename_i hother
    refine iff_of_false nofun ?_
    rintro ⟨location, hentry⟩
    exact hother location hentry

theorem hasEntry_iff : t.hasEntry p = true ↔ ∃ found, t.entry? p = .ok found := by
  unfold hasEntry
  split
  · rename_i found hentry
    simp [hentry]
  · rename_i hentry
    simp [hentry]

theorem entry?_root (t : FileTree) : t.entry? (Location.path []) = .ok ([], .folder) := rfl

namespace Linkless

theorem find?_ne (h : t.Linkless) (location : Location) (target : String) :
    t.find? location ≠ some (.link target) := by
  intro hlink
  have hne : location ≠ [] := ne_nil_of_find? (t := t) (by simp [hlink])
  exact h _ (mem_entries_of_find? hlink hne) target rfl

theorem entry?_path (h : t.Linkless) (hp : location.IsPlain) (he : t.entry? location.path = .ok (place, entry)) :
    place = location := by
  have hends : t.EndsAt (t.goal location.path) (t.reach location.path) :=
    reachText_endsAt true fun place target _ => h.find?_ne place target
  rw [reach_of_found he, goal_path t hp] at hends
  exact hends.1

theorem entry?_dropLast (h : t.Linkless) (hp : location.IsPlain) (hn : Path.isPlain name = true)
    (he : t.entry? (Location.path (location ++ [name])) = .ok found) :
    t.entry? location.path = .ok (location, .folder) := by
  by_cases hne : location = []
  · rw [hne]
    exact entry?_root t
  · obtain ⟨place, entry⟩ := found
    rw [← Location.path_div hp hn] at he
    have htext : location.path.text.toList ≠ [] := by simp [Location.toList_path]
    have hslash : (⟨name⟩ : Path).isAbsolute = false :=
      Path.isAbsolute_of_not_mem (Path.isPlain_iff.1 hn).1
    have hway : (⟨name⟩ : Path).way ≠ [] := by simp [Path.way_of_isPlain hn]
    obtain ⟨folder, _, hfolder, -⟩ := entry?_join htext (hp.getLast?_path hne) hslash hway he
    rw [hfolder, h.entry?_path hp hfolder]

/-- The way to an entry leads through folders. -/
theorem entry?_prefix (h : t.Linkless) (hp : location.IsPlain) (hn : names.IsPlain) (hne : names ≠ [])
    (he : t.entry? (Location.path (location ++ names)) = .ok found) :
    t.entry? location.path = .ok (location, .folder) := by
  induction names generalizing location with
  | nil => exact absurd rfl hne
  | cons name names ih =>
      obtain ⟨hname, hnames⟩ := List.forall_mem_cons.1 hn
      have hdown : Location.IsPlain (location ++ [name]) := hp.append (Location.isPlain_singleton.2 hname)
      by_cases hlast : names = []
      · rw [hlast] at he
        exact h.entry?_dropLast hp hname he
      · rw [List.append_cons] at he
        exact h.entry?_dropLast hp hname (ih hdown hnames hlast he)

theorem isFolder_path (h : t.Linkless) (hp : location.IsPlain) :
    t.isFolder location.path = true ↔ t.entry? location.path = .ok (location, .folder) := by
  rw [isFolder_iff]
  refine ⟨?_, fun hfolder => ⟨location, hfolder⟩⟩
  rintro ⟨place, hfolder⟩
  rw [hfolder, h.entry?_path hp hfolder]

end Linkless

theorem stepsOf_path (h : location.IsPlain) (hne : location ≠ []) : stepsOf location.path.text = location := by
  have hslash : (location.path.text.toList.getLast? == some '/') = false := by
    simpa using h.getLast?_path hne
  have hpieces : (location.map String.toList).filter (fun piece => !piece.isEmpty) = location.map String.toList := by
    refine List.filter_eq_self.2 fun piece hpiece => ?_
    have hkept := h.isFiller piece hpiece
    rw [Path.isFiller, Bool.or_eq_false_iff] at hkept
    rw [hkept.1]
    rfl
  rw [stepsOf, h.splitOn_path hne, hslash, List.filter_cons_of_neg (by simp), hpieces]
  simp

/-- In a tree without links nothing but a name that is too long stops the descent to an entry. -/
theorem descend_eq_found_iff (ht : t.WellFormed) (hl : t.Linkless)
    (hf : t.find? (folder ++ names) = some entry) :
    t.descend true folder names = .reached (.found (folder ++ names) entry) ↔
      ∀ name ∈ names, name.utf8ByteSize ≤ nameLimit := by
  induction names generalizing folder with
  | nil =>
      rw [List.append_nil] at hf ⊢
      exact iff_of_true (Course.stop hf).eq (List.forall_mem_nil _)
  | cons name names ih =>
      have hplain := ht.named.isPlain hf
      have hname : Path.isPlain name = true := hplain name (by simp)
      have hfolder : t.find? folder = some .folder :=
        ht.find?_of_prefix hf (List.prefix_append _ _) (by simp)
      have hdot : name ≠ "." := by
        rintro rfl
        exact absurd hname (by decide)
      have hup : name ≠ ".." := (Path.isPlain_iff.1 hname).2.2
      rw [List.append_cons] at hf ⊢
      obtain ⟨next, hnext⟩ : ∃ next, t.find? (folder ++ [name]) = some next := by
        by_cases hlast : names = []
        · rw [hlast, List.append_nil] at hf
          exact ⟨entry, hf⟩
        · exact ⟨.folder, ht.find?_of_prefix hf (List.prefix_append _ _) (by simpa using hlast)⟩
      by_cases hlong : nameLimit < name.utf8ByteSize
      · rw [(Course.long hfolder hdot hup hlong).eq, List.forall_mem_cons]
        exact iff_of_false nofun fun h => Nat.not_le.2 hlong h.1
      · have hother : ∀ target, next ≠ .link target := by
          rintro target rfl
          exact hl.find?_ne _ target hnext
        rw [descend_down ⟨hfolder, hdot, hup, hlong⟩ hnext hother, ih hf, List.forall_mem_cons]
        exact (and_iff_right (Nat.not_lt.1 hlong)).symm

theorem entry?_path_iff (ht : t.WellFormed) (hl : t.Linkless) (hne : location ≠ [])
    (hf : t.find? location = some entry) : t.entry? location.path = .ok (location, entry) ↔
      Followable location.path.text ∧ ∀ name ∈ location, name.utf8ByteSize ≤ nameLimit := by
  obtain ⟨r, hd, -⟩ := (t.course true [] location).endsAt fun _ _ target => hl.find?_ne _ target
  have hwalk : t.walk true linkLimit (t.startOf location.path.text) (stepsOf location.path.text) = r := by
    rw [startOf_path, stepsOf_path (ht.named.isPlain hf) hne, walk, hd]
  have hshort := descend_eq_found_iff ht hl (show t.find? ([] ++ location) = some entry from hf)
  rw [List.nil_append, hd, Descent.reached.injEq] at hshort
  rw [← hshort]
  constructor
  · intro h
    exact ⟨followable_of_found h, hwalk.symm.trans (walk_of_found h)⟩
  · rintro ⟨hfollow, hfound⟩
    apply found_of_reach
    rw [reach, hfollow.reachText, hwalk]
    exact hfound

/-- The location's path leads to a regular file there. -/
def HoldsFile (t : FileTree) (location : Location) : Prop :=
  ∃ content runnable, t.entry? location.path = .ok (location, .file content runnable)

theorem WellFormed.isPlain_of_holdsFile (ht : t.WellFormed) (h : t.HoldsFile location) : location.IsPlain := by
  obtain ⟨content, runnable, he⟩ := h
  exact ht.named.isPlain (find?_of_found he)

theorem HoldsFile.isFile (h : t.HoldsFile location) : t.isFile location.path = true := by
  obtain ⟨content, runnable, he⟩ := h
  exact isFile_iff.2 ⟨location, content, runnable, he⟩

theorem Linkless.holdsFile (h : t.Linkless) (hp : location.IsPlain) (hf : t.isFile location.path = true) :
    t.HoldsFile location := by
  obtain ⟨place, content, runnable, he⟩ := isFile_iff.1 hf
  obtain rfl := h.entry?_path hp he
  exact ⟨content, runnable, he⟩

/-- Only the limits of the system keep the path of a file from leading to it. -/
theorem holdsFile_iff (ht : t.WellFormed) (hl : t.Linkless) : t.HoldsFile location ↔
    (t.find? location).any Entry.isFile = true ∧ Followable location.path.text ∧
      ∀ name ∈ location, name.utf8ByteSize ≤ nameLimit := by
  rw [Option.any_eq_true]
  constructor
  · rintro ⟨content, runnable, he⟩
    have hf := find?_of_found he
    exact ⟨⟨_, hf, rfl⟩, (entry?_path_iff ht hl (ne_nil_of_find? (t := t) (by simp [hf])) hf).1 he⟩
  · rintro ⟨⟨entry, hf, hfile⟩, hlimits⟩
    cases entry with
    | file content runnable =>
        exact ⟨content, runnable, (entry?_path_iff ht hl (ne_nil_of_find? (t := t) (by simp [hf])) hf).2 hlimits⟩
    | link | folder => cases hfile

def Lists (t : FileTree) (location : Location) (name : String) : Prop :=
  t.entry? location.path = .ok (location, .folder) ∧ ∃ entry, t.find? (location ++ [name]) = some entry

theorem Linkless.lists_of_entry (h : t.Linkless) (hp : Location.IsPlain (location ++ name :: names))
    (he : t.entry? (Location.path (location ++ name :: names)) = .ok found) : t.Lists location name := by
  obtain ⟨hlocation, hnames⟩ := List.forall_mem_append.1 hp
  refine ⟨h.entry?_prefix hlocation hnames (List.cons_ne_nil name names) he, ?_⟩
  rw [List.append_cons] at he hp
  obtain ⟨hdown, hnames⟩ := List.forall_mem_append.1 hp
  by_cases hlast : names = []
  · rw [hlast, List.append_nil] at he
    obtain ⟨place, entry⟩ := found
    obtain rfl := h.entry?_path hdown he
    exact ⟨entry, find?_of_found he⟩
  · exact ⟨.folder, find?_of_found (h.entry?_prefix hdown hnames hlast he)⟩

theorem mem_names_iff (ht : t.WellFormed) (hl : t.Linkless) (hp : location.IsPlain) :
    name ∈ ((t.list location.path).toOption.getD []).map (·.1) ↔ t.Lists location name := by
  by_cases hf : t.entry? location.path = .ok (location, .folder)
  · have hlist : t.list location.path = .ok (t.children location) := list_eq_ok_iff.2 ⟨location, hf, rfl⟩
    rw [hlist, List.mem_map]
    constructor
    · rintro ⟨⟨_, entry⟩, he, rfl⟩
      exact ⟨hf, entry, ht.mem_children.1 he⟩
    · rintro ⟨-, entry, he⟩
      exact ⟨(name, entry), ht.mem_children.2 he, rfl⟩
  · refine iff_of_false (fun hname => ?_) fun hlists => hf hlists.1
    cases hlist : t.list location.path with
    | error e =>
        rw [hlist] at hname
        cases hname
    | ok entries =>
        obtain ⟨place, hplace, -⟩ := list_eq_ok_iff.1 hlist
        exact hf (hl.entry?_path hp hplace ▸ hplace)

/-- A location with an entry is not deeper than the tree has entries: the folders on the way are some too. -/
theorem WellFormed.length_le (ht : t.WellFormed) (hf : t.find? location = some entry) :
    location.length ≤ t.entries.length := by
  have hnodup : ((List.range location.length).map fun n => location.take (n + 1)).Nodup := by
    refine List.Nodup.map_on (fun n hn m hm he => ?_) List.nodup_range
    have hlength := congrArg List.length he
    rw [List.mem_range] at hn hm
    simp only [List.length_take] at hlength
    omega
  have hsub : ((List.range location.length).map fun n => location.take (n + 1)) ⊆ t.entries.map (·.1) := by
    intro place hplace
    obtain ⟨n, hn, rfl⟩ := List.mem_map.1 hplace
    have hne : location.take (n + 1) ≠ [] := by
      have hlength := List.mem_range.1 hn
      simp only [ne_eq, List.take_eq_nil_iff, not_or]
      exact ⟨by omega, fun he => by simp [he] at hlength⟩
    by_cases hwhole : location.take (n + 1) = location
    · rw [hwhole] at hne ⊢
      exact List.mem_map_of_mem (mem_entries_of_find? hf hne)
    · have hfolder := ht.find?_of_prefix hf (List.take_prefix (n + 1) location) hwhole
      exact List.mem_map_of_mem (f := (·.1)) (mem_entries_of_find? hfolder hne)
  simpa using (hnodup.subperm hsub).length_le

end FileTree

end SketchPrep
