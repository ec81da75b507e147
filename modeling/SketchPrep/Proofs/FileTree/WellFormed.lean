import Mathlib.Data.List.Induction
import Mathlib.Data.List.Nodup
import SketchPrep.Proofs.FileTree.Search
import SketchPrep.Proofs.FileTree.Way

namespace SketchPrep

/-- Entries have places of their own in folders, and relative paths start in a folder. -/
structure FileTree.WellFormed (t : FileTree) : Prop where
  named : t.WellNamed
  single : (t.entries.map (·.1)).Nodup
  housed : ∀ e ∈ t.entries, t.find? e.1.dropLast = some .folder
  home : t.find? t.here = some .folder

namespace Location

variable {location names : Location}

theorem way_path (h : location.IsPlain) : location.path.way = location := by
  rw [← FileTree.dotless_stepsOf_eq_way, dotless_stepsOf, components_path h,
    List.filterMap_cons_none rfl, List.filterMap_map]
  exact List.filterMap_some

theorem IsPlain.follow (h : names.IsPlain) (location : Location) :
    location.follow names = location ++ names := by
  refine follow_eq_append (fun name hname => ⟨?_, ?_⟩) location
  · rintro rfl
    exact absurd (h "." hname) (by decide)
  · rintro rfl
    exact absurd (h ".." hname) (by decide)

end Location

namespace FileTree

variable {t : FileTree} {location place folder : Location} {names : List String} {name : String}
  {entry : Entry} {p : Path}

theorem WellNamed.isPlain (h : t.WellNamed) (hf : t.find? location = some entry) : location.IsPlain := by
  by_cases hne : location = []
  · rw [hne]
    exact List.forall_mem_nil _
  · exact h _ (mem_entries_of_find? hf hne)

theorem startOf_path (t : FileTree) (location : Location) : t.startOf location.path.text = [] :=
  if_pos location.isAbsolute_path

theorem goal_path (t : FileTree) (h : location.IsPlain) : t.goal location.path = location := by
  rw [goal, startOf_path, Location.way_path h, h.follow, List.nil_append]

theorem prefix_of_onWay_path (h : location.IsPlain) (hw : t.OnWay location.path place) :
    place <+: location := by
  obtain ⟨steps, hsteps, rfl⟩ := hw
  rw [Location.way_path h] at hsteps
  have hplain : Location.IsPlain steps := fun name hname => h name (hsteps.subset hname)
  rwa [startOf_path, hplain.follow, List.nil_append]

namespace WellFormed

theorem find?_iff (h : t.WellFormed) (hne : location ≠ []) :
    t.find? location = some entry ↔ (location, entry) ∈ t.entries := by
  refine ⟨fun hf => mem_entries_of_find? hf hne, fun hm => ?_⟩
  obtain ⟨above, below, hsplit⟩ := List.append_of_mem hm
  rw [find?, if_neg (by simpa using hne), List.lookup_eq_some_iff]
  refine ⟨above, below, hsplit, fun e he => ?_⟩
  have hsingle := h.single
  rw [hsplit, List.map_append, List.map_cons] at hsingle
  have hother := (List.nodup_append.1 hsingle).2.2 e.1 (List.mem_map_of_mem he) location List.mem_cons_self
  simpa using hother.symm

theorem find?_dropLast (h : t.WellFormed) (hf : t.find? location = some entry) :
    t.find? location.dropLast = some .folder := by
  by_cases hne : location = []
  · rw [hne]
    rfl
  · exact h.housed _ (mem_entries_of_find? hf hne)

/-- On the way down to an entry there are folders only. -/
theorem find?_of_prefix (h : t.WellFormed) (hf : t.find? location = some entry) (hp : place <+: location)
    (hne : place ≠ location) : t.find? place = some .folder := by
  obtain ⟨rest, rfl⟩ := hp
  induction rest using List.reverseRecOn generalizing entry with
  | nil => exact absurd (List.append_nil place).symm hne
  | append_singleton rest name ih =>
      have hparent := h.find?_dropLast hf
      rw [← List.append_assoc, List.dropLast_concat] at hparent
      by_cases hrest : rest = []
      · rwa [hrest, List.append_nil] at hparent
      · exact ih hparent fun he => hrest (List.append_right_eq_self.1 he.symm)

theorem not_link_of_course (h : t.WellFormed) {d : Descent} (hd : Course t true folder names d)
    (hf : ∀ target, t.find? folder ≠ some (.link target)) (location : Location) (target : String) :
    d ≠ .reached (.found location (.link target)) := by
  induction hd with
  | stop hentry =>
      rintro ⟨⟩
      exact hf target hentry
  | nowhere | blocked | long | vacant | missing | link => nofun
  | leaf _ _ hlast => cases hlast
  | stay _ _ ih => exact ih hf
  | up hfolder _ ih =>
      apply ih
      intro target hlink
      rw [h.find?_dropLast hfolder] at hlink
      cases hlink
  | down _ hentry hother _ ih =>
      apply ih
      intro target hlink
      rw [hentry] at hlink
      exact hother target (Option.some.inj hlink)

theorem not_link_of_walks (h : t.WellFormed) {links : Nat} {r : Reached}
    (hw : Walks t true links folder names r) (hf : ∀ target, t.find? folder ≠ some (.link target))
    (location : Location) (target : String) : r ≠ .found location (.link target) := by
  induction hw with
  | ends hd =>
      rintro rfl
      exact h.not_link_of_course hd hf location target rfl
  | tooMany => nofun
  | @jump links folder names place other rest r hd _ ih =>
      apply ih
      intro target hlink
      unfold landing at hlink
      split at hlink
      · cases hlink
      · rw [hd.find?_of_link] at hlink
        cases hlink

theorem not_link_of_found (h : t.WellFormed) (hp : t.entry? p = .ok (location, entry)) (target : String) :
    entry ≠ .link target := by
  rintro rfl
  refine h.not_link_of_walks (walk_eq_iff.1 (walk_of_found hp)) (fun target hlink => ?_) location target rfl
  unfold startOf at hlink
  split at hlink
  · cases hlink
  · rw [h.home] at hlink
    cases hlink

/-- The canonical path leads nowhere else. -/
theorem entry?_canonical (h : t.WellFormed) (hp : t.entry? p = .ok (location, entry))
    {found : Location × Entry} (hc : t.entry? location.path = .ok found) : found = (location, entry) := by
  have hfind := find?_of_found hp
  have hplain := h.named.isPlain hfind
  have hlinks : ∀ place target, t.OnWay location.path place → t.find? place ≠ some (.link target) := by
    intro place target hw hlink
    by_cases he : place = location
    · rw [he, hfind] at hlink
      exact h.not_link_of_found hp target (Option.some.inj hlink)
    · rw [h.find?_of_prefix hfind (prefix_of_onWay_path hplain hw) he] at hlink
      cases hlink
  have hends : t.EndsAt (t.goal location.path) (t.reach location.path) := reachText_endsAt true hlinks
  unfold entry? at hc
  split at hc
  · rename_i place other hreach
    rw [hreach, goal_path t hplain] at hends
    obtain ⟨rfl, hother⟩ := hends
    rw [hfind] at hother
    cases hother
    exact (Except.ok.inj hc).symm
  · cases hc
  · cases hc

theorem mem_children (h : t.WellFormed) :
    (name, entry) ∈ t.children location ↔ t.find? (location ++ [name]) = some entry := by
  rw [h.find?_iff (by simp)]
  exact mem_children_iff

def childName? (location place : Location) : Option String :=
  match location.isPrefixOf? place with
  | some [name] => some name
  | _ => none

theorem nodup_children (h : t.WellFormed) (location : Location) :
    ((t.children location).map (·.1)).Nodup := by
  have hnames : (t.children location).map (·.1) =
      (t.entries.map (·.1)).filterMap (childName? location) := by
    rw [children, List.map_filterMap, List.filterMap_map]
    refine List.filterMap_congr fun e _ => ?_
    dsimp only [Function.comp, childName?]
    rcases location.isPrefixOf? e.1 with _ | _ | ⟨name, _ | _⟩ <;> rfl
  rw [hnames]
  refine h.single.filterMap fun place other name hp ho => ?_
  unfold childName? at hp ho
  split at hp
  · split at ho
    · rename_i hprefix _ _ hother
      cases hp
      cases ho
      rw [← List.append_eq_of_isPrefixOf?_eq_some hprefix, ← List.append_eq_of_isPrefixOf?_eq_some hother]
    · cases ho
  · cases hp

end WellFormed

end FileTree

end SketchPrep
