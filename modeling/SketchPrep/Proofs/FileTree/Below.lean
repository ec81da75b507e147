import SketchPrep.Proofs.FileTree.Linkless

namespace SketchPrep

namespace Path

def under (p : Path) (names : List String) : Path := names.foldl (fun p name => p / name) p

variable {p q : Path} {name : String} {names others : Location}

theorem under_concat (p : Path) (names : List String) (name : String) :
    p.under (names ++ [name]) = p.under names / name := List.foldl_concat ..

theorem way_div (h : isPlain name = true) : (p / name).way = p.way ++ [name] := by
  rw [← way_of_isPlain h]
  exact way_join (isAbsolute_of_not_mem (isPlain_iff.1 h).1)

theorem way_under (h : names.IsPlain) : (p.under names).way = p.way ++ names := by
  induction names using List.reverseRecOn with
  | nil => exact (List.append_nil p.way).symm
  | append_singleton names name ih =>
      obtain ⟨hnames, hname⟩ := List.forall_mem_append.1 h
      rw [under_concat, way_div (Location.isPlain_singleton.1 hname), ih hnames, List.append_assoc]

theorem way_eq_of_same (h : p.same q = true) : p.way = q.way := by
  have hway (p : Path) : p.way = p.components.filterMap stepOf := (filterMap_stepOf_components p).symm
  rw [hway, hway, same_iff.1 h]

/-- Different names lead to different paths. -/
theorem under_same_iff (h : names.IsPlain) (ho : others.IsPlain) :
    (p.under names).same (p.under others) = true ↔ names = others := by
  constructor
  · intro hsame
    have hway := way_eq_of_same hsame
    rw [way_under h, way_under ho] at hway
    exact List.append_cancel_left hway
  · rintro rfl
    exact same_refl _

end Path

namespace FileTree

variable {t : FileTree} {p : Path} {place other names : Location} {name : String} {entry : Entry} {deep : Bool}
  {keep : String → Bool}

def waysIn (t : FileTree) (place : Location) (deep : Bool) : List Location :=
  ((t.below (!isIgnoredName ·) place).filter fun e => e.2.isFile && (deep || e.1.length == 1)).map (·.1)

theorem filesIn_of_folder (h : t.entry? p = .ok (place, .folder)) (deep : Bool) :
    t.filesIn p deep = .ok ((t.waysIn place deep).map p.under) := by
  rw [filesIn, h, waysIn, List.map_map, ← List.filterMap_eq_map, List.filterMap_filter]
  apply congrArg Except.ok
  refine List.filterMap_congr fun e _ => ?_
  obtain ⟨way, entry⟩ := e
  cases entry with
  | file content runnable => simp [Entry.isFile, Path.under]
  | link | folder => rfl

theorem filesIn_of_not_folder (h : t.entry? p = .ok (place, entry)) (hother : entry ≠ .folder) (deep : Bool) :
    t.filesIn p deep = .ok [] := by
  unfold filesIn
  split
  · rename_i he
    rw [h] at he
    cases he
    exact absurd rfl hother
  · rfl
  · rename_i he
    rw [h] at he
    cases he

def seenFrom? (keep : String → Bool) (place : Location) (e : Location × Entry) : Option (Location × Entry) :=
  match place.isPrefixOf? e.1 with
  | some [] => none
  | some way => if way.all keep then some (way, e.2) else none
  | none => none

theorem seenFrom?_eq_some {e : Location × Entry} : seenFrom? keep place e = some (names, entry) ↔
    names ≠ [] ∧ (∀ name ∈ names, keep name = true) ∧ e = (place ++ names, entry) := by
  obtain ⟨location, found⟩ := e
  constructor
  · intro h
    unfold seenFrom? at h
    split at h
    · cases h
    · rename_i way hne hprefix
      obtain ⟨hkeep, he⟩ := Option.ite_none_right_eq_some.1 h
      obtain ⟨rfl, rfl⟩ := Prod.mk.inj (Option.some.inj he)
      exact ⟨hne, List.all_eq_true.1 hkeep, by rw [List.append_eq_of_isPrefixOf?_eq_some hprefix]⟩
    · cases h
  · rintro ⟨hne, hkeep, he⟩
    obtain ⟨rfl, rfl⟩ := Prod.mk.inj he
    obtain ⟨name, rest, rfl⟩ := List.exists_cons_of_ne_nil hne
    rw [seenFrom?, isPrefixOf?_append]
    exact if_pos (List.all_eq_true.2 hkeep)

theorem below_eq (t : FileTree) (keep : String → Bool) (place : Location) :
    t.below keep place = t.entries.filterMap (seenFrom? keep place) := rfl

theorem mem_below_iff : (names, entry) ∈ t.below keep place ↔
    names ≠ [] ∧ (∀ name ∈ names, keep name = true) ∧ (place ++ names, entry) ∈ t.entries := by
  rw [below_eq, List.mem_filterMap]
  constructor
  · rintro ⟨e, he, hseen⟩
    obtain ⟨hne, hkeep, rfl⟩ := seenFrom?_eq_some.1 hseen
    exact ⟨hne, hkeep, he⟩
  · rintro ⟨hne, hkeep, he⟩
    exact ⟨_, he, seenFrom?_eq_some.2 ⟨hne, hkeep, rfl⟩⟩

theorem mem_waysIn (ht : t.WellFormed) : names ∈ t.waysIn place deep ↔
    names ≠ [] ∧ (∀ name ∈ names, isIgnoredName name = false) ∧ (deep = true ∨ names.length = 1) ∧
      (t.find? (place ++ names)).any Entry.isFile = true := by
  rw [waysIn, List.mem_map]
  constructor
  · rintro ⟨⟨way, entry⟩, hlisted, rfl⟩
    obtain ⟨hbelow, hfile⟩ := List.mem_filter.1 hlisted
    obtain ⟨hne, hkeep, hentry⟩ := mem_below_iff.1 hbelow
    obtain ⟨hfile, hdepth⟩ := Bool.and_eq_true_iff.1 hfile
    refine ⟨hne, fun name hname => by simpa using hkeep name hname, by simpa using hdepth, ?_⟩
    rw [(ht.find?_iff (by simp [hne])).2 hentry]
    exact hfile
  · rintro ⟨hne, hkept, hdepth, hany⟩
    obtain ⟨entry, hfound, hfile⟩ := (Option.any_eq_true _ _).1 hany
    have hbelow : (names, entry) ∈ t.below (!isIgnoredName ·) place :=
      mem_below_iff.2 ⟨hne, fun name hname => by simp [hkept name hname], (ht.find?_iff (by simp [hne])).1 hfound⟩
    exact ⟨_, List.mem_filter.2 ⟨hbelow, Bool.and_eq_true_iff.2 ⟨hfile, by simpa using hdepth⟩⟩, rfl⟩

theorem isPlain_of_isFile (ht : t.WellFormed) (h : (t.find? (place ++ names)).any Entry.isFile = true) :
    names.IsPlain := by
  obtain ⟨entry, hfound, -⟩ := (Option.any_eq_true _ _).1 h
  exact (List.forall_mem_append.1 (ht.named.isPlain hfound)).2

theorem nodup_waysIn (ht : t.WellFormed) (place : Location) (deep : Bool) : (t.waysIn place deep).Nodup := by
  apply (List.filter_sublist.map _).nodup
  rw [List.Nodup, List.pairwise_map, below_eq, List.pairwise_filterMap]
  refine (List.pairwise_map.1 ht.single).imp ?_
  rintro e f hne ⟨way, entry⟩ hway ⟨other, _⟩ hother rfl
  obtain ⟨-, -, rfl⟩ := seenFrom?_eq_some.1 hway
  obtain ⟨-, -, rfl⟩ := seenFrom?_eq_some.1 hother
  exact hne rfl

theorem goal_div (t : FileTree) (p : Path) (h : Path.isPlain name = true) : t.goal (p / name) = t.goal p ++ [name] := by
  have hrooted : isRooted (p / name).text = isRooted p.text :=
    Path.isAbsolute_join (Path.isAbsolute_of_not_mem (Path.isPlain_iff.1 h).1)
  have hplain : Location.IsPlain [name] := Location.isPlain_singleton.2 h
  rw [goal, goal, startOf, startOf, hrooted, Path.way_div h, Location.follow_append, hplain.follow]

/-- Where no entry is a link, a path leads to where its names say. -/
theorem Linkless.eq_goal (h : t.Linkless) (he : t.entry? p = .ok (place, entry)) : place = t.goal p := by
  have hends : t.EndsAt (t.goal p) (t.reach p) := reachText_endsAt true fun place target _ => h.find?_ne place target
  rw [reach_of_found he] at hends
  exact hends.1

theorem Linkless.entry?_div (h : t.Linkless) (hp : t.entry? p = .ok (place, entry)) (hn : Path.isPlain name = true)
    (hf : t.isFolder (p / name) = true) : t.entry? (p / name) = .ok (place ++ [name], .folder) := by
  obtain ⟨other, ho⟩ := isFolder_iff.1 hf
  rw [ho, h.eq_goal ho, goal_div t p hn, h.eq_goal hp]

/-- Every folder from the place to which the path leads on down can be reached by its own path. -/
def Readable (t : FileTree) (p : Path) : Prop :=
  ∀ place names, t.entry? p = .ok (place, .folder) → t.find? (place ++ names) = some .folder →
    t.isFolder (p.under names) = true

/-- It is enough to look at the folders that are listed below the place. -/
theorem readable_iff (ht : t.WellFormed) (hp : t.entry? p = .ok (place, .folder)) : t.Readable p ↔
    ∀ e ∈ t.below (fun _ => true) place, e.2 = .folder → t.isFolder (p.under e.1) = true := by
  constructor
  · rintro h ⟨names, entry⟩ he rfl
    obtain ⟨hne, -, hentry⟩ := mem_below_iff.1 he
    exact h place names hp ((ht.find?_iff (by simp [hne])).2 hentry)
  · intro h other names ho hf
    obtain ⟨rfl, -⟩ := Prod.mk.inj (Except.ok.inj (hp.symm.trans ho))
    by_cases hne : names = []
    · rw [hne]
      exact isFolder_iff.2 ⟨_, hp⟩
    · exact h _ (mem_below_iff.2 ⟨hne, fun _ _ => rfl, (ht.find?_iff (by simp [hne])).1 hf⟩) rfl

theorem Readable.isFolder_div_iff (hr : t.Readable p) (hl : t.Linkless) (hp : t.entry? p = .ok (place, .folder))
    (hn : Path.isPlain name = true) :
    t.isFolder (p / name) = true ↔ t.find? (place ++ [name]) = some .folder := by
  constructor
  · exact fun hf => find?_of_found (hl.entry?_div hp hn hf)
  · exact fun hf => hr place [name] hp hf

theorem waysIn_eq_nil (ht : t.WellFormed) (h : t.find? place ≠ some .folder) (deep : Bool) :
    t.waysIn place deep = [] := by
  rw [List.eq_nil_iff_forall_not_mem]
  intro names hm
  obtain ⟨hne, -, -, hany⟩ := (mem_waysIn ht).1 hm
  obtain ⟨entry, hfound, -⟩ := (Option.any_eq_true _ _).1 hany
  exact h (ht.find?_of_prefix hfound (List.prefix_append place names) fun he => hne (List.append_right_eq_self.1 he.symm))

/-- The files that are listed below a path, if it leads anywhere. -/
theorem filesIn_of_found (ht : t.WellFormed) (h : t.entry? p = .ok (place, entry)) (deep : Bool) :
    t.filesIn p deep = .ok ((t.waysIn place deep).map p.under) := by
  by_cases hfolder : entry = .folder
  · rw [hfolder] at h
    exact filesIn_of_folder h deep
  · have hother : t.find? place ≠ some .folder := by
      rw [find?_of_found h]
      simpa using hfolder
    rw [filesIn_of_not_folder h hfolder, waysIn_eq_nil ht hother, List.map_nil]

end FileTree

end SketchPrep
