import SketchPrep.FileTree.Access
import SketchPrep.Proofs.FileTree.Change

namespace SketchPrep

namespace Path

variable {p q r : Path}

def Follows (q p : Path) : Prop :=
  q.isAbsolute = p.isAbsolute ∧ (q.way <+: p.way ∨ ∃ names, ".." ∉ names ∧ q.way = p.way ++ names)

/-- The way of `q` goes down from where the way of `p` ends. -/
def Descends (q p : Path) : Prop :=
  q.isAbsolute = p.isAbsolute ∧ ∃ names, names ≠ [] ∧ ".." ∉ names ∧ q.way = p.way ++ names

theorem dot_not_mem_way (p : Path) : "." ∉ p.way := by
  intro h
  rw [← FileTree.dotless_stepsOf_eq_way, dotless] at h
  simpa using (List.mem_filter.1 h).2

theorem noDots_of_way {names : List String} (hway : q.way = p.way ++ names) (hup : ".." ∉ names) :
    ∀ name ∈ names, name ≠ "." ∧ name ≠ ".." := by
  refine fun name hname => ⟨?_, ?_⟩
  · rintro rfl
    exact dot_not_mem_way q (hway ▸ List.mem_append_right _ hname)
  · rintro rfl
    exact hup hname

theorem Descends.follows (h : q.Descends p) : q.Follows p := by
  obtain ⟨habs, names, -, hup, hway⟩ := h
  exact ⟨habs, .inr ⟨names, hup, hway⟩⟩

theorem Follows.parent? (h : q.Follows p) (hr : q.parent? = some r) : r.Follows p := by
  obtain ⟨habs, hway⟩ := h
  refine ⟨(isAbsolute_parent? hr).trans habs, ?_⟩
  rw [way_parent? hr]
  obtain hway | ⟨names, hup, hway⟩ := hway
  · exact .inl ((List.dropLast_prefix _).trans hway)
  · by_cases hnames : names = []
    · rw [hway, hnames, List.append_nil]
      exact .inl (List.dropLast_prefix _)
    · rw [hway, List.dropLast_append_of_ne_nil hnames]
      exact .inr ⟨names.dropLast, fun hm => hup (List.dropLast_subset names hm), rfl⟩

theorem Follows.ancestors (h : q.Follows p) (n : Nat) : ∀ r ∈ q.ancestors n, r.Follows p := by
  induction n generalizing q with
  | zero => intro r hr; cases hr
  | succ n ih =>
      intro r hr
      rw [Path.ancestors] at hr
      split at hr
      · rename_i parent hparent
        rcases List.mem_cons.1 hr with rfl | hr
        · exact h
        · exact ih (h.parent? hparent) r hr
      · rw [List.mem_singleton.1 hr]
        exact h

theorem Descends.join (h : q.Descends p) (hr : r.isAbsolute = false) (hup : ".." ∉ r.way) :
    (q.join r).Descends p := by
  obtain ⟨habs, names, hne, hnames, hway⟩ := h
  refine ⟨(isAbsolute_join hr).trans habs, names ++ r.way, by simp [hne], by simp [hnames, hup], ?_⟩
  rw [way_join hr, hway, List.append_assoc]

theorem descends_join (p : Path) (hr : r.isAbsolute = false) (hup : ".." ∉ r.way) (hne : r.way ≠ []) :
    (p.join r).Descends p :=
  ⟨isAbsolute_join hr, r.way, hne, hup, way_join hr⟩

end Path

namespace FileTree

variable {t t' u : FileTree} {p q : Path} {location : Location} {entry : Entry}

/-- Only what is below `p` is changed, but for missing folders on the way to it; no link is made. -/
structure ChangedBelow (p : Path) (t t' : FileTree) : Prop where
  here : t'.here = t.here
  changes : ∀ location, t'.find? location ≠ t.find? location →
    t.goal p <+: location ∧ location ≠ t.goal p ∨
      t.OnWay p location ∧ t.find? location = none ∧ t'.find? location = some .folder
  links : ∀ location target, t'.find? location = some (.link target) →
    t.find? location = some (.link target)

/-- There is no link on the way to `p`, nor at or below the location to which it leads. -/
def NoLinks (t : FileTree) (p : Path) : Prop :=
  ∀ location target, t.OnWay p location ∨ t.goal p <+: location → t.find? location ≠ some (.link target)

theorem goal_of_here (h : t'.here = t.here) (p : Path) : t'.goal p = t.goal p := by
  rw [goal, startOf, h, goal, startOf]

theorem onWay_of_here (h : t'.here = t.here) (p : Path) (location : Location) :
    t'.OnWay p location ↔ t.OnWay p location := by
  rw [OnWay, startOf, h, OnWay, startOf]

theorem noLinks_of_entries (h : ∀ e ∈ t.entries, ∀ target, e.2 ≠ .link target) (p : Path) :
    t.NoLinks p := by
  intro location target _ hlink
  have hne : location ≠ [] := ne_nil_of_find? (t := t) (by simp [hlink])
  exact h _ (mem_entries_of_find? hlink hne) target rfl

namespace ChangedBelow

theorem refl (p : Path) (t : FileTree) : ChangedBelow p t t :=
  ⟨rfl, fun _ h => absurd rfl h, fun _ _ => id⟩

theorem trans (h : ChangedBelow p t t') (h' : ChangedBelow p t' u) : ChangedBelow p t u := by
  refine ⟨h'.here.trans h.here, fun location hne => ?_, fun location target hl =>
    h.links location target (h'.links location target hl)⟩
  by_cases hlast : u.find? location = t'.find? location
  · rw [hlast] at hne ⊢
    exact h.changes location hne
  · have hsecond := h'.changes location hlast
    rw [goal_of_here h.here, onWay_of_here h.here] at hsecond
    obtain hbelow | ⟨hway, hmissing, hfolder⟩ := hsecond
    · exact .inl hbelow
    · by_cases hfirst : t'.find? location = t.find? location
      · exact .inr ⟨hway, hfirst ▸ hmissing, hfolder⟩
      · -- a folder that was made on the way is not missing afterwards
        obtain hbelow | ⟨-, -, hmade⟩ := h.changes location hfirst
        · exact .inl hbelow
        · rw [hmissing] at hmade
          cases hmade

theorem noLinks (h : ChangedBelow p t t') (hl : t.NoLinks p) : t'.NoLinks p := by
  intro location target hplace hlink
  rw [goal_of_here h.here, onWay_of_here h.here] at hplace
  exact hl location target hplace (h.links location target hlink)

theorem find?_eq_some (h : ChangedBelow p t t') (hout : ¬ t.goal p <+: location)
    (hf : t.find? location = some entry) : t'.find? location = some entry := by
  by_cases hsame : t'.find? location = t.find? location
  · rw [hsame]
    exact hf
  · obtain ⟨hbelow, -⟩ | ⟨-, hmissing, -⟩ := h.changes location hsame
    · exact absurd hbelow hout
    · rw [hf] at hmissing
      cases hmissing

theorem put (hroot : location ≠ []) (hentry : ∀ target, entry ≠ .link target)
    (hplace : t.goal p <+: location ∧ location ≠ t.goal p ∨
      t.OnWay p location ∧ t.find? location = none ∧ entry = .folder) :
    ChangedBelow p t (t.put location entry) := by
  refine ⟨rfl, fun other hne => ?_, fun other target hlink => ?_⟩
  · rw [find?_put t location other entry hroot] at hne ⊢
    split at hne
    · rename_i ho
      subst ho
      rw [if_pos rfl]
      obtain hbelow | ⟨hway, hmissing, rfl⟩ := hplace
      · exact .inl hbelow
      · exact .inr ⟨hway, hmissing, rfl⟩
    · exact absurd rfl hne
  · rw [find?_put t location other entry hroot] at hlink
    split at hlink
    · exact absurd (Option.some.inj hlink) (hentry target)
    · exact hlink

end ChangedBelow

theorem startOf_of_isAbsolute (h : q.isAbsolute = p.isAbsolute) : t.startOf q.text = t.startOf p.text :=
  congrArg (fun rooted : Bool => if rooted = true then [] else t.here) h

theorem goal_of_descends (h : q.Descends p) : t.goal p <+: t.goal q ∧ t.goal q ≠ t.goal p := by
  obtain ⟨habs, names, hne, hup, hway⟩ := h
  have hgoal : t.goal q = t.goal p ++ names := by
    rw [goal, startOf_of_isAbsolute habs, hway, Location.follow_append,
      Location.follow_eq_append (Path.noDots_of_way hway hup), goal]
  rw [hgoal]
  exact ⟨List.prefix_append _ _, fun he => hne (List.append_right_eq_self.1 he)⟩

theorem onWay_of_follows (h : q.Follows p) (hq : t.OnWay q location) :
    t.OnWay p location ∨ t.goal p <+: location ∧ location ≠ t.goal p := by
  obtain ⟨steps, hsteps, rfl⟩ := hq
  obtain ⟨habs, hway | ⟨names, hup, hway⟩⟩ := h
  · exact .inl ⟨steps, hsteps.trans hway, by rw [startOf_of_isAbsolute habs]⟩
  · rw [startOf_of_isAbsolute habs]
    rw [hway] at hsteps
    obtain hshort | ⟨rest, rfl⟩ := List.prefix_or_prefix_of_prefix hsteps (List.prefix_append p.way names)
    · exact .inl ⟨steps, hshort, rfl⟩
    · have hrest : rest <+: names := (List.prefix_append_right_inj p.way).1 hsteps
      have hdots : ∀ name ∈ rest, name ≠ "." ∧ name ≠ ".." := fun name hname =>
        Path.noDots_of_way hway hup name (hrest.subset hname)
      rw [Location.follow_append, Location.follow_eq_append hdots]
      by_cases hempty : rest = []
      · rw [hempty, List.append_nil]
        exact .inl (onWay_goal t p)
      · exact .inr ⟨List.prefix_append _ _, fun he => hempty (List.append_right_eq_self.1 he)⟩

theorem noLinks_of_follows (hl : t.NoLinks p) (h : q.Follows p) :
    ∀ location target, t.OnWay q location → t.find? location ≠ some (.link target) := by
  intro location target hq
  exact hl location target ((onWay_of_follows h hq).imp_right And.left)

theorem reachText_withoutSlashes (hl : t.NoLinks p) (h : q.Follows p) (last : Bool) :
    t.EndsAt (t.goal q) (t.reachText last (withoutSlashes q.text)) := by
  obtain ⟨hway, habs⟩ := withoutSlashes_same q
  have hshort : (⟨withoutSlashes q.text⟩ : Path).Follows p :=
    ⟨habs.trans h.1, by rw [hway]; exact h.2⟩
  have hgoal : t.goal q = t.goal ⟨withoutSlashes q.text⟩ := by
    rw [goal, goal, hway, startOf_of_isAbsolute habs]
  rw [hgoal]
  exact reachText_endsAt last (noLinks_of_follows hl hshort)

theorem makeFolder_changedBelow (hl : t.NoLinks p) (h : q.Follows p) (hmade : t.makeFolder q = .ok t') :
    ChangedBelow p t t' := by
  obtain ⟨location, hreach, rfl⟩ := makeFolder_eq_ok_iff.1 hmade
  have hends := reachText_withoutSlashes hl h false
  rw [hreach] at hends
  obtain ⟨rfl, hvacant⟩ := hends
  have hroot : t.goal q ≠ [] := ne_nil_of_find? (t := t) (by simp [hvacant])
  refine ChangedBelow.put hroot nofun ?_
  obtain hway | hbelow := onWay_of_follows h (onWay_goal t q)
  · exact .inr ⟨hway, hvacant, rfl⟩
  · exact .inl hbelow

theorem ensureFolder_changedBelow (hl : t.NoLinks p) (h : q.Follows p) :
    ChangedBelow p t (after (t.ensureFolder q)) := by
  apply after_ensureFolder (ChangedBelow.refl p t)
  intro r hr u u' hu hmade
  exact hu.trans (makeFolder_changedBelow (hu.noLinks hl) (h.ancestors _ r hr) hmade)

theorem eq_goal_of_place {runnable : Option Bool} (hl : t.NoLinks p) (h : q.Follows p)
    (hplace : t.place q = .ok (location, runnable)) : location = t.goal q := by
  have hends : t.EndsAt (t.goal q) (t.reach q) := reachText_endsAt true (noLinks_of_follows hl h)
  obtain hreach | ⟨content, marked, hreach⟩ := reach_of_place hplace
  · rw [hreach] at hends
    exact hends.1
  · rw [hreach] at hends
    exact hends.1

theorem put_changedBelow {runnable : Option Bool} {content : ByteArray} {r : Bool} (hl : t.NoLinks p)
    (h : q.Descends p) (hplace : t.place q = .ok (location, runnable)) :
    ChangedBelow p t (t.put location (.file content r)) := by
  have hroot := (find?_of_place hplace).1
  obtain rfl := eq_goal_of_place hl h.follows hplace
  exact .put hroot nofun (.inl (goal_of_descends h))

theorem write_changedBelow {content : ByteArray} (hl : t.NoLinks p) (h : q.Descends p)
    (hwritten : t.write q content = .ok t') : ChangedBelow p t t' := by
  obtain ⟨location, runnable, marked, hplace, rfl⟩ := exists_of_write hwritten
  exact put_changedBelow hl h hplace

theorem copy_changedBelow {source : Path} (hl : t.NoLinks p) (h : q.Descends p)
    (hcopied : t.copy source q = .ok t') : ChangedBelow p t t' := by
  obtain ⟨location, runnable, content, marked, hplace, rfl⟩ := exists_of_copy hcopied
  exact put_changedBelow hl h hplace

end FileTree

end SketchPrep
