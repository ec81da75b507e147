import SketchPrep.Proofs.FileTree.WellFormed

namespace SketchPrep

namespace FileTree

variable {t : FileTree} {folder place location : Location} {names rest : List String} {entry : Entry}
  {p q : Path}

def goOn (t : FileTree) (rest : List String) : Descent → Descent
  | .reached (.found place _) => t.descend true place rest
  | .reached (.vacant _) => .reached (.failed .missing)
  | .reached (.failed e) => .reached (.failed e)
  | .link place target more => .link place target (more ++ rest)

theorem Course.append {d : Descent} (hne : rest ≠ []) (h : Course t true folder names d) :
    t.descend true folder (names ++ rest) = t.goOn rest d := by
  induction h with
  | stop => rfl
  | nowhere hnone => exact (Course.nowhere hnone).eq
  | blocked hentry hother => exact (Course.blocked hentry hother).eq
  | stay hfolder _ ih =>
      rw [List.cons_append, descend_dot hfolder]
      exact ih
  | up hfolder _ ih =>
      rw [List.cons_append, descend_up hfolder]
      exact ih
  | long hfolder hdot hup hlong => exact (Course.long hfolder hdot hup hlong).eq
  | vacant hlooks hnone => exact (Course.missing hlooks hnone hne).eq
  | missing hlooks hnone => exact (Course.missing hlooks hnone (by simp [hne])).eq
  | leaf _ _ hlast => cases hlast
  | link hlooks hlink => exact (Course.link hlooks hlink fun _ => rfl).eq
  | down hlooks hentry hother _ ih =>
      rw [List.cons_append, descend_down hlooks hentry hother]
      exact ih

theorem descend_append (hne : rest ≠ []) (folder : Location) (names : List String) :
    t.descend true folder (names ++ rest) = t.goOn rest (t.descend true folder names) :=
  (t.course true folder names).append hne

theorem find?_of_walk_found {links : Nat} (hne : rest ≠ [])
    (h : t.walk true links folder rest = .found location entry) : t.find? folder = some .folder := by
  cases walk_eq_iff.1 h with
  | ends hd | jump hd => exact hd.find?_folder hne nofun

theorem walk_append_of_reached {links : Nat} {r : Reached} (hne : rest ≠ [])
    (hd : t.descend true folder names = .reached r)
    (h : t.walk true links folder (names ++ rest) = .found location entry) :
    ∃ place, t.walk true links folder names = .found place .folder ∧
      t.walk true links place rest = .found location entry := by
  rw [walk, descend_append hne, hd] at h
  cases r with
  | vacant | failed => cases h
  | found place first =>
      have hrest : t.walk true links place rest = .found location entry := by
        rw [walk]
        exact h
      have hfirst : t.find? place = some first := (descend_eq_iff.1 hd).agrees
      rw [find?_of_walk_found hne hrest] at hfirst
      cases hfirst
      refine ⟨place, ?_, hrest⟩
      rw [walk, hd]

/-- What a walk with more names finds, it finds from the folder in which it ends without them. -/
theorem walk_append {links : Nat} (hne : rest ≠ [])
    (h : t.walk true links folder (names ++ rest) = .found location entry) :
    ∃ place links', t.walk true links folder names = .found place .folder ∧
      t.walk true links' place rest = .found location entry := by
  induction links generalizing folder names with
  | zero =>
      cases hd : t.descend true folder names with
      | reached r =>
          obtain ⟨place, hfirst, hrest⟩ := walk_append_of_reached hne hd h
          exact ⟨place, 0, hfirst, hrest⟩
      | link =>
          rw [walk, descend_append hne, hd] at h
          cases h
  | succ links ih =>
      cases hd : t.descend true folder names with
      | reached r =>
          obtain ⟨place, hfirst, hrest⟩ := walk_append_of_reached hne hd h
          exact ⟨place, links + 1, hfirst, hrest⟩
      | link place target more =>
          rw [walk, descend_append hne, hd] at h
          dsimp only [goOn] at h
          rw [← List.append_assoc] at h
          obtain ⟨last, links', hfirst, hrest⟩ := ih h
          refine ⟨last, links', ?_, hrest⟩
          rw [walk, hd]
          exact hfirst

theorem join_eq (hne : p.text.toList ≠ []) (hlast : p.text.toList.getLast? ≠ some '/')
    (hq : q.isAbsolute = false) : p.join q = ⟨p.text ++ "/" ++ q.text⟩ := by
  have hempty : p.text.isEmpty = false := by simpa using hne
  have hslash : (p.text.toList.getLast? == some '/') = false := by simpa using hlast
  rw [Path.join, hq, hempty, hslash]
  rfl

theorem stepsOf_join (hlast : p.text.toList.getLast? ≠ some '/') (hnames : q.text.toList ≠ []) :
    stepsOf (p.text ++ "/" ++ q.text) = stepsOf p.text ++ stepsOf q.text := by
  have htext : (p.text ++ "/" ++ q.text).toList = p.text.toList ++ '/' :: q.text.toList := by
    simp [String.toList_append]
  have hend : (p.text.toList ++ '/' :: q.text.toList).getLast? = q.text.toList.getLast? := by
    rw [List.getLast?_append_cons, List.getLast?_cons_of_ne_nil hnames]
  have hslash : (p.text.toList.getLast? == some '/') = false := by simpa using hlast
  rw [stepsOf, htext, hend, List.splitOn_append_cons_self, List.filter_append, stepsOf, stepsOf, hslash]
  split <;> simp

theorem eq_append_of_walk {links : Nat} (hq : Location.IsPlain q.way)
    (hlinks : ∀ way target, t.find? (place ++ way) ≠ some (.link target))
    (h : t.walk true links place (stepsOf q.text) = .found location entry) : location = place ++ q.way := by
  have hfollow (steps : List String) (hs : steps <+: stepsOf q.text) :
      place.follow steps = place ++ dotless steps := by
    have hway : dotless steps <+: q.way := by
      rw [← dotless_stepsOf_eq_way]
      exact hs.filter _
    have hplain : Location.IsPlain (dotless steps) := fun name hname => hq name (hway.subset hname)
    rw [← Location.follow_dotless, hplain.follow]
  obtain ⟨r, hd, hends⟩ := (t.course true place (stepsOf q.text)).endsAt (by
    intro steps hs target
    rw [hfollow steps hs]
    exact hlinks _ target)
  rw [walk, hd] at h
  obtain rfl : r = .found location entry := h
  rw [← dotless_stepsOf_eq_way, ← hfollow _ List.prefix_rfl]
  exact hends.1

/-- Where a path can be followed, so can the path of a folder on its way. -/
theorem entry?_join (hne : p.text.toList ≠ []) (hlast : p.text.toList.getLast? ≠ some '/')
    (hq : q.isAbsolute = false) (hnames : q.way ≠ []) (h : t.entry? (p.join q) = .ok (location, entry)) :
    ∃ place links, t.entry? p = .ok (place, .folder) ∧
      t.walk true links place (stepsOf q.text) = .found location entry := by
  have htext : q.text.toList ≠ [] := fun he => hnames (by rw [Path.way, he]; rfl)
  have hsteps : stepsOf q.text ≠ [] := fun he => hnames (by rw [← dotless_stepsOf_eq_way, he]; rfl)
  have hstart : t.startOf (p.text ++ "/" ++ q.text) = t.startOf p.text := by
    obtain ⟨c, rest, hc⟩ := List.exists_cons_of_ne_nil hne
    simp [startOf, isRooted, String.toList_append, hc]
  have hwalk := walk_of_found h
  have hwhole := followable_of_found h
  rw [join_eq hne hlast hq] at hwalk hwhole
  rw [stepsOf_join hlast htext, hstart] at hwalk
  obtain ⟨place, links, hfirst, hrest⟩ := walk_append hsteps hwalk
  refine ⟨place, links, ?_, hrest⟩
  have hfollow : Followable p.text := by
    refine ⟨by simpa using hne, fun hnul => hwhole.nul ?_, ?_⟩
    · simp [String.toList_append, hnul]
    · have hshort := hwhole.short
      simp only [String.utf8ByteSize_append] at hshort
      omega
  apply found_of_reach
  rw [reach, hfollow.reachText]
  exact hfirst

def LinkFree (t : FileTree) (p : Path) : Prop :=
  ∀ place way target, t.entry? p = .ok (place, .folder) → t.find? (place ++ way) ≠ some (.link target)

theorem exists_of_join (hl : t.LinkFree p) (hne : p.text.toList ≠ []) (hlast : p.text.toList.getLast? ≠ some '/')
    (hq : q.isAbsolute = false) (hplain : Location.IsPlain q.way) (hnames : q.way ≠ [])
    (h : t.entry? (p.join q) = .ok (location, entry)) :
    ∃ place, t.entry? p = .ok (place, .folder) ∧ location = place ++ q.way := by
  obtain ⟨place, links, hp, hwalk⟩ := entry?_join hne hlast hq hnames h
  exact ⟨place, hp, eq_append_of_walk hplain (fun way target => hl place way target hp) hwalk⟩

def Apart (t : FileTree) (p q : Path) : Prop :=
  ∀ location entry other, t.entry? p = .ok (location, entry) → t.entry? q ≠ .ok (location, other)

end FileTree

end SketchPrep
