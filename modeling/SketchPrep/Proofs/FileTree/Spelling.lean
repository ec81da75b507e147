import SketchPrep.Proofs.FileTree.Course
import SketchPrep.Proofs.Path.Pieces

namespace SketchPrep

def Reached.folder? : Reached → Option Location
  | .found location .folder => some location
  | _ => none

def dotless (names : List String) : List String := names.filter (· ≠ ".")

/-- What matters of a descent: the folder in which it ends, or the link and where it goes on from there. -/
def Descent.gist : Descent → Option Location ⊕ (Location × String × List String)
  | .reached r => .inl r.folder?
  | .link folder target rest => .inr (folder, target, dotless rest)

theorem dotless_cons {name : String} (h : name ≠ ".") (names : List String) :
    dotless (name :: names) = name :: dotless names := List.filter_cons_of_pos (by simpa using h)

theorem dotless_append (names rest : List String) :
    dotless (names ++ rest) = dotless names ++ dotless rest := List.filter_append ..

theorem dotless_dotless (names : List String) : dotless (dotless names) = dotless names := by
  simp [dotless]

theorem dotless_map_ofList (pieces : List (List Char)) :
    dotless (pieces.map String.ofList) = (pieces.filter (· ≠ ['.'])).map String.ofList := by
  have hpiece (piece : List Char) : String.ofList piece = "." ↔ piece = ['.'] := by
    rw [← String.toList_inj, String.toList_ofList]
    rfl
  rw [dotless, List.filter_map]
  congr 1
  exact List.filter_congr fun piece _ => by simp [hpiece]

theorem dotless_stepsOf (p : Path) : dotless (stepsOf p.text) = p.components.filterMap Path.stepOf := by
  have hpieces : ((p.text.toList.splitOn '/').filter (!·.isEmpty)).filter (· ≠ ['.']) =
      (p.text.toList.splitOn '/').filter (!Path.isFiller ·) := by
    rw [List.filter_filter]
    refine List.filter_congr fun piece _ => ?_
    by_cases hd : piece = ['.'] <;> simp [Path.isFiller, hd]
  rw [Path.filterMap_stepOf_components, stepsOf, dotless_map_ofList, ← hpieces]
  congr 1
  -- the dot that stands for a separator at the end is left out too
  split
  · rw [List.filter_append]
    simp
  · rfl

namespace FileTree

variable {t : FileTree} {folder : Location} {names : List String}

/-- A descent without the dots comes upon the same, but for the dots in what is left of it. -/
theorem Course.without_dots {d : Descent} (h : Course t true folder names d) :
    ∃ d', Course t true folder (dotless names) d' ∧ d'.gist = d.gist := by
  induction h with
  | stop hentry => exact ⟨_, .stop hentry, rfl⟩
  | nowhere hnone => exact ⟨_, .nowhere hnone, rfl⟩
  | @blocked folder entry name rest hentry hne =>
      cases dotless (name :: rest) with
      | nil =>
          refine ⟨_, .stop hentry, ?_⟩
          cases entry with
          | folder => exact absurd rfl hne
          | file | link => rfl
      | cons => exact ⟨_, .blocked hentry hne, rfl⟩
  | stay _ _ ih => exact ih
  | up hfolder _ ih =>
      obtain ⟨d', hcourse, hgist⟩ := ih
      exact ⟨d', .up hfolder hcourse, hgist⟩
  | @long folder name rest hfolder hdot hup hlong =>
      rw [dotless_cons hdot]
      exact ⟨_, .long hfolder hdot hup hlong, rfl⟩
  | vacant hlooks hnone =>
      rw [dotless_cons hlooks.ne_dot]
      exact ⟨_, .vacant hlooks hnone, rfl⟩
  | @missing folder name rest hlooks hnone hmore =>
      rw [dotless_cons hlooks.ne_dot]
      -- if only dots are left, then the entry is the last one of the descent without them
      by_cases hrest : dotless rest = []
      · rw [hrest]
        exact ⟨_, .vacant hlooks hnone, rfl⟩
      · exact ⟨_, .missing hlooks hnone hrest, rfl⟩
  | leaf _ _ hlast => cases hlast
  | @link folder name target rest hlooks hlink hmore =>
      rw [dotless_cons hlooks.ne_dot]
      refine ⟨_, .link hlooks hlink fun _ => rfl, ?_⟩
      rw [Descent.gist, Descent.gist, dotless_dotless]
  | down hlooks hentry hother _ ih =>
      obtain ⟨d', hcourse, hgist⟩ := ih
      rw [dotless_cons hlooks.ne_dot]
      exact ⟨d', .down hlooks hentry hother hcourse, hgist⟩

theorem gist_descend_dotless (t : FileTree) (folder : Location) (names : List String) :
    (t.descend true folder (dotless names)).gist = (t.descend true folder names).gist := by
  obtain ⟨d', hcourse, hgist⟩ := (t.course true folder names).without_dots
  rw [hcourse.eq]
  exact hgist

theorem descend_dotless (t : FileTree) (folder : Location) (names : List String) :
    (∃ r r', t.descend true folder (dotless names) = .reached r ∧
      t.descend true folder names = .reached r' ∧ r.folder? = r'.folder?) ∨
    ∃ place target rest rest', t.descend true folder (dotless names) = .link place target rest ∧
      t.descend true folder names = .link place target rest' ∧ dotless rest = dotless rest' := by
  have hgist := gist_descend_dotless t folder names
  cases hd : t.descend true folder (dotless names) with
  | reached r =>
      cases hn : t.descend true folder names with
      | reached r' =>
          rw [hd, hn] at hgist
          exact .inl ⟨r, r', rfl, rfl, Sum.inl.inj hgist⟩
      | link => rw [hd, hn] at hgist; cases hgist
  | link place target rest =>
      cases hn : t.descend true folder names with
      | reached => rw [hd, hn] at hgist; cases hgist
      | link place' target' rest' =>
          rw [hd, hn] at hgist
          obtain ⟨rfl, rfl, hrest⟩ : place = place' ∧ target = target' ∧ dotless rest = dotless rest' := by
            simpa [Descent.gist] using hgist
          exact .inr ⟨place, target, rest, rest', rfl, rfl, hrest⟩

theorem folder?_walk_dotless (t : FileTree) (links : Nat) (folder : Location) (names : List String) :
    (t.walk true links folder (dotless names)).folder? = (t.walk true links folder names).folder? := by
  induction links generalizing folder names with
  | zero =>
      obtain ⟨r, r', hd, hn, he⟩ | ⟨place, target, rest, rest', hd, hn, _⟩ :=
        descend_dotless t folder names
      · rw [walk, walk, hd, hn]
        exact he
      · rw [walk, walk, hd, hn]
  | succ links ih =>
      obtain ⟨r, r', hd, hn, he⟩ | ⟨place, target, rest, rest', hd, hn, he⟩ :=
        descend_dotless t folder names
      · rw [walk, walk, hd, hn]
        exact he
      · -- the walks go on from the same place with steps that differ in dots only
        rw [walk, walk, hd, hn]
        dsimp only
        rw [← ih, ← ih _ (stepsOf target ++ rest'), dotless_append, dotless_append, he]

theorem reach_of_found {p : Path} {location : Location} {entry : Entry}
    (h : t.entry? p = .ok (location, entry)) : t.reach p = .found location entry := by
  unfold entry? at h
  split at h
  · cases h; assumption
  · cases h
  · cases h

theorem found_of_reach {p : Path} {location : Location} {entry : Entry}
    (h : t.reach p = .found location entry) : t.entry? p = .ok (location, entry) := by
  unfold entry?
  rw [h]

structure Followable (text : String) : Prop where
  nonempty : text.isEmpty = false
  nul : '\x00' ∉ text.toList
  short : text.utf8ByteSize < pathLimit

theorem Followable.reachText {text : String} (h : Followable text) (t : FileTree) (last : Bool) :
    t.reachText last text = t.walk last linkLimit (t.startOf text) (stepsOf text) := by
  have hnul : text.toList.contains '\x00' = false := by simpa using h.nul
  rw [FileTree.reachText, h.nonempty, hnul]
  exact if_neg (Nat.not_le.2 h.short)

theorem followable_or_failed (text : String) :
    Followable text ∨ ∃ e, ∀ (t : FileTree) (last : Bool), t.reachText last text = .failed e := by
  by_cases hempty : text.isEmpty = true
  · exact .inr ⟨.missing, fun t last => if_pos hempty⟩
  · by_cases hnul : text.toList.contains '\x00' = true
    · exact .inr ⟨.nulInPath, fun t last => (if_neg hempty).trans (if_pos hnul)⟩
    · by_cases hlong : pathLimit ≤ text.utf8ByteSize
      · exact .inr ⟨.nameTooLong, fun t last => (if_neg hempty).trans ((if_neg hnul).trans (if_pos hlong))⟩
      · exact .inl ⟨by simpa using hempty, by simpa using hnul, Nat.not_le.1 hlong⟩

theorem agrees_reachText (t : FileTree) (last : Bool) (text : String) : t.Agrees (t.reachText last text) := by
  obtain hfollow | ⟨e, hfailed⟩ := followable_or_failed text
  · rw [hfollow.reachText]
    exact (t.walks last linkLimit (t.startOf text) (stepsOf text)).agrees
  · rw [hfailed]
    trivial

theorem agrees_reach (t : FileTree) (p : Path) : t.Agrees (t.reach p) := t.agrees_reachText true p.text

theorem followable_of_found {p : Path} {location : Location} {entry : Entry}
    (h : t.entry? p = .ok (location, entry)) : Followable p.text := by
  obtain hfollow | ⟨e, hfailed⟩ := followable_or_failed p.text
  · exact hfollow
  · have hreach := reach_of_found h
    rw [reach, hfailed] at hreach
    cases hreach

theorem walk_of_found {p : Path} {location : Location} {entry : Entry}
    (h : t.entry? p = .ok (location, entry)) :
    t.walk true linkLimit (t.startOf p.text) (stepsOf p.text) = .found location entry := by
  rw [← (followable_of_found h).reachText t true]
  exact reach_of_found h

theorem folder?_walk_of_found {p : Path} {location : Location} (h : t.entry? p = .ok (location, .folder)) :
    (t.walk true linkLimit (t.startOf p.text) (stepsOf p.text)).folder? = some location := by
  rw [walk_of_found h]
  rfl

theorem startOf_congr {p q : Path} (h : p.components = q.components) :
    t.startOf p.text = t.startOf q.text := by
  have hrooted : p.isAbsolute = q.isAbsolute := Bool.eq_iff_iff.2 (by
    rw [Path.isAbsolute_iff, Path.isAbsolute_iff, h])
  exact congrArg (fun rooted : Bool => if rooted = true then [] else t.here) hrooted

theorem location_of_same {p q : Path} {location place : Location} (h : p.same q = true)
    (hp : t.entry? p = .ok (location, .folder)) (hq : t.entry? q = .ok (place, .folder)) :
    location = place := by
  have hc := Path.same_iff.1 h
  have hwalk : some location = some place := by
    rw [← folder?_walk_of_found hp, ← folder?_walk_of_found hq, ← folder?_walk_dotless,
      ← folder?_walk_dotless t _ _ (stepsOf q.text), dotless_stepsOf, dotless_stepsOf, hc, startOf_congr hc]
  exact Option.some.inj hwalk

theorem list_eq_ok_iff {p : Path} {entries : List (String × Entry)} :
    t.list p = .ok entries ↔ ∃ location, t.entry? p = .ok (location, .folder) ∧ entries = t.children location := by
  unfold list
  split
  · rename_i location hentry
    simp [hentry, eq_comm]
  · rename_i hother hentry
    refine iff_of_false nofun ?_
    rintro ⟨location, hlocation, -⟩
    rw [hentry] at hlocation
    cases hlocation
    exact hother location rfl
  · rename_i hentry
    simp [hentry]

/-- Which spelling of a folder's path is used does not matter to what is found in it. -/
theorem list_of_same {p q : Path} {entries others : List (String × Entry)} (h : p.same q = true)
    (hp : t.list p = .ok entries) (hq : t.list q = .ok others) : entries = others := by
  obtain ⟨location, hlocation, rfl⟩ := list_eq_ok_iff.1 hp
  obtain ⟨place, hplace, rfl⟩ := list_eq_ok_iff.1 hq
  rw [location_of_same h hlocation hplace]

end FileTree

end SketchPrep
