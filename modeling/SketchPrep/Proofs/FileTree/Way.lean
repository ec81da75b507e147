import SketchPrep.FileTree.Change
import SketchPrep.Proofs.FileTree.Spelling
import SketchPrep.Proofs.Path.Way

namespace SketchPrep

def Entry.isFile : Entry → Bool
  | .file .. => true
  | _ => false

namespace Location

def step (location : Location) (name : String) : Location :=
  if name = "." then location
  else if name = ".." then location.dropLast
  else location ++ [name]

def follow (location : Location) (names : List String) : Location := names.foldl step location

theorem step_dot (location : Location) : location.step "." = location := if_pos rfl

theorem step_name {name : String} (hdot : name ≠ ".") (hup : name ≠ "..") (location : Location) :
    location.step name = location ++ [name] := by
  rw [step, if_neg hdot, if_neg hup]

theorem follow_cons (location : Location) (name : String) (names : List String) :
    location.follow (name :: names) = (location.step name).follow names := rfl

theorem follow_append (location : Location) (names rest : List String) :
    location.follow (names ++ rest) = (location.follow names).follow rest := List.foldl_append

theorem follow_dotless (location : Location) (names : List String) :
    location.follow (dotless names) = location.follow names := by
  induction names generalizing location with
  | nil => rfl
  | cons name rest ih =>
      by_cases hd : name = "."
      · rw [hd, follow_cons, step_dot]
        exact ih location
      · rw [dotless_cons hd]
        exact ih (location.step name)

theorem follow_eq_append {names : List String} (h : ∀ name ∈ names, name ≠ "." ∧ name ≠ "..")
    (location : Location) : location.follow names = location ++ names := by
  induction names generalizing location with
  | nil => exact (List.append_nil location).symm
  | cons name rest ih =>
      obtain ⟨⟨hd, hu⟩, hrest⟩ := List.forall_mem_cons.1 h
      rw [follow_cons, step_name hd hu, ih hrest, List.append_assoc]
      rfl

end Location

namespace FileTree

variable {t : FileTree} {folder location : Location} {names : List String} {p : Path} {last : Bool}

def goal (t : FileTree) (p : Path) : Location := (t.startOf p.text).follow p.way

def OnWay (t : FileTree) (p : Path) (location : Location) : Prop :=
  ∃ names, names <+: p.way ∧ location = (t.startOf p.text).follow names

theorem onWay_goal (t : FileTree) (p : Path) : t.OnWay p (t.goal p) := ⟨p.way, List.prefix_rfl, rfl⟩

def EndsAt (t : FileTree) (location : Location) : Reached → Prop
  | .found place entry => place = location ∧ t.find? location = some entry
  | .vacant place => place = location ∧ t.find? location = none
  | .failed _ => True

theorem LooksUp.follow_singleton {name : String} (h : t.LooksUp folder name) :
    folder.follow [name] = folder ++ [name] := Location.step_name h.ne_dot h.ne_up folder

theorem Course.endsAt {d : Descent} (h : Course t last folder names d)
    (hlinks : ∀ steps, steps <+: names → ∀ target, t.find? (folder.follow steps) ≠ some (.link target)) :
    ∃ r, d = .reached r ∧ t.EndsAt (folder.follow names) r := by
  have hnext {folder : Location} {name : String} {rest : List String}
      (hall : ∀ steps, steps <+: name :: rest → ∀ target, t.find? (folder.follow steps) ≠ some (.link target)) :
      ∀ steps, steps <+: rest → ∀ target, t.find? ((folder.step name).follow steps) ≠ some (.link target) :=
    fun steps hsteps => hall (name :: steps) (List.cons_prefix_cons.2 ⟨rfl, hsteps⟩)
  induction h with
  | stop hentry => exact ⟨_, rfl, rfl, hentry⟩
  | nowhere | blocked | long | missing => exact ⟨_, rfl, trivial⟩
  | stay _ _ ih =>
      have hrest := hnext hlinks
      rw [Location.step_dot] at hrest
      rw [Location.follow_cons, Location.step_dot]
      exact ih hrest
  | up _ _ ih => exact ih (hnext hlinks)
  | vacant hlooks hnone =>
      rw [hlooks.follow_singleton]
      exact ⟨_, rfl, rfl, hnone⟩
  | @leaf folder name target hlooks hlink | @link folder name target rest hlooks hlink =>
      have hno := hlinks [name] (by simp) target
      rw [hlooks.follow_singleton] at hno
      exact absurd hlink hno
  | down hlooks _ _ _ ih =>
      have hrest := hnext hlinks
      rw [Location.step_name hlooks.ne_dot hlooks.ne_up] at hrest
      rw [Location.follow_cons, Location.step_name hlooks.ne_dot hlooks.ne_up]
      exact ih hrest

theorem dotless_stepsOf_eq_way (p : Path) : dotless (stepsOf p.text) = p.way := by
  rw [dotless_stepsOf, Path.filterMap_stepOf_components, Path.way, Path.namesIn]

theorem walk_endsAt (h : ∀ location target, t.OnWay p location → t.find? location ≠ some (.link target))
    (links : Nat) : t.EndsAt (t.goal p) (t.walk last links (t.startOf p.text) (stepsOf p.text)) := by
  have hgoal : t.goal p = (t.startOf p.text).follow (stepsOf p.text) := by
    rw [goal, ← dotless_stepsOf_eq_way, Location.follow_dotless]
  obtain ⟨r, hdescend, hr⟩ := (t.course last (t.startOf p.text) (stepsOf p.text)).endsAt (by
    intro steps hsteps target
    refine h _ target ⟨dotless steps, ?_, ?_⟩
    · rw [← dotless_stepsOf_eq_way]
      exact hsteps.filter _
    · rw [Location.follow_dotless])
  rw [walk, hdescend, hgoal]
  exact hr

/-- Without links on its way a path leads to where its names say, or nowhere. -/
theorem reachText_endsAt (last : Bool)
    (h : ∀ location target, t.OnWay p location → t.find? location ≠ some (.link target)) :
    t.EndsAt (t.goal p) (t.reachText last p.text) := by
  obtain hfollow | ⟨e, hfailed⟩ := followable_or_failed p.text
  · rw [hfollow.reachText]
    exact walk_endsAt h linkLimit
  · rw [hfailed]
    trivial

theorem namesIn_append_slashes (text : List Char) {slashes : List Char} (h : ∀ c ∈ slashes, c = '/') :
    Path.namesIn (text ++ slashes) = Path.namesIn text := by
  induction slashes generalizing text with
  | nil => rw [List.append_nil]
  | cons c rest ih =>
      obtain ⟨rfl, hrest⟩ := List.forall_mem_cons.1 h
      have hnone : Path.namesIn rest = [] := ih [] hrest
      rw [Path.namesIn_append_slash, hnone, List.append_nil]

theorem withoutSlashes_same (p : Path) :
    (⟨withoutSlashes p.text⟩ : Path).way = p.way ∧
      (⟨withoutSlashes p.text⟩ : Path).isAbsolute = p.isAbsolute := by
  obtain ⟨kept, slashes, hslashes, hkept, htext⟩ : ∃ kept slashes, (∀ c ∈ slashes, c = '/') ∧
      (p.text.toList.reverse.dropWhile (· == '/')).reverse = kept ∧ p.text.toList = kept ++ slashes := by
    refine ⟨_, (p.text.toList.reverse.takeWhile (· == '/')).reverse, fun c hc => ?_, rfl, ?_⟩
    · simpa using List.all_eq_true.1 List.all_takeWhile c (List.mem_reverse.1 hc)
    · rw [← List.reverse_append, List.takeWhile_append_dropWhile, List.reverse_reverse]
  have hway : p.way = (Path.namesIn kept).map String.ofList := by
    rw [Path.way, htext, namesIn_append_slashes kept hslashes]
  rw [hway, withoutSlashes, hkept]
  cases kept with
  | nil =>
      cases slashes with
      | nil =>
          have hp : p.text = "" := String.toList_inj.1 htext
          rw [Path.isAbsolute, Path.isAbsolute, hp]
          exact ⟨rfl, rfl⟩
      | cons c rest =>
          obtain ⟨rfl, -⟩ := List.forall_mem_cons.1 hslashes
          have hne : p.text.isEmpty = false := by simp [← String.toList_eq_nil_iff, htext]
          rw [hne]
          refine ⟨rfl, ?_⟩
          simp [Path.isAbsolute, htext]
  | cons c rest => simp [Path.isAbsolute, htext, Path.way]

theorem find?_of_found {entry : Entry} (h : t.entry? p = .ok (location, entry)) :
    t.find? location = some entry := by
  have hagrees := t.agrees_reach p
  rwa [reach_of_found h] at hagrees

theorem mem_entries_of_find? {entry : Entry} (h : t.find? location = some entry) (hne : location ≠ []) :
    (location, entry) ∈ t.entries := by
  rw [find?, if_neg (by simpa using hne)] at h
  obtain ⟨above, below, hsplit, -⟩ := List.lookup_eq_some_iff.1 h
  rw [hsplit]
  exact List.mem_append_right _ List.mem_cons_self

theorem ne_nil_of_find? (h : t.find? location ≠ some .folder) : location ≠ [] := by
  rintro rfl
  exact h rfl

end FileTree

end SketchPrep
