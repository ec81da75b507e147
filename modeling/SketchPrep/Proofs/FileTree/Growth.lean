import SketchPrep.FileTree.Access
import SketchPrep.Proofs.FileTree.Change

namespace SketchPrep

def Reached.location? : Reached → Option Location
  | .found location _ => some location
  | .vacant location => some location
  | .failed _ => none

namespace FileTree

variable {t t' u : FileTree} {S : Location → Prop} {location folder place : Location} {names : List String}
  {entry : Entry} {p q : Path}

/-- Everything stays as it is but for files at some places, which stay files; and no link is made. -/
structure Grows (S : Location → Prop) (t t' : FileTree) : Prop where
  here : t'.here = t.here
  kept : ∀ location entry, t.find? location = some entry → ∃ later, t'.find? location = some later ∧
    (later = entry ∨ S location ∧ entry.isFile = true ∧ later.isFile = true)
  links : ∀ location target, t'.find? location = some (.link target) →
    t.find? location = some (.link target)

/-- What becomes of a descent in a tree that has grown: a link is met again, and an end is reached again if
something is there. -/
def AgainIn (t' : FileTree) (later : Descent) : Descent → Prop
  | .link place target rest => later = .link place target rest
  | .reached r => ∀ location entry, r.location? = some location → t'.find? location = some entry →
      (∀ target, entry ≠ .link target) → later = .reached (.found location entry)

theorem againIn_of_location? {later : Descent} {r : Reached} (h : r.location? = none) :
    AgainIn t' later (.reached r) := by
  intro location entry hr
  rw [h] at hr
  cases hr

namespace Grows

theorem refl (S : Location → Prop) (t : FileTree) : Grows S t t :=
  ⟨rfl, fun _ entry h => ⟨entry, h, .inl rfl⟩, fun _ _ h => h⟩

theorem trans (h : Grows S t t') (h' : Grows S t' u) : Grows S t u := by
  refine ⟨h'.here.trans h.here, fun location entry hf => ?_, fun location target hl =>
    h.links location target (h'.links location target hl)⟩
  obtain ⟨later, hl, hfirst⟩ := h.kept location entry hf
  obtain ⟨last, hu, hsecond⟩ := h'.kept location later hl
  refine ⟨last, hu, ?_⟩
  obtain rfl | ⟨hs, hlater, hlast⟩ := hsecond
  · exact hfirst
  · obtain rfl | ⟨-, hentry, -⟩ := hfirst
    · exact .inr ⟨hs, hlater, hlast⟩
    · exact .inr ⟨hs, hentry, hlast⟩

theorem mono {S' : Location → Prop} (h : Grows S t t') (hs : ∀ location, S location → S' location) :
    Grows S' t t' := by
  refine ⟨h.here, fun location entry hf => ?_, h.links⟩
  obtain ⟨later, hl, hwritten⟩ := h.kept location entry hf
  exact ⟨later, hl, hwritten.imp_right (And.imp_left (hs location))⟩

theorem find?_of_not (h : Grows S t t') (hs : ¬ S location) (hf : t.find? location = some entry) :
    t'.find? location = some entry := by
  obtain ⟨later, hl, rfl | ⟨hwritten, -⟩⟩ := h.kept location entry hf
  · exact hl
  · exact absurd hwritten hs

theorem find?_of_not_isFile (h : Grows S t t') (he : entry.isFile = false) (hf : t.find? location = some entry) :
    t'.find? location = some entry := by
  obtain ⟨later, hl, rfl | ⟨-, hfile, -⟩⟩ := h.kept location entry hf
  · exact hl
  · rw [he] at hfile
    cases hfile

theorem looksUp {name : String} (h : Grows S t t') (hlooks : t.LooksUp folder name) : t'.LooksUp folder name :=
  ⟨h.find?_of_not_isFile rfl hlooks.folder, hlooks.ne_dot, hlooks.ne_up, hlooks.short⟩

theorem find?_not_link (h : Grows S t t') (hf : t.find? location = some entry)
    (hlink : ∀ target, entry ≠ .link target) :
    ∃ later, t'.find? location = some later ∧ ∀ target, later ≠ .link target := by
  obtain ⟨later, hl, rfl | ⟨-, -, hfile⟩⟩ := h.kept location entry hf
  · exact ⟨later, hl, hlink⟩
  · refine ⟨later, hl, ?_⟩
    rintro target rfl
    cases hfile

theorem descend_again (h : Grows S t t') {d : Descent} (hd : Course t true folder names d) :
    AgainIn t' (t'.descend true folder names) d := by
  induction hd with
  | stop =>
      rintro location entry ⟨⟩ hl -
      exact (Course.stop hl).eq
  | nowhere | blocked | long | missing => exact againIn_of_location? rfl
  | stay hfolder _ ih =>
      rw [descend_dot (h.find?_of_not_isFile rfl hfolder)]
      exact ih
  | up hfolder _ ih =>
      rw [descend_up (h.find?_of_not_isFile rfl hfolder)]
      exact ih
  | vacant hlooks =>
      -- what was made at the place in the meantime is found there
      rintro location entry ⟨⟩ hl hlink
      exact (Course.down (h.looksUp hlooks) hl hlink (.stop hl)).eq
  | leaf _ _ hlast => cases hlast
  | link hlooks hlink hmore =>
      exact (Course.link (h.looksUp hlooks) (h.find?_of_not_isFile rfl hlink) hmore).eq
  | down hlooks hentry hother _ ih =>
      obtain ⟨later, hl, hlater⟩ := h.find?_not_link hentry hother
      rw [descend_down (h.looksUp hlooks) hl hlater]
      exact ih

theorem walk_again (h : Grows S t t') {links : Nat} {r : Reached} {entry : Entry}
    (hw : Walks t true links folder names r) (hr : r.location? = some location)
    (hl : t'.find? location = some entry) (hlink : ∀ target, entry ≠ .link target) :
    t'.walk true links folder names = .found location entry := by
  induction hw with
  | ends hd =>
      have hagain := h.descend_again hd location entry hr hl hlink
      exact (Walks.ends (descend_eq_iff.1 hagain)).eq
  | tooMany => cases hr
  | jump hd _ ih =>
      have hagain := h.descend_again hd
      exact (Walks.jump (descend_eq_iff.1 hagain) (walk_eq_iff.1 (ih hr))).eq

/-- A path that leads somewhere, or to where an entry could be made, leads to what is there later. -/
theorem entry?_again (h : Grows S t t') {entry : Entry} (hr : (t.reach p).location? = some location)
    (hl : t'.find? location = some entry) (hlink : ∀ target, entry ≠ .link target) :
    t'.entry? p = .ok (location, entry) := by
  apply found_of_reach
  obtain hfollow | ⟨e, hfailed⟩ := followable_or_failed p.text
  · rw [reach, hfollow.reachText] at hr ⊢
    rw [startOf, h.here]
    exact h.walk_again (t.walks true _ _ _) hr hl hlink
  · rw [reach, hfailed] at hr
    cases hr

theorem entry?_of_not (h : Grows S t t') (hs : ¬ S location) {entry : Entry} (he : entry.isFile = true)
    (hp : t.entry? p = .ok (location, entry)) : t'.entry? p = .ok (location, entry) := by
  have hreach : (t.reach p).location? = some location := by
    rw [reach_of_found hp]
    rfl
  refine h.entry?_again hreach (h.find?_of_not hs (find?_of_found hp)) ?_
  rintro target rfl
  cases he

/-- A file that was found once is found at the same place later, and is still a file. -/
theorem file_again (h : Grows S t t') {content : ByteArray} {runnable : Bool}
    (hp : t.entry? p = .ok (location, .file content runnable)) :
    ∃ content' runnable', t'.entry? p = .ok (location, .file content' runnable') := by
  obtain ⟨later, hl, hkept⟩ := h.kept location _ (find?_of_found hp)
  have hfile : later.isFile = true := by
    obtain rfl | ⟨-, -, hfile⟩ := hkept
    · rfl
    · exact hfile
  have hreach : (t.reach p).location? = some location := by
    rw [reach_of_found hp]
    rfl
  cases later with
  | file content' runnable' => exact ⟨content', runnable', h.entry?_again hreach hl nofun⟩
  | link | folder => cases hfile

theorem put (hroot : location ≠ []) (hlink : ∀ target, entry ≠ .link target)
    (hplace : ∀ old, t.find? location = some old → S location ∧ old.isFile = true ∧ entry.isFile = true) :
    Grows S t (t.put location entry) := by
  refine ⟨rfl, fun other old hf => ?_, fun other target hl => ?_⟩
  · rw [find?_put t location other entry hroot]
    split
    · rename_i ho
      subst ho
      exact ⟨entry, rfl, .inr (hplace old hf)⟩
    · exact ⟨old, hf, .inl rfl⟩
  · rw [find?_put t location other entry hroot] at hl
    split at hl
    · exact absurd (Option.some.inj hl) (hlink target)
    · exact hl

end Grows

theorem location?_of_place {runnable : Option Bool} (h : t.place q = .ok (location, runnable)) :
    (t.reach q).location? = some location := by
  obtain hreach | ⟨content, marked, hreach⟩ := reach_of_place h
  · rw [hreach]
    rfl
  · rw [hreach]
    rfl

theorem put_grows {runnable : Option Bool} (h : t.place q = .ok (location, runnable)) (hfile : entry.isFile = true) :
    Grows (· = location) t (t.put location entry) ∧ FileTree.entry? (t.put location entry) q = .ok (location, entry) := by
  obtain ⟨hroot, hold⟩ := find?_of_place h
  have hlink : ∀ target, entry ≠ .link target := by
    rintro target rfl
    cases hfile
  have hgrows : Grows (· = location) t (t.put location entry) :=
    .put hroot hlink fun old ho => ⟨rfl, hold old ho, hfile⟩
  refine ⟨hgrows, hgrows.entry?_again (location?_of_place h) ?_ hlink⟩
  rw [find?_put t location location entry hroot, if_pos rfl]

theorem write_grows {content : ByteArray} (h : t.write q content = .ok t') :
    ∃ location runnable, Grows (· = location) t t' ∧ t'.entry? q = .ok (location, .file content runnable) := by
  obtain ⟨location, runnable, marked, hplace, rfl⟩ := exists_of_write h
  exact ⟨location, marked, put_grows hplace rfl⟩

theorem copy_grows (h : t.copy p q = .ok t') :
    ∃ location content runnable, Grows (· = location) t t' ∧
      t'.entry? q = .ok (location, .file content runnable) := by
  obtain ⟨location, runnable, content, marked, hplace, rfl⟩ := exists_of_copy h
  exact ⟨location, content, marked, put_grows hplace rfl⟩

theorem makeFolder_grows (h : t.makeFolder p = .ok t') : Grows S t t' := by
  obtain ⟨location, hreach, rfl⟩ := makeFolder_eq_ok_iff.1 h
  have hnone := find?_of_vacant hreach
  refine .put (ne_nil_of_find? (t := t) (by simp [hnone])) nofun fun old ho => ?_
  rw [hnone] at ho
  cases ho

theorem ensureFolder_grows (h : t.ensureFolder p = .ok t') : Grows S t t' := by
  have hgrows : Grows S t (after (t.ensureFolder p)) := by
    apply after_ensureFolder (Grows.refl S t)
    intro q _ u u' hu hmade
    exact hu.trans (makeFolder_grows hmade)
  rwa [h] at hgrows

end FileTree

end SketchPrep
