import SketchPrep.FileTree.Basic

namespace SketchPrep

namespace FileTree

structure LooksUp (t : FileTree) (folder : Location) (name : String) : Prop where
  folder : t.find? folder = some .folder
  ne_dot : name ≠ "."
  ne_up : name ≠ ".."
  short : ¬ nameLimit < name.utf8ByteSize

/-- What a descent comes upon, one constructor for each step and each end. -/
inductive Course (t : FileTree) (last : Bool) : Location → List String → Descent → Prop
  | stop {folder entry} : t.find? folder = some entry → Course t last folder [] (.reached (.found folder entry))
  | nowhere {folder names} : t.find? folder = none → Course t last folder names (.reached (.failed .missing))
  | blocked {folder entry name rest} : t.find? folder = some entry → entry ≠ .folder →
      Course t last folder (name :: rest) (.reached (.failed .notFolder))
  | stay {folder rest d} : t.find? folder = some .folder → Course t last folder rest d →
      Course t last folder ("." :: rest) d
  | up {folder rest d} : t.find? folder = some .folder → Course t last folder.dropLast rest d →
      Course t last folder (".." :: rest) d
  | long {folder name rest} : t.find? folder = some .folder → name ≠ "." → name ≠ ".." →
      nameLimit < name.utf8ByteSize → Course t last folder (name :: rest) (.reached (.failed .nameTooLong))
  | vacant {folder name} : t.LooksUp folder name → t.find? (folder ++ [name]) = none →
      Course t last folder [name] (.reached (.vacant (folder ++ [name])))
  | missing {folder name rest} : t.LooksUp folder name → t.find? (folder ++ [name]) = none → rest ≠ [] →
      Course t last folder (name :: rest) (.reached (.failed .missing))
  | leaf {folder name target} : t.LooksUp folder name → t.find? (folder ++ [name]) = some (.link target) →
      last = false → Course t last folder [name] (.reached (.found (folder ++ [name]) (.link target)))
  | link {folder name target rest} : t.LooksUp folder name →
      t.find? (folder ++ [name]) = some (.link target) → (rest = [] → last = true) →
      Course t last folder (name :: rest) (.link folder target rest)
  | down {folder name rest entry d} : t.LooksUp folder name → t.find? (folder ++ [name]) = some entry →
      (∀ target, entry ≠ .link target) → Course t last (folder ++ [name]) rest d →
      Course t last folder (name :: rest) d

def landing (place : Location) (target : String) : Location := if isRooted target then [] else place

inductive Walks (t : FileTree) (last : Bool) : Nat → Location → List String → Reached → Prop
  | ends {links folder names r} : Course t last folder names (.reached r) → Walks t last links folder names r
  | tooMany {folder names place target rest} : Course t last folder names (.link place target rest) →
      Walks t last 0 folder names (.failed .tooManyLinks)
  | jump {links folder names place target rest r} : Course t last folder names (.link place target rest) →
      Walks t last links (landing place target) (stepsOf target ++ rest) r →
      Walks t last (links + 1) folder names r

variable {t : FileTree} {last : Bool} {links : Nat} {folder place : Location} {target : String}
  {names rest : List String} {d : Descent} {r : Reached}

theorem course (t : FileTree) (last : Bool) (folder : Location) (names : List String) :
    Course t last folder names (t.descend last folder names) := by
  induction names generalizing folder with
  | nil =>
      unfold descend
      split
      · exact .stop ‹_›
      · exact .nowhere ‹_›
  | cons name rest ih =>
      unfold descend
      split
      · rename_i hfolder
        split
        · rename_i hdot
          rw [hdot]
          exact .stay hfolder (ih folder)
        · split
          · rename_i hup
            rw [hup]
            exact .up hfolder (ih folder.dropLast)
          · split
            · exact .long hfolder ‹_› ‹_› ‹_›
            · have hlooks : t.LooksUp folder name := ⟨hfolder, ‹_›, ‹_›, ‹_›⟩
              split
              · rename_i hnone
                split
                · rename_i hempty
                  rw [List.isEmpty_iff.1 hempty]
                  exact .vacant hlooks hnone
                · rename_i hmore
                  exact .missing hlooks hnone (by simpa using hmore)
              · rename_i hlink
                split
                · rename_i hleaf
                  obtain ⟨hempty, hlast⟩ := Bool.and_eq_true_iff.1 hleaf
                  rw [List.isEmpty_iff.1 hempty]
                  exact .leaf hlooks hlink (by simpa using hlast)
                · rename_i hmore
                  exact .link hlooks hlink (by simpa using hmore)
              · rename_i hother hentry
                exact .down hlooks hentry (fun target he => hother target (he ▸ rfl)) (ih _)
      · rename_i hother hentry
        exact .blocked hentry fun he => hother (he ▸ rfl)
      · exact .nowhere ‹_›

theorem Course.eq (h : Course t last folder names d) : t.descend last folder names = d := by
  induction h with
  | stop hentry => simp [descend, hentry]
  | @nowhere folder names hnone => cases names <;> simp [descend, hnone]
  | @blocked folder entry name rest hentry hne =>
      cases entry with
      | folder => exact absurd rfl hne
      | file | link => simp [descend, hentry]
  | stay hfolder _ ih => simpa [descend, hfolder] using ih
  | up hfolder _ ih => simpa [descend, hfolder] using ih
  | long hfolder hdot hup hlong => simp [descend, hfolder, hdot, hup, hlong]
  | vacant hlooks hnone => simp [descend, hlooks.folder, hlooks.ne_dot, hlooks.ne_up, hlooks.short, hnone]
  | missing hlooks hnone hmore =>
      simp [descend, hlooks.folder, hlooks.ne_dot, hlooks.ne_up, hlooks.short, hnone, hmore]
  | leaf hlooks hlink hlast =>
      simp [descend, hlooks.folder, hlooks.ne_dot, hlooks.ne_up, hlooks.short, hlink, hlast]
  | link hlooks hlink hmore =>
      simpa [descend, hlooks.folder, hlooks.ne_dot, hlooks.ne_up, hlooks.short, hlink] using hmore
  | @down folder name rest entry d hlooks hentry hother _ ih =>
      cases entry with
      | link target => exact absurd rfl (hother target)
      | file | folder =>
          simpa [descend, hlooks.folder, hlooks.ne_dot, hlooks.ne_up, hlooks.short, hentry] using ih

theorem descend_eq_iff : t.descend last folder names = d ↔ Course t last folder names d := by
  constructor
  · rintro rfl
    exact t.course last folder names
  · exact Course.eq

theorem walks (t : FileTree) (last : Bool) (links : Nat) (folder : Location) (names : List String) :
    Walks t last links folder names (t.walk last links folder names) := by
  have hcourse (folder : Location) (names : List String) := t.course last folder names
  induction links generalizing folder names with
  | zero =>
      rw [walk]
      cases hd : t.descend last folder names with
      | reached r => exact .ends (hd ▸ hcourse folder names)
      | link => exact .tooMany (hd ▸ hcourse folder names)
  | succ links ih =>
      rw [walk]
      cases hd : t.descend last folder names with
      | reached r => exact .ends (hd ▸ hcourse folder names)
      | link place target rest => exact .jump (hd ▸ hcourse folder names) (ih (landing place target) _)

theorem Walks.eq (h : Walks t last links folder names r) : t.walk last links folder names = r := by
  induction h with
  | ends hcourse | tooMany hcourse => rw [walk, hcourse.eq]
  | jump hcourse _ ih =>
      rw [walk, hcourse.eq]
      exact ih

theorem walk_eq_iff : t.walk last links folder names = r ↔ Walks t last links folder names r := by
  constructor
  · rintro rfl
    exact t.walks last links folder names
  · exact Walks.eq

theorem descend_dot (h : t.find? folder = some .folder) (rest : List String) :
    t.descend last folder ("." :: rest) = t.descend last folder rest := (Course.stay h (t.course last folder rest)).eq

theorem descend_up (h : t.find? folder = some .folder) (rest : List String) :
    t.descend last folder (".." :: rest) = t.descend last folder.dropLast rest :=
  (Course.up h (t.course last folder.dropLast rest)).eq

theorem descend_down {name : String} {entry : Entry} (h : t.LooksUp folder name)
    (hentry : t.find? (folder ++ [name]) = some entry) (hother : ∀ target, entry ≠ .link target)
    (rest : List String) : t.descend last folder (name :: rest) = t.descend last (folder ++ [name]) rest :=
  (Course.down h hentry hother (t.course last (folder ++ [name]) rest)).eq

def Agrees (t : FileTree) : Reached → Prop
  | .found location entry => t.find? location = some entry
  | .vacant location => t.find? location = none
  | .failed _ => True

theorem Course.agrees (h : Course t last folder names (.reached r)) : t.Agrees r := by
  generalize hd : Descent.reached r = d at h
  induction h with
  | stop hfound | vacant _ hfound | leaf _ hfound =>
      cases hd
      exact hfound
  | nowhere | blocked | long | missing =>
      cases hd
      trivial
  | link => cases hd
  | stay _ _ ih | up _ _ ih | down _ _ _ _ ih => exact ih hd

/-- A link is met in a folder. -/
theorem Course.find?_of_link (h : Course t last folder names (.link place target rest)) :
    t.find? place = some .folder := by
  generalize hd : Descent.link place target rest = d at h
  induction h with
  | link hlooks =>
      cases hd
      exact hlooks.folder
  | stop | nowhere | blocked | long | vacant | missing | leaf => cases hd
  | stay _ _ ih | up _ _ ih | down _ _ _ _ ih => exact ih hd

/-- Only in a folder can a descent go on. -/
theorem Course.find?_folder (h : Course t last folder names d) (hne : names ≠ [])
    (hd : ∀ e, d ≠ .reached (.failed e)) : t.find? folder = some .folder := by
  cases h with
  | stop => exact absurd rfl hne
  | nowhere | blocked | long | missing => exact absurd rfl (hd _)
  | stay hfolder | up hfolder => exact hfolder
  | vacant hlooks | leaf hlooks | link hlooks | down hlooks => exact hlooks.folder

theorem Walks.agrees (h : Walks t last links folder names r) : t.Agrees r := by
  induction h with
  | ends hcourse => exact hcourse.agrees
  | tooMany => trivial
  | jump _ _ ih => exact ih

end FileTree

end SketchPrep
