import SketchPrep.Proofs.Selection.Reasons

namespace SketchPrep.Selection

variable {header : String} {candidates : List Library} {imports : Imports} {ps : Platforms}
  {l : Library}

/-- The first group in which a name fits the header decides by the best name, and without such a group
the last place does. -/
def Preferred (header : String) (candidates : List Library) : List (Library → Bool) → Library → Prop
  | [], l => candidates.getLast? = some l
  | group :: gs, l =>
      if (candidates.filter group).any (fitsByName header) then
        BestByName header (candidates.filter group) l
      else Preferred header candidates gs l

theorem preferred_iff {gs : List (Library → Bool)} :
    Preferred header candidates gs l ↔
      ((gs.findSome? fun group => bestByName header (candidates.filter group)).or
        candidates.getLast?) = some l := by
  induction gs with
  | nil => rw [Preferred, List.findSome?_nil, Option.none_or]
  | cons group gs ih =>
      rw [Preferred, List.findSome?_cons]
      cases hb : bestByName header (candidates.filter group) with
      | none =>
          have hany : (candidates.filter group).any (fitsByName header) = false := by
            rw [List.any_eq_false]
            intro m hm
            rw [bestByName_eq_none_iff.1 hb m hm]
            exact Bool.false_ne_true
          rw [hany, if_neg Bool.false_ne_true, ih]
      | some m =>
          have hbest := bestByName_eq_some_iff.1 hb
          have hany : (candidates.filter group).any (fitsByName header) = true :=
            List.any_eq_true.2 ⟨m, hbest.mem, hbest.fits⟩
          rw [if_pos hany, ← bestByName_eq_some_iff, hb]
          rfl

theorem Preferred.not_bundled {p : Platform} {m : Library}
    (h : Preferred header candidates (groups ps) l) (hp : p ∈ ps.byPriority) (hm : m ∈ candidates)
    (hr : runsOutside ps p m = true) (hf : fitsByName header m = true) : bundled ps l = false := by
  have houtside (q : Platform) (hq : BestByName header (candidates.filter (runsOutside ps q)) l) :
      bundled ps l = false := by
    have hl := (List.mem_filter.1 hq.mem).2
    rw [runsOutside, Bool.and_eq_true, Bool.not_eq_true'] at hl
    exact hl.2
  have hany : (candidates.filter (runsOutside ps p)).any (fitsByName header) = true :=
    List.any_eq_true.2 ⟨m, List.mem_filter.2 ⟨hm, hr⟩, hf⟩
  rw [groups, Preferred] at h
  split at h
  · exact houtside ps.core h
  · rename_i hcore
    simp only [Platforms.byPriority, List.mem_cons, List.not_mem_nil, or_false] at hp
    obtain rfl | rfl := hp
    · exact absurd hany hcore
    · rw [Preferred, if_pos hany] at h
      exact houtside ps.target h

theorem choose_of_none_in_use (header : String) (ps : Platforms) (hne : candidates ≠ [])
    (hn : ∀ m ∈ candidates, imports.contains m = false) :
    ∃ l, choose header candidates imports ps = some ⟨l, bundled ps l⟩ ∧
      Preferred header candidates (groups ps) l := by
  have hfind : candidates.find? imports.contains = none := by
    rw [List.find?_eq_none]
    intro m hm
    rw [hn m hm]
    exact Bool.false_ne_true
  cases hc : choose header candidates imports ps with
  | none => exact absurd (choose_eq_none_iff.1 hc) hne
  | some choice =>
      rw [choose_eq, reasons, foremost?_cons, hfind, Option.none_or, foremost?_groups] at hc
      obtain ⟨l, hl, rfl⟩ := Option.map_eq_some_iff.1 hc
      exact ⟨l, rfl, preferred_iff.2 hl⟩

/-- With candidates there is always a choice. The first candidate in use is taken; without one, the
groups decide in their order, so that no candidate from a platform is taken while the name of another fits
that runs on a platform. -/
theorem choose_priority (header : String) (candidates : List Library) (imports : Imports) (ps : Platforms) :
    (choose header candidates imports ps = none ↔ candidates = []) ∧
      (∀ before l after, candidates = before ++ l :: after → imports.contains l = true →
        (∀ m ∈ before, imports.contains m = false) →
        choose header candidates imports ps = some ⟨l, bundled ps l⟩) ∧
      (candidates ≠ [] → (∀ m ∈ candidates, imports.contains m = false) →
        ∃ l, choose header candidates imports ps = some ⟨l, bundled ps l⟩ ∧
          Preferred header candidates (groups ps) l ∧
          ∀ p ∈ ps.byPriority, ∀ m ∈ candidates, runsOutside ps p m = true →
            fitsByName header m = true → bundled ps l = false) := by
  refine ⟨choose_eq_none_iff, ?_, ?_⟩
  · rintro before l after rfl hl hb
    apply choose_of_find?
    rw [List.find?_eq_some_iff_append]
    refine ⟨hl, before, after, rfl, ?_⟩
    intro m hm
    rw [hb m hm]
    rfl
  · intro hne hn
    obtain ⟨l, hl, hpref⟩ := choose_of_none_in_use header ps hne hn
    refine ⟨l, hl, hpref, ?_⟩
    intro p hp m hm hr hf
    exact hpref.not_bundled hp hm hr hf

def boards : Platforms := ⟨⟨"avr", ⟨"/hardware/avr"⟩⟩, ⟨"sam", ⟨"/hardware/sam"⟩⟩⟩

def bundledServo : Library := .legacyAt ⟨"/hardware/avr/libraries/Servo"⟩

def servoFork : Library := { Library.legacyAt ⟨"/local/ServoFork"⟩ with architectures := .only ["sam"] }

def motor : Library := .legacyAt ⟨"/local/Motor"⟩

theorem choose_priority_servoFork :
    choose "Servo.h" ([bundledServo] ++ motor :: [servoFork]) ⟨[motor], .empty⟩ boards =
        some ⟨motor, bundled boards motor⟩ ∧
      ∃ l, choose "Servo.h" [bundledServo, servoFork, motor] .empty boards = some ⟨l, bundled boards l⟩ ∧
        Preferred "Servo.h" [bundledServo, servoFork, motor] (groups boards) l ∧
        runsOutside boards boards.target servoFork = true ∧ fitsByName "Servo.h" servoFork = true ∧
        bundled boards l = false := by
  have hr : runsOutside boards boards.target servoFork = true := by decide +kernel
  have hf : fitsByName "Servo.h" servoFork = true := by decide +kernel
  obtain ⟨_, hused, _⟩ := choose_priority "Servo.h" ([bundledServo] ++ motor :: [servoFork])
    ⟨[motor], .empty⟩ boards
  obtain ⟨_, _, hfresh⟩ := choose_priority "Servo.h" [bundledServo, servoFork, motor] .empty boards
  obtain ⟨l, hl, hpref, hb⟩ := hfresh (by simp) (by decide +kernel)
  refine ⟨hused _ _ _ rfl (by decide +kernel) (by decide +kernel), l, hl, hpref, hr, hf, ?_⟩
  exact hb boards.target (by simp [Platforms.byPriority]) servoFork (by simp) hr hf

end SketchPrep.Selection
