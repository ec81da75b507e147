import SketchPrep.Proofs.Selection.Priority

namespace SketchPrep.Selection

variable {header : String} {candidates before after before' after' : List Library} {imports : Imports}
  {ps : Platforms} {l : Library} {choice : Choice}

inductive ChosenAt (header : String) (imports : Imports) (ps : Platforms) (before : List Library)
    (l : Library) (after : List Library) : Prop
  | foremost (h : Foremost (reasons header imports ps) before l after)
  | last (unspoken : ∀ m ∈ before ++ [l], ∀ reason ∈ reasons header imports ps, reason m = false)
      (last : after = [])

theorem ChosenAt.sublist (h : ChosenAt header imports ps before l after) (hb : before'.Sublist before)
    (ha : after'.Sublist after) : ChosenAt header imports ps before' l after' := by
  cases h with
  | foremost h => exact .foremost (h.sublist hb ha)
  | last hnone hlast =>
      subst hlast
      refine .last ?_ (List.sublist_nil.1 ha)
      intro m hm
      exact hnone m ((hb.append_right [l]).subset hm)

theorem ChosenAt.choose_eq_some (h : ChosenAt header imports ps before l after) :
    choose header (before ++ l :: after) imports ps = some ⟨l, bundled ps l⟩ := by
  rw [choose_eq]
  cases h with
  | foremost h =>
      rw [foremost?_eq_some_iff.2 ⟨before, after, rfl, h⟩]
      rfl
  | last hnone hlast =>
      subst hlast
      rw [foremost?_eq_none_iff.2 hnone, Option.none_or, List.getLast?_concat]
      rfl

theorem exists_chosenAt (h : choose header candidates imports ps = some choice) :
    ∃ before after, candidates = before ++ choice.library :: after ∧
      ChosenAt header imports ps before choice.library after := by
  rw [choose_eq] at h
  obtain ⟨l, hl, rfl⟩ := Option.map_eq_some_iff.1 h
  obtain hf | ⟨hnone, hlast⟩ := Option.or_eq_some_iff.1 hl
  · obtain ⟨before, after, hc, hf⟩ := foremost?_eq_some_iff.1 hf
    exact ⟨before, after, hc, .foremost hf⟩
  · obtain ⟨before, rfl⟩ := List.getLast?_eq_some_iff.1 hlast
    exact ⟨before, [], rfl, .last (foremost?_eq_none_iff.1 hnone) rfl⟩

/-- A choice does not depend on the candidates that it passes over. -/
theorem choose_without_others (h : choose header candidates imports ps = some choice) :
    ∃ before after, candidates = before ++ choice.library :: after ∧
      ChosenAt header imports ps before choice.library after ∧
      ∀ before' after', before'.Sublist before → after'.Sublist after →
        choose header (before' ++ choice.library :: after') imports ps = some choice := by
  obtain ⟨before, after, hc, hat⟩ := exists_chosenAt h
  refine ⟨before, after, hc, hat, ?_⟩
  intro before' after' hb ha
  have hflag : choice.fromPlatform = bundled ps choice.library := fromPlatform_of_choose h
  rw [(hat.sublist hb ha).choose_eq_some, ← hflag]

theorem choose_without_others_servoFork :
    choose "Servo.h" [bundledServo, servoFork, motor] .empty boards = some ⟨servoFork, false⟩ ∧
      ∃ before after, [bundledServo, servoFork, motor] = before ++ servoFork :: after ∧
        ChosenAt "Servo.h" .empty boards before servoFork after ∧
        ∀ before' after', before'.Sublist before → after'.Sublist after →
          choose "Servo.h" (before' ++ servoFork :: after') .empty boards = some ⟨servoFork, false⟩ := by
  have h : choose "Servo.h" [bundledServo, servoFork, motor] .empty boards = some ⟨servoFork, false⟩ := by
    rfl
  exact ⟨h, choose_without_others h⟩

end SketchPrep.Selection
