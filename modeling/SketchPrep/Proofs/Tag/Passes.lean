import Mathlib.Data.List.Forall2
import SketchPrep.Proofs.Tag.Settled

namespace SketchPrep.Tag

inductive Pass where
  | single (source : String → Option String) (stage : Stage)
  | whole (source : String → Option String)

def Pass.run : Pass → List Tag → List Tag
  | .single source stage => stage.run source
  | .whole source => filter source

def runPasses (passes : List Pass) (tags : List Tag) : List Tag :=
  passes.foldl (fun tags pass => pass.run tags) tags

structure Keeps (t u : Tag) : Prop where
  symbol : SameSymbol t u
  skip : t.isSkipped = true → u.skip = t.skip
  prototype : t.isSkipped = true → u.prototype = t.prototype

variable {t u v : Tag} {tags us vs : List Tag}

theorem SameSymbol.refl (t : Tag) : SameSymbol t t := ⟨t.prototype, t.modifiers, t.skip, rfl⟩

theorem SameSymbol.trans (htu : SameSymbol t u) (huv : SameSymbol u v) : SameSymbol t v := by
  obtain ⟨_, _, _, rfl⟩ := htu
  obtain ⟨prototype, modifiers, skip, rfl⟩ := huv
  exact ⟨prototype, modifiers, skip, rfl⟩

namespace Keeps

theorem refl (t : Tag) : Keeps t t := ⟨.refl t, fun _ => rfl, fun _ => rfl⟩

theorem isSkipped (h : Keeps t u) (hs : t.isSkipped = true) : u.isSkipped = true := by
  rw [Tag.isSkipped, h.skip hs]
  exact hs

theorem trans (htu : Keeps t u) (huv : Keeps u v) : Keeps t v where
  symbol := htu.symbol.trans huv.symbol
  skip hs := (huv.skip (htu.isSkipped hs)).trans (htu.skip hs)
  prototype hs := (huv.prototype (htu.isSkipped hs)).trans (htu.prototype hs)

/-- Whatever becomes of a tag that is not left out is no loss, as long as it stays the same symbol. -/
theorem of_not_isSkipped (h : t.isSkipped = false) (hsymbol : SameSymbol t u) : Keeps t u := by
  refine ⟨hsymbol, fun hs => ?_, fun hs => ?_⟩
  · rw [h] at hs
    cases hs
  · rw [h] at hs
    cases hs

theorem linked (regions : List (String × List Nat)) (t : Tag) : Keeps t (linked regions t) := by
  rw [linked_eq]
  exact ⟨⟨_, _, _, rfl⟩, fun _ => rfl, fun _ => rfl⟩

theorem forall₂_map {f : Tag → Tag} (h : ∀ t, Keeps t (f t)) (tags : List Tag) :
    List.Forall₂ Keeps tags (tags.map f) :=
  List.forall₂_map_right_iff.2 (List.forall₂_same.2 fun t _ => h t)

theorem forall₂_trans (htu : List.Forall₂ Keeps tags us) (huv : List.Forall₂ Keeps us vs) :
    List.Forall₂ Keeps tags vs := by
  induction htu generalizing vs with
  | nil => exact huv
  | cons h _ ih =>
      cases huv with
      | cons hnext hrest => exact .cons (h.trans hnext) (ih hrest)

end Keeps

theorem skipWhere_keeps (reason : SkipReason) (p : Tag → Bool) (tags : List Tag) :
    List.Forall₂ Keeps tags (skipWhere reason p tags) := by
  apply Keeps.forall₂_map
  intro t
  cases hs : t.isSkipped with
  | true => exact .refl t
  | false =>
      apply Keeps.of_not_isSkipped hs
      split
      · exact ⟨_, _, _, rfl⟩
      · exact .refl t

theorem addPrototypes_keeps (tags : List Tag) : List.Forall₂ Keeps tags (addPrototypes tags) := by
  apply Keeps.forall₂_map
  intro t
  split
  · exact .refl t
  · rename_i hs
    exact .of_not_isSkipped (Bool.eq_false_iff.2 hs) (sameSymbol_declare t)

theorem markRepeats_keeps (seen : List String) (tags : List Tag) :
    List.Forall₂ Keeps tags (markRepeats seen tags) := by
  induction tags generalizing seen with
  | nil => exact .nil
  | cons t tags ih =>
      rw [markRepeats]
      split
      · exact .cons (.refl t) (ih seen)
      · rename_i hs
        split
        · exact .cons (.of_not_isSkipped (Bool.eq_false_iff.2 hs) ⟨_, _, _, rfl⟩) (ih seen)
        · exact .cons (.refl t) (ih _)

theorem Stage.run_keeps (source : String → Option String) (stage : Stage) (tags : List Tag) :
    List.Forall₂ Keeps tags (stage.run source tags) := by
  cases stage with
  | skipUnknownKinds | skipScoped | skipDeclared | skipCodeMismatches => exact skipWhere_keeps _ _ tags
  | addPrototypes => exact addPrototypes_keeps tags
  | skipDuplicates => exact markRepeats_keeps [] tags
  | markCLinkage => exact Keeps.forall₂_map (Keeps.linked _) tags

theorem runStages_keeps (source : String → Option String) (stages : List Stage) (tags : List Tag) :
    List.Forall₂ Keeps tags (runStages source stages tags) := by
  induction stages generalizing tags with
  | nil => exact List.forall₂_same.2 fun t _ => .refl t
  | cons stage stages ih => exact Keeps.forall₂_trans (stage.run_keeps source tags) (ih _)

theorem Pass.run_keeps (pass : Pass) (tags : List Tag) : List.Forall₂ Keeps tags (pass.run tags) := by
  cases pass with
  | single source stage => exact stage.run_keeps source tags
  | whole source => exact runStages_keeps source stages tags

theorem runPasses_keeps (passes : List Pass) (tags : List Tag) :
    List.Forall₂ Keeps tags (runPasses passes tags) := by
  induction passes generalizing tags with
  | nil => exact List.forall₂_same.2 fun t _ => .refl t
  | cons pass passes ih => exact Keeps.forall₂_trans (pass.run_keeps tags) (ih _)

theorem length_left_le (h : List.Forall₂ Keeps tags us) : (left us).length ≤ (left tags).length := by
  induction h with
  | nil => exact Nat.le_refl _
  | @cons t u tags us hkeeps _ ih =>
      cases hs : t.isSkipped with
      | true => rwa [left_cons_of_skipped hs, left_cons_of_skipped (hkeeps.isSkipped hs)]
      | false =>
          rw [left_cons_of_not_skipped hs, List.length_cons]
          cases hu : u.isSkipped with
          | true =>
              rw [left_cons_of_skipped hu]
              exact Nat.le_succ_of_le ih
          | false =>
              rw [left_cons_of_not_skipped hu, List.length_cons]
              exact Nat.succ_le_succ ih

/-- At any time, whatever passes came before, the passes that follow leave every tag in its place with all
that the lister said of it. Those that were left out by then keep the reason and the declaration, and no tag
comes back. -/
theorem runPasses_append (earlier later : List Pass) (tags : List Tag) :
    List.Forall₂ Keeps (runPasses earlier tags) (runPasses (earlier ++ later) tags) ∧
      (left (runPasses (earlier ++ later) tags)).length ≤ (left (runPasses earlier tags)).length := by
  have hkeeps : List.Forall₂ Keeps (runPasses earlier tags) (runPasses (earlier ++ later) tags) := by
    rw [runPasses, runPasses, List.foldl_append]
    exact runPasses_keeps later _
  exact ⟨hkeeps, length_left_le hkeeps⟩

end SketchPrep.Tag
