import Mathlib.Data.List.Basic
import SketchPrep.Text.Search

namespace SketchPrep.Text

variable {w s x y before after : List Char} {c sep : Char}

theorem cut_append (w y : List Char) : cut w (w ++ y) = some ([], y) := by
  cases hs : w ++ y with
  | nil =>
      obtain ⟨rfl, rfl⟩ := List.append_eq_nil_iff.1 hs
      rfl
  | cons c s =>
      have hprefix : w.isPrefixOf? (c :: s) = some y := List.isPrefixOf?_eq_some_iff_append_eq.2 hs
      rw [cut, hprefix]

theorem not_infix_of_cons (h : ¬ w <:+: c :: s) : ¬ w <:+: s :=
  fun hs => h (hs.trans (List.suffix_cons c s).isInfix)

theorem isPrefixOf?_eq_none (h : ¬ w <+: s) : w.isPrefixOf? s = none := by
  cases hp : w.isPrefixOf? s with
  | none => rfl
  | some rest => exact absurd ⟨rest, List.isPrefixOf?_eq_some_iff_append_eq.1 hp⟩ h

theorem cut_cons (h : ¬ w <+: c :: s) :
    cut w (c :: s) = (cut w s).map fun (before, after) => (c :: before, after) := by
  rw [cut, isPrefixOf?_eq_none h]

theorem cut_eq_none_iff : cut w s = none ↔ ¬ w <:+: s := by
  induction s with
  | nil => cases w <;> simp [cut]
  | cons c s ih =>
      by_cases hp : w <+: c :: s
      · obtain ⟨rest, hrest⟩ := hp
        rw [← hrest, cut_append]
        simp [(List.prefix_append w rest).isInfix]
      · rw [cut_cons hp, Option.map_eq_none_iff, ih, List.infix_cons_iff]
        simp [hp]

theorem occurs_iff : occurs w s = true ↔ w <:+: s := by
  rw [occurs, ← Option.not_isNone, Bool.not_eq_true', ← Bool.not_eq_true, Option.isNone_iff_eq_none,
    cut_eq_none_iff, not_not]

theorem cutLast_eq_none_iff : cutLast c s = none ↔ c ∉ s := by
  induction s with
  | nil => simp [cutLast]
  | cons d s ih =>
      rw [cutLast, List.mem_cons, not_or, ← ih]
      cases cutLast c s with
      | some found => simp
      | none =>
          by_cases hd : d = c
          · simp [hd]
          · simp [hd, Ne.symm hd]

theorem cutLast_eq_some (h : cutLast c s = some (before, after)) : s = before ++ c :: after ∧ c ∉ after := by
  induction s generalizing before with
  | nil => cases h
  | cons d s ih =>
      rw [cutLast] at h
      cases hs : cutLast c s with
      | some found =>
          rw [hs] at h
          cases h
          obtain ⟨he, hc⟩ := ih hs
          exact ⟨by rw [he, List.cons_append], hc⟩
      | none =>
          rw [hs] at h
          by_cases hd : d = c
          · rw [if_pos hd] at h
            cases h
            exact ⟨by rw [hd, List.nil_append], cutLast_eq_none_iff.1 hs⟩
          · rw [if_neg hd] at h
            cases h

theorem cutLast_append (h : c ∉ after) : cutLast c (before ++ c :: after) = some (before, after) := by
  induction before with
  | nil =>
      rw [List.nil_append, cutLast, cutLast_eq_none_iff.2 h]
      exact if_pos rfl
  | cons d before ih => rw [List.cons_append, cutLast, ih]

/-- The text is cut at an occurrence, and at the first one. -/
theorem cut_eq_some (h : cut w s = some (before, after)) : s = before ++ w ++ after ∧
    ∀ x y, s = x ++ w ++ y → before.length ≤ x.length := by
  induction s generalizing before with
  | nil =>
      cases w with
      | nil =>
          cases h
          exact ⟨rfl, fun x y _ => Nat.zero_le _⟩
      | cons => cases h
  | cons c s ih =>
      by_cases hp : w <+: c :: s
      · obtain ⟨rest, hrest⟩ := hp
        rw [← hrest, cut_append] at h
        cases h
        exact ⟨hrest.symm, fun x y _ => Nat.zero_le _⟩
      · rw [cut_cons hp] at h
        obtain ⟨⟨b, a⟩, hcut, hb⟩ := Option.map_eq_some_iff.1 h
        cases hb
        obtain ⟨hs, hfirst⟩ := ih hcut
        refine ⟨by rw [hs]; rfl, fun x y hxy => ?_⟩
        cases x with
        | nil => exact absurd ⟨y, hxy.symm⟩ hp
        | cons d x => exact Nat.succ_le_succ (hfirst x y (List.cons.inj hxy).2)

theorem prefix_of_prefix_append_cons (hw : sep ∉ w) (h : w <+: x ++ sep :: y) : w <+: x := by
  have hx : x ++ [sep] <+: x ++ sep :: y := ⟨y, by simp⟩
  rcases List.prefix_or_prefix_of_prefix h hx with hshort | hlong
  · rcases List.prefix_concat_iff.1 hshort with rfl | hshort
    · simp at hw
    · exact hshort
  · exact absurd (hlong.subset (by simp)) hw

/-- A search passes over a piece in which the word does not occur. -/
theorem cut_append_cons (hw : sep ∉ w) (hx : ¬ w <:+: x) (y : List Char) :
    cut w (x ++ sep :: y) = (cut w y).map fun (before, after) => (x ++ sep :: before, after) := by
  induction x with
  | nil =>
      refine cut_cons fun hp => hx ?_
      exact (prefix_of_prefix_append_cons (x := []) hw hp).isInfix
  | cons d x ih =>
      have hp : ¬ w <+: d :: (x ++ sep :: y) := fun hp =>
        hx (prefix_of_prefix_append_cons (x := d :: x) hw hp).isInfix
      rw [List.cons_append, cut_cons hp, ih (not_infix_of_cons hx), Option.map_map]
      rfl

/-- The word after a text in which it does not occur is found there, if no part of it can begin it. -/
theorem cut_append_word (hw : c ∉ w) (hx : ¬ (c :: w) <:+: x) (y : List Char) :
    cut (c :: w) (x ++ (c :: w ++ y)) = some (x, y) := by
  induction x with
  | nil => exact cut_append (c :: w) y
  | cons d x ih =>
      have hp : ¬ (c :: w) <+: d :: (x ++ (c :: w ++ y)) := by
        intro hp
        have hx' : d :: x <+: d :: (x ++ (c :: w ++ y)) := List.prefix_append (d :: x) _
        rcases List.prefix_or_prefix_of_prefix hp hx' with hshort | ⟨rest, hlong⟩
        · exact hx hshort.isInfix
        · -- the word would begin again inside itself
          have hnext : rest <+: c :: w ++ y := by
            refine (List.prefix_append_right_inj (d :: x)).1 ?_
            rw [hlong]
            exact hp
          cases rest with
          | nil => exact hx ⟨[], [], by rw [← hlong]; simp⟩
          | cons e rest =>
              obtain ⟨rfl, -⟩ := List.cons_prefix_cons.1 hnext
              have hinner : x ++ e :: rest = w := (List.cons.inj hlong).2
              exact hw (hinner ▸ by simp)
      rw [List.cons_append, cut_cons hp, ih (not_infix_of_cons hx)]
      rfl

end SketchPrep.Text
