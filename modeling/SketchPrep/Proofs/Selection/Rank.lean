import Mathlib.Data.Prod.Lex
import SketchPrep.Proofs.Selection.ByName
import SketchPrep.Proofs.Text.LetterCase
import SketchPrep.Proofs.Text.Occurrence

namespace SketchPrep.Selection

section Places

variable {α : Type} {tests : List (α → Bool)} {xs : List α} {a : α} {i n : Nat}

structure LeastAt (tests : List (α → Bool)) (xs : List α) (i : Nat) (a : α) : Prop where
  place : xs[i]? = some a
  ranked : rank tests a < tests.length
  least : ∀ j b, xs[j]? = some b → toLex (rank tests a, i) ≤ toLex (rank tests b, j)

theorem rank_lt_length_iff : rank tests a < tests.length ↔ ∃ test ∈ tests, test a = true :=
  List.findIdx_lt_length

theorem LeastAt.foremost (h : LeastAt tests xs i a) : Foremost tests (xs.take i) a (xs.drop (i + 1)) := by
  refine ⟨rank_lt_length_iff.1 h.ranked, ?_, ?_⟩
  · intro b hb
    obtain ⟨j, hj⟩ := List.mem_iff_getElem?.1 hb
    obtain ⟨hlt, hb⟩ : j < i ∧ xs[j]? = some b := by
      simpa [List.getElem?_take] using hj
    have hle := h.least j b hb
    rw [Prod.Lex.toLex_le_toLex] at hle
    simp only at hle
    omega
  · intro b hb
    obtain ⟨j, hj⟩ := List.mem_iff_getElem?.1 hb
    rw [List.getElem?_drop] at hj
    have hle := h.least (i + 1 + j) b hj
    rw [Prod.Lex.toLex_le_toLex] at hle
    simp only at hle
    omega

end Places

variable {header : String} {libraries : List Library} {l : Library} {kind : NameMatch} {test : NameTest}
  {name stem : List Char} {i n : Nat}

end SketchPrep.Selection
