import Mathlib.Data.List.Basic
import Mathlib.Data.List.TakeWhile
import SketchPrep.Proofs.Text.Rows
import SketchPrep.Text.Blank

namespace SketchPrep.Text

variable {c sep : Char} {s a b : List Char} {pieces : List (List Char)}

theorem not_mem_intercalate (hc : c ≠ sep) (h : ∀ piece ∈ pieces, c ∉ piece) :
    c ∉ [sep].intercalate pieces := by
  induction pieces with
  | nil => simp
  | cons piece rest ih =>
      obtain ⟨hpiece, hrest⟩ := List.forall_mem_cons.1 h
      cases rest with
      | nil => simpa using hpiece
      | cons next rest =>
          rw [List.intercalate_cons_cons]
          simp only [List.mem_append, List.mem_singleton, not_or]
          exact ⟨⟨hpiece, hc⟩, ih hrest⟩

theorem exists_intercalate_concat (sep : Char) (pieces : List (List Char)) (s : List Char) :
    ∃ above, [sep].intercalate (pieces ++ [s]) = above ++ s := by
  induction pieces with
  | nil => exact ⟨[], by simp⟩
  | cons piece rest ih =>
      obtain ⟨above, h⟩ := ih
      refine ⟨piece ++ sep :: above, ?_⟩
      rw [List.cons_append, List.intercalate_cons_of_ne_nil (by simp), h]
      simp

theorem exists_intercalate_cons (sep : Char) (s : List Char) (pieces : List (List Char)) :
    ∃ below, [sep].intercalate (s :: pieces) = s ++ below := by
  cases pieces with
  | nil => exact ⟨[], by simp⟩
  | cons next rest => exact ⟨_, by rw [List.intercalate_cons_cons, List.append_assoc]⟩

/-- Pieces with separators of their own fall apart further. -/
theorem splitOn_intercalate_flatMap (sep : Char) (h : pieces ≠ []) :
    ([sep].intercalate pieces).splitOn sep = pieces.flatMap (·.splitOn sep) := by
  induction pieces with
  | nil => exact absurd rfl h
  | cons piece rest ih =>
      cases rest with
      | nil => simp
      | cons next rest =>
          have hrest := ih (List.cons_ne_nil next rest)
          rw [List.intercalate_cons_cons, List.append_assoc, List.singleton_append,
            List.splitOn_append_cons_self, hrest]
          rfl

theorem flatMap_splitOn_eq_self (h : ∀ piece ∈ pieces, sep ∉ piece) :
    pieces.flatMap (·.splitOn sep) = pieces := by
  induction pieces with
  | nil => rfl
  | cons piece rest ih =>
      obtain ⟨hpiece, hrest⟩ := List.forall_mem_cons.1 h
      rw [List.flatMap_cons, List.splitOn_eq_singleton hpiece, ih hrest, List.singleton_append]

theorem splitOn_append_of_not_mem (ha : sep ∉ a) (hb : sep ∉ b) {first : List Char}
    {rest : List (List Char)} (h : s.splitOn sep = first :: rest) :
    ∃ head tail, (a ++ s ++ b).splitOn sep = head :: tail ∧ (∃ more, head = a ++ more) ∧
      ∀ piece ∈ tail, ∃ inner ∈ rest, piece = inner ∨ piece = inner ++ b := by
  have hs : s = [sep].intercalate (first :: rest) := by rw [← h, List.intercalate_splitOn]
  have hpieces : ∀ piece ∈ first :: rest, sep ∉ piece := fun piece hp =>
    not_mem_of_mem_splitOn (h ▸ hp)
  clear h
  subst hs
  suffices hcut : ∃ head tail, (a ++ [sep].intercalate (first :: rest) ++ b).splitOn sep = head :: tail ∧
      (head = a ++ first ∨ head = a ++ first ++ b) ∧
        ∀ piece ∈ tail, ∃ inner ∈ rest, piece = inner ∨ piece = inner ++ b by
    obtain ⟨head, tail, hsplit, rfl | rfl, htail⟩ := hcut
    · exact ⟨_, tail, hsplit, ⟨_, rfl⟩, htail⟩
    · exact ⟨_, tail, hsplit, ⟨_, List.append_assoc ..⟩, htail⟩
  induction rest generalizing a first with
  | nil =>
      have hfirst : sep ∉ first := hpieces first List.mem_cons_self
      refine ⟨a ++ first ++ b, [], ?_, .inr rfl, nofun⟩
      rw [List.intercalate_singleton]
      exact List.splitOn_eq_singleton (by simp [ha, hfirst, hb])
  | cons next rest ih =>
      obtain ⟨hfirst, hrest⟩ := List.forall_mem_cons.1 hpieces
      obtain ⟨head, tail, hsplit, hhead, htail⟩ := ih (a := []) List.not_mem_nil hrest
      refine ⟨a ++ first, head :: tail, ?_, .inl rfl, fun piece hp => ?_⟩
      · rw [List.intercalate_cons_cons]
        rw [List.nil_append] at hsplit
        have hassoc : a ++ (first ++ [sep] ++ [sep].intercalate (next :: rest)) ++ b =
            (a ++ first) ++ sep :: ([sep].intercalate (next :: rest) ++ b) := by simp
        rw [hassoc, List.splitOn_append_cons_self, hsplit,
          List.splitOn_eq_singleton (by simp [ha, hfirst]), List.singleton_append]
      · rcases List.mem_cons.1 hp with rfl | hp
        · exact ⟨next, List.mem_cons_self, by simpa using hhead⟩
        · obtain ⟨inner, hinner, he⟩ := htail piece hp
          exact ⟨inner, List.mem_cons_of_mem _ hinner, he⟩

theorem trimStart_eq_self_iff : trimStart s = s ↔ ∀ c ∈ s.head?, isBlank c = false := by
  cases s with
  | nil => simp [trimStart]
  | cons c s =>
      cases hc : isBlank c with
      | false => simp [trimStart, hc]
      | true =>
          refine iff_of_false (fun h => ?_) (by simp [hc])
          have hlength := (List.dropWhile_suffix isBlank (l := s)).length_le
          rw [trimStart, List.dropWhile_cons_of_pos hc] at h
          rw [h, List.length_cons] at hlength
          omega

theorem trimEnd_eq_self_iff : trimEnd s = s ↔ ∀ c ∈ s.getLast?, isBlank c = false := by
  rw [trimEnd, List.reverse_eq_iff, ← List.head?_reverse]
  exact trimStart_eq_self_iff

theorem trim_eq_self_iff : trim s = s ↔
    (∀ c ∈ s.head?, isBlank c = false) ∧ ∀ c ∈ s.getLast?, isBlank c = false := by
  rw [← trimStart_eq_self_iff, ← trimEnd_eq_self_iff]
  constructor
  · intro h
    have hend : (trim s).length ≤ (trimStart s).length := by
      have hdrop := (List.dropWhile_suffix isBlank (l := (trimStart s).reverse)).length_le
      simpa [trim, trimEnd] using hdrop
    have hstart : trimStart s = s :=
      (List.dropWhile_suffix isBlank).eq_of_length_le (by rwa [h] at hend)
    exact ⟨hstart, by rwa [trim, hstart] at h⟩
  · rintro ⟨hstart, hend⟩
    rw [trim, hstart, hend]

theorem count_trimEnd (hc : isBlank c = false) (s : List Char) : (trimEnd s).count c = s.count c := by
  have hnone : (s.reverse.takeWhile isBlank).count c = 0 := by
    apply List.count_eq_zero.2
    intro hm
    have hblank := List.all_eq_true.1 List.all_takeWhile c hm
    rw [hc] at hblank
    cases hblank
  have hsplit := congrArg (List.count c) (List.takeWhile_append_dropWhile (p := isBlank) (l := s.reverse))
  rw [List.count_append, hnone, List.count_reverse] at hsplit
  rw [trimEnd, List.count_reverse]
  omega

theorem trim_concat (hc : isBlank c = true) (s : List Char) : trim (s ++ [c]) = trim s := by
  have hend (t : List Char) : trimEnd (t ++ [c]) = trimEnd t := by
    simp [trimEnd, hc]
  cases hs : trimStart s with
  | nil =>
      have hall : trimStart (s ++ [c]) = [] := by
        refine List.dropWhile_eq_nil_iff.2 fun d hd => ?_
        rcases List.mem_append.1 hd with hd | hd
        · exact List.dropWhile_eq_nil_iff.1 hs d hd
        · rwa [List.mem_singleton.1 hd]
      rw [trim, trim, hall, hs]
  | cons d rest =>
      have hsome : trimStart (s ++ [c]) = trimStart s ++ [c] := by
        rw [trimStart, List.dropWhile_append, show s.dropWhile isBlank = d :: rest from hs,
          show trimStart s = d :: rest from hs]
        rfl
      rw [trim, hsome, hend, trim]

theorem trim_dropReturn (s : List Char) : trim (dropReturn s) = trim s := by
  unfold dropReturn
  split
  · rename_i hlast
    obtain ⟨t, rfl⟩ := List.getLast?_eq_some_iff.1 hlast
    rw [List.dropLast_concat, trim_concat (by decide)]
  · rfl

theorem trimEnd_isPrefix (s : List Char) : trimEnd s <+: s := by
  have h := List.reverse_prefix.2 (List.dropWhile_suffix isBlank (l := s.reverse))
  rwa [List.reverse_reverse] at h

theorem trim_subset (s : List Char) : trim s ⊆ s :=
  List.Subset.trans (trimEnd_isPrefix _).subset (List.dropWhile_suffix isBlank).subset

theorem trim_trim (s : List Char) : trim (trim s) = trim s := by
  rw [trim_eq_self_iff]
  constructor
  · intro c hc
    obtain ⟨rest, hrest⟩ := trimEnd_isPrefix (trimStart s)
    have hstart : (trimStart s).head? = some c := by
      rw [← hrest, List.head?_append, show (trimEnd (trimStart s)).head? = some c from hc]
      rfl
    have hfirst := List.head?_dropWhile_not isBlank s
    rwa [show (s.dropWhile isBlank).head? = some c from hstart] at hfirst
  · intro c hc
    rw [trim, trimEnd, List.getLast?_reverse] at hc
    have hlast := List.head?_dropWhile_not isBlank (trimStart s).reverse
    rwa [show ((trimStart s).reverse.dropWhile isBlank).head? = some c from hc] at hlast

theorem head?_trim (h : s.head? = some c) (hc : isBlank c = false) : (trim s).head? = some c := by
  have hstart : trimStart s = s := trimStart_eq_self_iff.2 fun d hd => by
    obtain rfl : c = d := Option.some.inj (h.symm.trans hd)
    exact hc
  have hmem : c ∈ trim s := mem_trim (List.mem_of_head? h) hc
  rw [trim, hstart] at hmem ⊢
  obtain ⟨rest, hrest⟩ := trimEnd_isPrefix s
  cases ht : trimEnd s with
  | nil =>
      rw [ht] at hmem
      cases hmem
  | cons d t =>
      rw [← hrest, ht] at h
      exact h

theorem mem_dropReturn (hc : c ≠ '\r') (h : c ∈ s) : c ∈ dropReturn s := by
  unfold dropReturn
  split
  · rename_i hlast
    obtain ⟨t, rfl⟩ := List.getLast?_eq_some_iff.1 hlast
    rw [List.dropLast_concat]
    simpa [hc] using h
  · exact h

theorem head?_intercalate (h : ([sep].intercalate pieces).head? = some c) :
    c = sep ∨ ∃ piece ∈ pieces, piece.head? = some c := by
  cases pieces with
  | nil => cases h
  | cons piece rest =>
      cases piece with
      | cons d piece =>
          obtain ⟨below, hbelow⟩ := exists_intercalate_cons sep (d :: piece) rest
          rw [hbelow] at h
          exact .inr ⟨d :: piece, List.mem_cons_self, h⟩
      | nil =>
          cases rest with
          | nil => cases h
          | cons next rest =>
              rw [List.intercalate_cons_cons] at h
              exact .inl (Option.some.inj h).symm

/-- What a row says is the same read as a row or as a line: only the end of the line is lost. -/
theorem mem_map_trim_linesOf (hs : s ≠ []) : s ∈ (linesOf pieces).map trim ↔ s ∈ pieces.map trim := by
  induction pieces with
  | nil => exact .rfl
  | cons piece rest ih =>
      cases rest with
      | nil =>
          rw [linesOf]
          split
          · rename_i hempty
            rw [List.isEmpty_iff.1 hempty]
            simp [trim, trimEnd, trimStart, hs]
          · exact .rfl
      | cons next rest =>
          rw [linesOf, List.map_cons, List.map_cons, List.mem_cons, List.mem_cons, ih, trim_dropReturn]

theorem mem_map_trim_lines (hs : s ≠ []) (h : ∀ row ∈ pieces, '\n' ∉ row) :
    s ∈ (lines (['\n'].intercalate pieces)).map trim ↔ s ∈ pieces.map trim := by
  cases pieces with
  | nil => exact .rfl
  | cons piece rest =>
      rw [lines, List.splitOn_intercalate '\n' h (List.cons_ne_nil piece rest), mem_map_trim_linesOf hs]

end SketchPrep.Text
