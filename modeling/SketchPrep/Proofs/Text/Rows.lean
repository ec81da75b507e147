import SketchPrep.Text.Lines

namespace SketchPrep.Text

def rows (s : List Char) : List (List Char) := s.splitOn '\n'

def ended (rs : List (List Char)) : List Char := rs.flatMap (· ++ ['\n'])

variable {row s : List Char} {rs : List (List Char)}

@[simp]
theorem ended_nil : ended [] = [] := rfl

@[simp]
theorem ended_cons (row : List Char) (rs : List (List Char)) :
    ended (row :: rs) = row ++ '\n' :: ended rs := by
  simp [ended]

@[simp]
theorem rows_nil : rows [] = [[]] := List.splitOn_nil '\n'

theorem rows_eq_singleton (h : '\n' ∉ row) : rows row = [row] := List.splitOn_eq_singleton h

theorem rows_append_feed (s t : List Char) : rows (s ++ '\n' :: t) = rows s ++ rows t :=
  List.splitOn_append_cons_self s t

theorem not_mem_of_mem_splitOn {sep : Char} {piece s : List Char} (h : piece ∈ s.splitOn sep) :
    sep ∉ piece := by
  induction s generalizing piece with
  | nil =>
      rw [List.splitOn_nil, List.mem_singleton] at h
      simp [h]
  | cons c s ih =>
      rw [List.splitOn_cons_eq_if_modifyHead] at h
      split at h
      · rcases List.mem_cons.1 h with rfl | h
        · simp
        · exact ih h
      · rename_i hc
        have hne : sep ≠ c := fun he => hc (by simp [he])
        cases hs : s.splitOn sep with
        | nil => exact absurd hs (List.splitOn_ne_nil sep s)
        | cons first rest =>
            rw [hs, List.modifyHead_cons, List.mem_cons] at h
            rcases h with rfl | h
            · have hfirst : sep ∉ first := ih (hs ▸ List.mem_cons_self)
              simp [hfirst, hne]
            · exact ih (hs ▸ List.mem_cons_of_mem _ h)

theorem not_mem_of_mem_rows (h : row ∈ rows s) : '\n' ∉ row := not_mem_of_mem_splitOn h

theorem rows_ended_append (h : ∀ row ∈ rs, '\n' ∉ row) (t : List Char) :
    rows (ended rs ++ t) = rs ++ rows t := by
  induction rs with
  | nil => rfl
  | cons row rs ih =>
      obtain ⟨hrow, hrs⟩ := List.forall_mem_cons.1 h
      rw [ended_cons, List.append_assoc, List.cons_append, rows_append_feed, rows_eq_singleton hrow,
        ih hrs, List.singleton_append, List.cons_append]

theorem ended_append_intercalate (above : List (List Char)) {below : List (List Char)}
    (h : below ≠ []) :
    ended above ++ ['\n'].intercalate below = ['\n'].intercalate (above ++ below) := by
  induction above with
  | nil => rfl
  | cons row above ih =>
      rw [ended_cons, List.append_assoc, List.cons_append, ih, List.cons_append,
        List.intercalate_cons_of_ne_nil (by simp [h])]
      simp

theorem mem_of_mem_rows {c : Char} (h : row ∈ rows s) (hc : c ∈ row) : c ∈ s := by
  obtain ⟨above, below, hrows⟩ := List.append_of_mem h
  have hs : ['\n'].intercalate (rows s) = s := List.intercalate_splitOn '\n'
  rw [← hs, hrows, ← ended_append_intercalate above (List.cons_ne_nil row below)]
  refine List.mem_append_right _ ?_
  cases below with
  | nil => simpa using hc
  | cons next below => rw [List.intercalate_cons_cons]; simp [hc]

theorem ended_eq_intercalate (h : rs ≠ []) : ended rs = ['\n'].intercalate rs ++ ['\n'] := by
  induction rs with
  | nil => exact absurd rfl h
  | cons row rs ih =>
      cases rs with
      | nil => simp
      | cons next rest => rw [ended_cons, ih (by simp), List.intercalate_cons_cons]; simp

/-- Every text comes apart above any of its rows. -/
theorem ended_take_rows_append {n : Nat} (h : n < (rows s).length) :
    ended ((rows s).take n) ++ ['\n'].intercalate ((rows s).drop n) = s := by
  have hne : (rows s).drop n ≠ [] := by simpa using h
  rw [ended_append_intercalate _ hne, List.take_append_drop, rows, List.intercalate_splitOn]

/-- A text that ends with a feed is its other rows, each with a feed. -/
theorem eq_ended_of_rows (h : rows s = rs ++ [[]]) : s = ended rs := by
  have hs : ['\n'].intercalate (rows s) = s := List.intercalate_splitOn '\n'
  rw [h, ← ended_append_intercalate rs (by simp)] at hs
  simpa using hs.symm

theorem rows_append_of_rows (h : rows s = rs ++ [[]]) (t : List Char) :
    rows (s ++ t) = rs ++ rows t := by
  have hrs : ∀ row ∈ rs, '\n' ∉ row := fun row hr =>
    not_mem_of_mem_rows (h ▸ List.mem_append_left [[]] hr)
  rw [eq_ended_of_rows h, rows_ended_append hrs]

theorem rows_intercalate_drop {n : Nat} (h : n < (rows s).length) :
    rows (['\n'].intercalate ((rows s).drop n)) = (rows s).drop n :=
  List.splitOn_intercalate '\n' (fun _ hr => not_mem_of_mem_rows (List.mem_of_mem_drop hr))
    (by simpa using h)

theorem linesOf_subset {ps : List (List Char)} {line : List Char} (h : line ∈ linesOf ps) :
    ∃ p ∈ ps, line ⊆ p := by
  induction ps with
  | nil => simp [linesOf] at h
  | cons p ps ih =>
      cases ps with
      | nil =>
          rw [linesOf] at h
          split at h
          · simp at h
          · exact ⟨p, List.mem_cons_self, List.mem_singleton.1 h ▸ List.Subset.refl p⟩
      | cons next rest =>
          rcases List.mem_cons.1 h with rfl | h
          · refine ⟨p, List.mem_cons_self, ?_⟩
            unfold dropReturn
            split
            · exact List.dropLast_subset p
            · exact List.Subset.refl p
          · obtain ⟨q, hq, hsub⟩ := ih h
            exact ⟨q, List.mem_cons_of_mem p hq, hsub⟩

theorem feed_not_mem_of_mem_lines (h : row ∈ lines s) : '\n' ∉ row := by
  obtain ⟨p, hp, hsub⟩ := linesOf_subset h
  exact fun hfeed => not_mem_of_mem_rows hp (hsub hfeed)

theorem mem_of_mem_lines {c : Char} (h : row ∈ lines s) (hc : c ∈ row) : c ∈ s := by
  obtain ⟨p, hp, hsub⟩ := linesOf_subset h
  exact mem_of_mem_rows hp (hsub hc)

/-- Lines that are complete are not changed by what comes after them. -/
theorem lines_append (h : ∀ c ∈ s.getLast?, c = '\n') (t : List Char) : lines (s ++ t) = lines s ++ lines t := by
  rcases List.eq_nil_or_concat s with rfl | ⟨init, c, rfl⟩
  · rfl
  · obtain rfl : c = '\n' := h c (by simp)
    have hlines := lines_append_feed init []
    rw [lines_nil, List.append_nil] at hlines
    rw [List.concat_eq_append, List.append_assoc, List.singleton_append, lines_append_feed, hlines]

theorem dropReturn_of_not_mem (h : '\r' ∉ row) : dropReturn row = row :=
  if_neg fun hlast => h (List.mem_of_getLast? hlast)

/-- Lines that have no end of line inside are read back. -/
theorem lines_ended (hfeed : ∀ row ∈ rs, '\n' ∉ row) (hreturn : ∀ row ∈ rs, '\r' ∉ row) :
    lines (ended rs) = rs := by
  have hrows := rows_ended_append hfeed []
  rw [List.append_nil, rows_nil] at hrows
  have hkeep : rs.map dropReturn = rs := by
    rw [List.map_congr_left fun row hr => dropReturn_of_not_mem (hreturn row hr), List.map_id']
  rw [lines, ← rows, hrows, linesOf_append_cons, hkeep]
  exact List.append_nil rs

end SketchPrep.Text
