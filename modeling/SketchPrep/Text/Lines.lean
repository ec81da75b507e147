namespace SketchPrep.Text

def dropReturn (s : List Char) : List Char :=
  if s.getLast? = some '\r' then s.dropLast else s

def linesOf : List (List Char) → List (List Char)
  | [] => []
  | [last] => if last.isEmpty then [] else [last]
  | piece :: next :: rest => dropReturn piece :: linesOf (next :: rest)

def lines (s : List Char) : List (List Char) := linesOf (s.splitOn '\n')

@[simp]
theorem lines_nil : lines [] = [] := rfl

theorem linesOf_append_cons (ps : List (List Char)) (q : List Char) (qs : List (List Char)) :
    linesOf (ps ++ q :: qs) = ps.map dropReturn ++ linesOf (q :: qs) := by
  induction ps with
  | nil => rfl
  | cons p ps ih => cases ps <;> simp_all [linesOf]

/-- Lines of a text made of complete lines come first, whatever follows. -/
theorem lines_append_feed (s t : List Char) :
    lines (s ++ '\n' :: t) = (s.splitOn '\n').map dropReturn ++ lines t := by
  rw [lines, List.splitOn_append_cons_self, lines]
  cases h : t.splitOn '\n' with
  | nil => exact (List.splitOn_ne_nil _ _ h).elim
  | cons q qs => exact linesOf_append_cons _ q qs

end SketchPrep.Text
