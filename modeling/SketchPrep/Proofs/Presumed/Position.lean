import SketchPrep.Proofs.Presumed.Directive
import SketchPrep.Proofs.Text.Rows

namespace SketchPrep

structure Position where
  file : Option String
  line : Nat
deriving DecidableEq, Inhabited

namespace Position

def start : Position := ⟨none, 1⟩

def next (p : Position) (row : List Char) : Position :=
  match Directive.read? row with
  | some d => ⟨d.file <|> p.file, d.line⟩
  | none => ⟨p.file, p.line + 1⟩

def below (p : Position) (rows : List (List Char)) : Position := rows.foldl next p

def along (p : Position) : List (List Char) → List Position
  | [] => []
  | row :: rows => p :: along (p.next row) rows

def ofSource (source : String) : List Position := start.along (Text.rows source.toList)

@[simp]
theorem below_nil (p : Position) : p.below [] = p := rfl

@[simp]
theorem below_cons (p : Position) (row : List Char) (rows : List (List Char)) :
    p.below (row :: rows) = (p.next row).below rows := rfl

theorem below_append (p : Position) (above rows : List (List Char)) :
    p.below (above ++ rows) = (p.below above).below rows := List.foldl_append

@[simp]
theorem length_along (p : Position) (rows : List (List Char)) :
    (p.along rows).length = rows.length := by
  induction rows generalizing p with
  | nil => rfl
  | cons row rows ih => simp [along, ih]

theorem along_append (p : Position) (above rows : List (List Char)) :
    p.along (above ++ rows) = p.along above ++ (p.below above).along rows := by
  induction above generalizing p with
  | nil => rfl
  | cons row above ih => simp [along, ih]

theorem getElem?_along (p : Position) {rows : List (List Char)} {i : Nat} (h : i < rows.length) :
    (p.along rows)[i]? = some (p.below (rows.take i)) := by
  induction rows generalizing p i with
  | nil => simp at h
  | cons row rows ih =>
      cases i with
      | zero => rfl
      | succ i => exact ih (p.next row) (by simpa using h)

theorem next_of_plain {row : List Char} (h : Directive.read? row = none) (p : Position) :
    p.next row = ⟨p.file, p.line + 1⟩ := by
  rw [next, h]

theorem next_of_named {row : List Char} {line : Nat} {file : String}
    (h : Directive.read? row = some ⟨line, some file⟩) (p : Position) :
    p.next row = ⟨some file, line⟩ := by
  rw [next, h]
  rfl

theorem next_of_bare {row : List Char} {line : Nat}
    (h : Directive.read? row = some ⟨line, none⟩) (p : Position) :
    p.next row = ⟨p.file, line⟩ := by
  rw [next, h]
  rfl

theorem below_of_plain {rows : List (List Char)} (h : ∀ row ∈ rows, Directive.read? row = none)
    (p : Position) : p.below rows = ⟨p.file, p.line + rows.length⟩ := by
  induction rows generalizing p with
  | nil => rfl
  | cons row rows ih =>
      obtain ⟨hrow, hrows⟩ := List.forall_mem_cons.1 h
      rw [below_cons, next_of_plain hrow, ih hrows, List.length_cons]
      congr 1
      simp only
      omega

def movedRow (n size i : Nat) : Nat := if i < n then i else i + size

theorem getElem?_movedRow {α : Type} (above block rest : List α) (i : Nat) :
    (above ++ block ++ rest)[movedRow above.length block.length i]? = (above ++ rest)[i]? := by
  rw [movedRow]
  split
  · rename_i hi
    rw [List.append_assoc, List.getElem?_append_left hi, List.getElem?_append_left hi]
  · rename_i hi
    rw [List.getElem?_append_right (by simp; omega), List.getElem?_append_right (by omega)]
    congr 1
    simp only [List.length_append]
    omega

/-- No row below a block moves if the block leaves the position that it found. -/
theorem getElem?_along_insert {p : Position} {above block : List (List Char)}
    (h : (p.below above).below block = p.below above) (rest : List (List Char)) (i : Nat) :
    (p.along (above ++ block ++ rest))[movedRow above.length block.length i]? =
      (p.along (above ++ rest))[i]? := by
  have hmoved := getElem?_movedRow (p.along above) ((p.below above).along block)
    ((p.below above).along rest) i
  rw [length_along, length_along] at hmoved
  rw [along_append, along_append, along_append, below_append, h]
  exact hmoved

end Position

end SketchPrep
