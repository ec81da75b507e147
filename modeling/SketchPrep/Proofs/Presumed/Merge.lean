import SketchPrep.Proofs.Presumed.Position
import SketchPrep.Sketch.Basic

namespace SketchPrep.Sketch

open Position

variable {s : Sketch} {f : SketchFile} {earlier later : List SketchFile}

def OneRowPaths (files : List SketchFile) : Prop := ∀ f ∈ files, '\n' ∉ f.path.text.toList

def coreRows (s : Sketch) : List (List Char) :=
  if includesCore s.main.source then [] else ["#include <Arduino.h>".toList]

def heading (f : SketchFile) : List Char := (LineMarker.directive 1 f.path).toList

def ownRows (f : SketchFile) : List (List Char) := Text.rows f.source.toList

def markedRows (f : SketchFile) : List (List Char) := heading f :: ownRows f

def rowsAbove (s : Sketch) (earlier : List SketchFile) (f : SketchFile) : List (List Char) :=
  s.coreRows ++ earlier.flatMap markedRows ++ [heading f]

def firstRow (s : Sketch) (earlier : List SketchFile) : Nat :=
  s.coreRows.length + (earlier.flatMap markedRows).length + 1

theorem length_rowsAbove (s : Sketch) (earlier : List SketchFile) (f : SketchFile) :
    (s.rowsAbove earlier f).length = s.firstRow earlier := by
  rw [rowsAbove, List.length_append, List.length_append]
  rfl

theorem not_mem_escape {c : Char} {t : List Char} (hc : c ≠ '\\') (h : c ∉ t) :
    c ∉ Text.escape t := by
  intro hm
  obtain ⟨d, hd, hcd⟩ := List.mem_flatMap.1 hm
  split at hcd
  · rcases List.mem_cons.1 hcd with rfl | hcd
    · exact hc rfl
    · exact h (List.mem_singleton.1 hcd ▸ hd)
  · exact h (List.mem_singleton.1 hcd ▸ hd)

theorem feed_not_mem_toDigits (n : Nat) : '\n' ∉ Nat.toDigits 10 n := fun h =>
  absurd (Nat.isDigit_of_mem_toDigits (by decide) (by decide) h) (by decide)

theorem feed_not_mem_heading (h : '\n' ∉ f.path.text.toList) : '\n' ∉ heading f := by
  have hpath := not_mem_escape (c := '\n') (by decide) h
  have hdigits := feed_not_mem_toDigits 1
  simp [heading, LineMarker.directive, String.toList_append, hpath, hdigits]

theorem rows_marked_append (h : '\n' ∉ f.path.text.toList) (t : List Char) :
    Text.rows ((SketchFile.marked f).toList ++ t) = markedRows f ++ Text.rows t := by
  have hsplit : (SketchFile.marked f).toList ++ t =
      heading f ++ '\n' :: (f.source.toList ++ '\n' :: t) := by
    simp [SketchFile.marked, heading, String.toList_append]
  rw [hsplit, Text.rows_append_feed, Text.rows_append_feed,
    Text.rows_eq_singleton (feed_not_mem_heading h)]
  rfl

theorem rows_join_marked {files : List SketchFile} (h : OneRowPaths files) :
    Text.rows (String.join (files.map SketchFile.marked)).toList =
      files.flatMap markedRows ++ [[]] := by
  induction files with
  | nil => rfl
  | cons f files ih =>
      obtain ⟨hf, hfiles⟩ := List.forall_mem_cons.1 h
      rw [List.map_cons, String.join_cons, String.toList_append, rows_marked_append hf, ih hfiles,
        List.flatMap_cons, List.append_assoc]

theorem rows_merge (h : OneRowPaths s.mergedFiles) :
    Text.rows s.merge.source.toList =
      s.coreRows ++ s.mergedFiles.flatMap markedRows ++ [[]] := by
  have hjoin := rows_join_marked h
  rw [merge, coreRows]
  split
  · simpa using hjoin
  · have hcore : coreInclude.toList = "#include <Arduino.h>".toList ++ ['\n'] := by decide
    rw [String.toList_append, hcore, List.append_assoc, List.singleton_append,
      Text.rows_append_feed, Text.rows_eq_singleton (by decide), hjoin, List.append_assoc]

theorem lineOffset_merge (s : Sketch) : s.merge.lineOffset = s.coreRows.length + 1 := by
  rw [merge, coreRows]
  split <;> rfl

theorem rows_merge_of_append (h : OneRowPaths s.mergedFiles)
    (hs : s.mergedFiles = earlier ++ f :: later) :
    Text.rows s.merge.source.toList =
      s.rowsAbove earlier f ++ (ownRows f ++ (later.flatMap markedRows ++ [[]])) := by
  rw [rows_merge h, hs, rowsAbove]
  simp [markedRows]

theorem getElem?_rows_merge (h : OneRowPaths s.mergedFiles)
    (hs : s.mergedFiles = earlier ++ f :: later) {k : Nat} (hk : k < (ownRows f).length) :
    (Text.rows s.merge.source.toList)[s.firstRow earlier + k]? = (ownRows f)[k]? := by
  rw [rows_merge_of_append h hs, ← length_rowsAbove s earlier f,
    List.getElem?_append_right (Nat.le_add_right ..), Nat.add_sub_cancel_left,
    List.getElem?_append_left hk]

theorem take_rows_merge (h : OneRowPaths s.mergedFiles)
    (hs : s.mergedFiles = earlier ++ f :: later) {k : Nat} (hk : k ≤ (ownRows f).length) :
    (Text.rows s.merge.source.toList).take (s.firstRow earlier + k) =
      s.rowsAbove earlier f ++ (ownRows f).take k := by
  rw [rows_merge_of_append h hs, ← length_rowsAbove s earlier f, List.take_length_add_append,
    List.take_append_of_le_length hk]

/-- The directive of a file makes up for all that is above it. -/
theorem below_rowsAbove (p : Position) (s : Sketch) (earlier : List SketchFile) (f : SketchFile) :
    p.below (s.rowsAbove earlier f) = ⟨some f.path.text, 1⟩ := by
  rw [rowsAbove, below_append, below_cons, below_nil, heading,
    next_of_named (Directive.read?_directive 1 f.path)]

theorem below_take_rows_merge (h : OneRowPaths s.mergedFiles)
    (hs : s.mergedFiles = earlier ++ f :: later) {k : Nat} (hk : k ≤ (ownRows f).length)
    (hown : ∀ row ∈ (ownRows f).take k, Directive.read? row = none) :
    start.below ((Text.rows s.merge.source.toList).take (s.firstRow earlier + k)) =
      ⟨some f.path.text, k + 1⟩ := by
  rw [take_rows_merge h hs hk, below_append, below_rowsAbove, below_of_plain hown,
    List.length_take, Nat.min_eq_left hk, Nat.add_comm]

theorem lt_length_rows_merge (h : OneRowPaths s.mergedFiles)
    (hs : s.mergedFiles = earlier ++ f :: later) {k : Nat} (hk : k < (ownRows f).length) :
    s.firstRow earlier + k < (Text.rows s.merge.source.toList).length := by
  rw [rows_merge_of_append h hs, List.length_append, List.length_append, length_rowsAbove]
  omega

theorem ofSource_merge (h : OneRowPaths s.mergedFiles)
    (hs : s.mergedFiles = earlier ++ f :: later) {k : Nat} (hk : k < (ownRows f).length)
    (hown : ∀ row ∈ (ownRows f).take k, Directive.read? row = none) :
    (ofSource s.merge.source)[s.firstRow earlier + k]? = some ⟨some f.path.text, k + 1⟩ := by
  rw [ofSource, getElem?_along _ (lt_length_rows_merge h hs hk),
    below_take_rows_merge h hs (Nat.le_of_lt hk) hown]

end SketchPrep.Sketch
