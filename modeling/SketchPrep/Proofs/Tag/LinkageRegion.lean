import Mathlib.Order.Nat
import SketchPrep.Proofs.Text.Occurrence
import SketchPrep.Proofs.Text.Rows
import SketchPrep.Tag.CLinkage

namespace SketchPrep.CLinkage

def row (lines : List (List Char)) (n : Nat) : List Char := Text.stripBlanks (([] :: lines).getD n [])

def depth (lines : List (List Char)) (n : Nat) : Int := balance (lines.take n).flatten

structure Closes (d : Int) (lines : List (List Char)) (k : Nat) : Prop where
  written : row lines k ≠ []
  level : d + depth lines k = 0
  whole : row lines k ≠ mark

structure Reaches (d : Int) (lines : List (List Char)) (j i : Nat) : Prop where
  le : j ≤ i
  opens : mark <:+: row lines j
  lasts : ∀ k, j ≤ k → k < i → ¬ Closes d lines k

structure IsDeclaration (text : String) : Prop where
  complete : ∀ c ∈ text.toList.getLast?, c = '\n'
  single : (Text.lines text.toList).length = 1
  opens : mark <:+: row (Text.lines text.toList) 1
  closes : Closes 0 (Text.lines text.toList) 1

def pass (r : Reader) (raw : List Char) : Reader :=
  if (Text.stripBlanks raw).isEmpty then r else next r (Text.stripBlanks raw)

variable {d : Int} {r : Reader} {lines above below : List (List Char)} {raw : List Char} {n p i j k : Nat}

theorem balance_append (a b : List Char) : balance (a ++ b) = balance a + balance b := by
  simp only [balance, List.count_append]
  omega

theorem balance_stripBlanks (s : List Char) : balance (Text.stripBlanks s) = balance s := by
  rw [balance, Text.stripBlanks, List.count_filter (by decide), List.count_filter (by decide), balance]

theorem balance_of_blank (h : Text.stripBlanks raw = []) : balance raw = 0 := by
  rw [← balance_stripBlanks, h]
  rfl

@[simp]
theorem row_zero (lines : List (List Char)) : row lines 0 = [] := rfl

@[simp]
theorem row_one (raw : List Char) (lines : List (List Char)) : row (raw :: lines) 1 = Text.stripBlanks raw := rfl

theorem row_succ (lines : List (List Char)) (n : Nat) : row lines (n + 1) = Text.stripBlanks (lines.getD n []) := rfl

theorem not_opens_of_blank (h : row lines n = []) : ¬ mark <:+: row lines n := by
  rw [h, List.infix_nil]
  nofun

theorem depth_succ (lines : List (List Char)) (n : Nat) :
    depth lines (n + 1) = depth lines n + balance (lines.getD n []) := by
  rw [depth, List.take_add_one, List.flatten_append, balance_append, ← depth, List.getD_eq_getElem?_getD]
  cases lines[n]? <;> simp

theorem foldl_pass_succ (r : Reader) (lines : List (List Char)) (n : Nat) :
    (lines.take (n + 1)).foldl pass r = pass ((lines.take n).foldl pass r) (lines.getD n []) := by
  rw [List.take_add_one, List.foldl_append, List.getD_eq_getElem?_getD]
  cases lines[n]? <;> rfl

theorem depth_pass (r : Reader) (raw : List Char) : (pass r raw).depth = r.depth + balance raw := by
  unfold pass
  split
  · rename_i hblank
    rw [balance_of_blank (List.isEmpty_iff.1 hblank), Int.add_zero]
  · rw [next, balance_stripBlanks]

theorem depth_foldl_pass (r : Reader) (lines : List (List Char)) (n : Nat) :
    ((lines.take n).foldl pass r).depth = r.depth + depth lines n := by
  induction n with
  | zero => simp [depth, balance]
  | succ n ih => rw [foldl_pass_succ, depth_pass, ih, depth_succ, Int.add_assoc]

/-- A region reaches the next line if that opens one, or if it reaches this line and is not closed there. -/
theorem exists_reaches_succ : (∃ j, Reaches d lines j (n + 1)) ↔
    mark <:+: row lines (n + 1) ∨ (∃ j, Reaches d lines j n) ∧ ¬ Closes d lines n := by
  constructor
  · rintro ⟨j, hj⟩
    by_cases he : j = n + 1
    · exact .inl (he ▸ hj.opens)
    · have hle : j ≤ n := by have := hj.le; omega
      exact .inr ⟨⟨j, hle, hj.opens, fun k hk hkn => hj.lasts k hk (by omega)⟩, hj.lasts n hle (by omega)⟩
  · rintro (hopens | ⟨⟨j, hj⟩, hlasts⟩)
    · exact ⟨n + 1, Nat.le_refl _, hopens, fun k hk hkn => by omega⟩
    · refine ⟨j, Nat.le_succ_of_le hj.le, hj.opens, fun k hk hkn => ?_⟩
      by_cases he : k = n
      · exact he ▸ hlasts
      · exact hj.lasts k hk (by omega)

theorem inRegion_pass (r : Reader) (raw : List Char) :
    (pass r raw).inRegion = true ↔ (r.inRegion = true ∨ mark <:+: Text.stripBlanks raw) ∧
      ¬ (Text.stripBlanks raw ≠ [] ∧ r.depth + balance raw = 0 ∧ Text.stripBlanks raw ≠ mark) := by
  unfold pass
  split
  · rename_i hblank
    have hnone : ¬ mark <:+: [] := not_opens_of_blank (row_zero [])
    rw [List.isEmpty_iff.1 hblank]
    simp [hnone]
  · rename_i hwritten
    rw [List.isEmpty_iff] at hwritten
    rw [next, enters, balance_stripBlanks, Bool.and_eq_true, Bool.or_eq_true, Text.occurs_iff,
      Bool.not_eq_true', Bool.and_eq_false_iff, beq_eq_false_iff_ne, bne_eq_false_iff_eq]
    simp [hwritten, imp_iff_not_or]

/-- The reader is in a region after line `n` if one reaches that line and is not closed there. -/
theorem inRegion_foldl_pass (d : Int) (lines : List (List Char)) (n : Nat) :
    ((lines.take n).foldl pass ⟨false, d⟩).inRegion = true ↔
      (∃ j, Reaches d lines j n) ∧ ¬ Closes d lines n := by
  induction n with
  | zero =>
      refine iff_of_false nofun ?_
      rintro ⟨⟨j, hj⟩, -⟩
      obtain rfl : j = 0 := Nat.le_zero.1 hj.le
      exact not_opens_of_blank (row_zero lines) hj.opens
  | succ n ih =>
      have hcloses : (row lines (n + 1) ≠ [] ∧ d + depth lines n + balance (lines.getD n []) = 0 ∧
          row lines (n + 1) ≠ mark) ↔ Closes d lines (n + 1) := by
        rw [Int.add_assoc, ← depth_succ]
        exact ⟨fun h => ⟨h.1, h.2.1, h.2.2⟩, fun h => ⟨h.written, h.level, h.whole⟩⟩
      rw [foldl_pass_succ, inRegion_pass, ih, exists_reaches_succ, depth_foldl_pass, ← row_succ, hcloses,
        or_comm]

theorem mem_regionLines (r : Reader) (n : Nat) (lines : List (List Char)) :
    i ∈ regionLines r n lines ↔ ∃ p, i = n + p ∧ row lines (p + 1) ≠ [] ∧
      enters ((lines.take p).foldl pass r) (row lines (p + 1)) = true := by
  induction lines generalizing r n with
  | nil => simp [regionLines, row, Text.stripBlanks]
  | cons raw rest ih =>
      have hsplit : (∃ p, i = n + p ∧ row (raw :: rest) (p + 1) ≠ [] ∧
          enters (((raw :: rest).take p).foldl pass r) (row (raw :: rest) (p + 1)) = true) ↔
          (i = n ∧ Text.stripBlanks raw ≠ [] ∧ enters r (Text.stripBlanks raw) = true) ∨
            i ∈ regionLines (pass r raw) (n + 1) rest := by
        rw [ih]
        constructor
        · rintro ⟨_ | p, hi, hwritten, henters⟩
          · exact .inl ⟨hi, hwritten, henters⟩
          · exact .inr ⟨p, by omega, hwritten, henters⟩
        · rintro (⟨hi, hwritten, henters⟩ | ⟨p, hi, hwritten, henters⟩)
          · exact ⟨0, hi, hwritten, henters⟩
          · exact ⟨p + 1, by omega, hwritten, henters⟩
      rw [hsplit, regionLines, pass]
      split
      · rename_i hblank
        rw [List.isEmpty_iff.1 hblank]
        simp
      · rename_i hwritten
        rw [List.isEmpty_iff] at hwritten
        by_cases henters : enters r (Text.stripBlanks raw) = true <;> simp [hwritten, henters]

/-- The lines that lie in a region, if `d` braces are open above the text and no region is. -/
theorem mem_regionLines_iff : i ∈ regionLines ⟨false, d⟩ (n + 1) lines ↔
    ∃ p, i = n + p ∧ row lines p ≠ [] ∧ ∃ j, Reaches d lines j p := by
  have henters (p : Nat) : enters ((lines.take p).foldl pass ⟨false, d⟩) (row lines (p + 1)) = true ↔
      ∃ j, Reaches d lines j (p + 1) := by
    rw [enters, Bool.or_eq_true, inRegion_foldl_pass, Text.occurs_iff, exists_reaches_succ, or_comm]
  rw [mem_regionLines]
  constructor
  · rintro ⟨p, hi, hwritten, hp⟩
    exact ⟨p + 1, by omega, hwritten, (henters p).1 hp⟩
  · rintro ⟨_ | p, hi, hwritten, hp⟩
    · exact absurd (row_zero lines) hwritten
    · exact ⟨p, by omega, hwritten, (henters p).2 hp⟩

theorem regionLines_add (r : Reader) (n k : Nat) (lines : List (List Char)) :
    regionLines r (n + k) lines = (regionLines r k lines).map (n + ·) := by
  induction lines generalizing r k with
  | nil => rfl
  | cons raw rest ih =>
      have hrest (r : Reader) : regionLines r (n + k + 1) rest = (regionLines r (k + 1) rest).map (n + ·) :=
        ih r (k + 1)
      rw [regionLines, regionLines, hrest, hrest]
      split
      · rfl
      · rw [List.map_append]
        split <;> rfl

/-- Lines that do not name the linkage change nothing but the depth of the braces for the lines below. -/
theorem regionLines_append (h : ∀ line ∈ above, ¬ mark <:+: Text.stripBlanks line) :
    regionLines ⟨false, d⟩ n (above ++ below) =
      regionLines ⟨false, d + balance above.flatten⟩ (n + above.length) below := by
  induction above generalizing d n with
  | nil => simp [balance]
  | cons raw rest ih =>
      obtain ⟨hraw, hrest⟩ := List.forall_mem_cons.1 h
      have henters : enters ⟨false, d⟩ (Text.stripBlanks raw) = false := by
        rw [enters, Bool.false_or, ← Bool.not_eq_true, Text.occurs_iff]
        exact hraw
      have hnext : next ⟨false, d⟩ (Text.stripBlanks raw) = ⟨false, d + balance raw⟩ := by
        rw [next, henters, balance_stripBlanks]
        rfl
      rw [List.cons_append, regionLines, List.flatten_cons, balance_append, ← Int.add_assoc, List.length_cons,
        Nat.add_comm rest.length 1, ← Nat.add_assoc, henters, hnext]
      split
      · rename_i hblank
        rw [ih hrest, balance_of_blank (List.isEmpty_iff.1 hblank), Int.add_zero]
      · rw [ih hrest]
        rfl

theorem linesOf_append {above below : String} (hend : ∀ c ∈ above.toList.getLast?, c = '\n')
    (hnone : ∀ line ∈ Text.lines above.toList, ¬ mark <:+: Text.stripBlanks line) :
    linesOf (above ++ below) = (regionLines ⟨false, balance (Text.lines above.toList).flatten⟩ 1
      (Text.lines below.toList)).map ((Text.lines above.toList).length + ·) := by
  rw [linesOf, String.toList_append, Text.lines_append hend, start, regionLines_append hnone, Int.zero_add,
    Nat.add_comm 1, regionLines_add]

theorem IsDeclaration.linesOf_append {line below : String} (h : IsDeclaration line) :
    linesOf (line ++ below) = 1 :: (linesOf below).map (1 + ·) := by
  obtain ⟨raw, hraw⟩ := List.length_eq_one_iff.1 h.single
  obtain ⟨hwritten, hlevel, hwhole⟩ := h.closes
  have hopens := h.opens
  rw [hraw, row_one] at hwritten hwhole hopens
  have hbalance : balance raw = 0 := by
    rw [hraw] at hlevel
    simpa [depth] using hlevel
  have henters : enters start (Text.stripBlanks raw) = true := by
    rw [enters, Text.occurs_iff.2 hopens, Bool.or_true]
  have hnext : next start (Text.stripBlanks raw) = start := by
    rw [next, henters, balance_stripBlanks, hbalance]
    simp [start, hwhole]
  rw [linesOf, String.toList_append, Text.lines_append h.complete, hraw, List.singleton_append, regionLines,
    henters, hnext, if_neg (by simpa using hwritten), regionLines_add, linesOf]
  rfl

def beepAndTick : String := "extern \"C\" void beep();\nvoid tick();\n"

theorem reaches_beepAndTick (h : d ≠ 0) : Reaches d (Text.lines beepAndTick.toList) 1 2 where
  le := by decide
  opens := Text.occurs_iff.1 (by decide +kernel)
  lasts k hk hk2 := by
    obtain rfl : k = 1 := by omega
    rintro ⟨-, hlevel, -⟩
    have hdepth : depth (Text.lines beepAndTick.toList) 1 = 0 := by decide +kernel
    rw [hdepth, Int.add_zero] at hlevel
    exact h hlevel

/-- Of lines that do not name the linkage those below only know how many braces they leave open: what lies in
a region there is what would do so with as many braces open above the first line. So the lines above do not
matter, whatever stands below them, exactly if they leave the braces balanced; and then a declaration in one
line with the linkage lies in a region by itself. -/
theorem linesOf_below {above : String} (hend : ∀ c ∈ above.toList.getLast?, c = '\n')
    (hnone : ∀ line ∈ Text.lines above.toList, ¬ mark <:+: Text.stripBlanks line) :
    let n := (Text.lines above.toList).length
    let d := balance (Text.lines above.toList).flatten
    (∀ below i, i ∈ linesOf (above ++ below) ↔ ∃ k, i = n + k ∧ row (Text.lines below.toList) k ≠ [] ∧
      ∃ j, Reaches d (Text.lines below.toList) j k) ∧
    ((∀ below, linesOf (above ++ below) = (linesOf below).map (n + ·)) ↔ d = 0) ∧
    (d = 0 → ∀ line below, IsDeclaration line →
      linesOf (above ++ (line ++ below)) = (n + 1) :: (linesOf below).map (n + 1 + ·)) := by
  intro n d
  have hmem (below : String) (i : Nat) : i ∈ linesOf (above ++ below) ↔
      ∃ k, i = n + k ∧ row (Text.lines below.toList) k ≠ [] ∧ ∃ j, Reaches d (Text.lines below.toList) j k := by
    rw [linesOf_append hend hnone, ← regionLines_add]
    exact mem_regionLines_iff
  have hsame (h : d = 0) (below : String) : linesOf (above ++ below) = (linesOf below).map (n + ·) := by
    rw [linesOf_append hend hnone, show balance (Text.lines above.toList).flatten = 0 from h]
    rfl
  refine ⟨hmem, ⟨fun hall => ?_, hsame⟩, fun h line below hline => ?_⟩
  · by_contra hd
    have hlies : n + 2 ∈ linesOf (above ++ beepAndTick) :=
      (hmem beepAndTick _).2 ⟨2, rfl, by decide +kernel, 1, reaches_beepAndTick hd⟩
    have halone : linesOf beepAndTick = [1] := by decide +kernel
    rw [hall, halone] at hlies
    simp at hlies
  · rw [hsame h, hline.linesOf_append, List.map_cons, List.map_map]
    refine congrArg _ (List.map_congr_left fun k _ => ?_)
    exact (Nat.add_assoc n 1 k).symm

def boot : String := "void boot() \x7b\n\x7d\n"

theorem linesOf_below_boot :
    (∀ c ∈ boot.toList.getLast?, c = '\n') ∧
      (∀ line ∈ Text.lines boot.toList, ¬ mark <:+: Text.stripBlanks line) ∧
      linesOf (boot ++ beepAndTick) = (linesOf beepAndTick).map (2 + ·) := by
  have hend : ∀ c ∈ boot.toList.getLast?, c = '\n' := by
    have hlast : boot.toList.getLast? = some '\n' := by decide +kernel
    simp [hlast]
  have hnone : ∀ line ∈ Text.lines boot.toList, ¬ mark <:+: Text.stripBlanks line := by
    have hoccurs : ∀ line ∈ Text.lines boot.toList, Text.occurs mark (Text.stripBlanks line) = false := by
      decide +kernel
    intro line hline hmark
    rw [← Text.occurs_iff, hoccurs line hline] at hmark
    cases hmark
  have hbalance : balance (Text.lines boot.toList).flatten = 0 := by decide +kernel
  exact ⟨hend, hnone, (linesOf_below hend hnone).2.1.2 hbalance beepAndTick⟩

def openNamespace : String := "namespace demo \x7b\n"

/-- Below a brace that is still open the region goes on to the next function. -/
theorem linesOf_in_namespace :
    openNamespace.toList.getLast? = some '\n' ∧
      (∀ line ∈ Text.lines openNamespace.toList, ¬ mark <:+: Text.stripBlanks line) ∧
      linesOf beepAndTick = [1] ∧ linesOf (openNamespace ++ beepAndTick) = [2, 3] := by
  decide +kernel

end SketchPrep.CLinkage
