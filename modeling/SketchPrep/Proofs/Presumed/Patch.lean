import SketchPrep.Patch
import SketchPrep.Proofs.Presumed.Merge

namespace SketchPrep

open Position Sketch

/-- The source `new` is `old` with `block` put in above row `n`. -/
def PutAbove (n : Nat) (block old new : String) : Prop :=
  ∃ above below : String, old = above ++ below ∧ new = above ++ block ++ below ∧
    Text.rows above.toList = (Text.rows old.toList).take n ++ [[]] ∧
      Text.rows below.toList = (Text.rows old.toList).drop n

def Prototype.OneRow (p : Prototype) : Prop :=
  '\n' ∉ p.declaration.toList ∧ Directive.beginsWithHash p.declaration.toList = false

def blockRows (prototypes : List Prototype) (line : Nat) : List (List Char) :=
  prototypes.map (·.declaration.toList) ++ [("#line " ++ toString line).toList]

variable {prototypes : List Prototype} {line n : Nat} {block old new : String} {rs : List (List Char)}

@[simp]
theorem length_blockRows : (blockRows prototypes line).length = prototypes.length + 1 := by
  simp [blockRows]

theorem toList_declarationBlock (h : prototypes ≠ []) :
    (declarationBlock prototypes line).toList = Text.ended (blockRows prototypes line) := by
  have hended : Text.ended (blockRows prototypes line) =
      Text.ended (prototypes.map (·.declaration.toList)) ++ ("#line " ++ toString line).toList ++
        ['\n'] := by
    simp [blockRows, Text.ended]
  rw [hended, Text.ended_eq_intercalate (by simpa using h), declarationBlock]
  simp [String.toList_append, Function.comp_def]

theorem feed_not_mem_blockRows (h : ∀ p ∈ prototypes, p.OneRow) :
    ∀ row ∈ blockRows prototypes line, '\n' ∉ row := by
  intro row hrow
  rcases List.mem_append.1 hrow with hrow | hrow
  · obtain ⟨p, hp, rfl⟩ := List.mem_map.1 hrow
    exact (h p hp).1
  · rw [List.mem_singleton.1 hrow]
    simp [String.toList_append, feed_not_mem_toDigits]

/-- After the block the next row has the number that the block gives it, in the same file. -/
theorem below_blockRows (h : ∀ p ∈ prototypes, p.OneRow) (p : Position) :
    p.below (blockRows prototypes line) = ⟨p.file, line⟩ := by
  have hplain : ∀ row ∈ prototypes.map (·.declaration.toList), Directive.read? row = none := by
    intro row hrow
    obtain ⟨q, hq, rfl⟩ := List.mem_map.1 hrow
    exact Directive.read?_of_not_beginsWithHash (h q hq).2
  rw [blockRows, below_append, below_of_plain hplain, below_cons, below_nil,
    next_of_bare (Directive.read?_bare line)]

theorem insertBeforeLine_succ (block : List Char) {text : List Char}
    (h : n < (Text.rows text).length) :
    insertBeforeLine block (n + 1) text =
      some (Text.ended ((Text.rows text).take n) ++ block ++
        ['\n'].intercalate ((Text.rows text).drop n)) := by
  have hline : ¬(n + 1 = 0 ∨ (text.splitOn '\n').length < n + 1) := by
    rw [Text.rows] at h
    omega
  rw [insertBeforeLine, if_neg hline]
  rfl

theorem putAbove_patchSource {source : String} {line offset : Nat} (h : prototypes ≠ [])
    (hn : line + offset = n + 1) (hrow : n < (Text.rows source.toList).length) :
    PutAbove n (declarationBlock prototypes line) source
      (patchSource source prototypes (some line) offset) := by
  have hsome : ¬prototypes.isEmpty = true := by simpa using h
  refine ⟨String.ofList (Text.ended ((Text.rows source.toList).take n)),
    String.ofList (['\n'].intercalate ((Text.rows source.toList).drop n)), ?_, ?_, ?_, ?_⟩
  · rw [← String.ofList_append, Text.ended_take_rows_append hrow, String.ofList_toList]
  · simp only [patchSource, if_neg hsome, hn, insertBeforeLine_succ _ hrow, String.ofList_append,
      String.ofList_toList]
  · have hfeed : ∀ row ∈ (Text.rows source.toList).take n, '\n' ∉ row := fun row hr =>
      Text.not_mem_of_mem_rows (List.mem_of_mem_take hr)
    simpa using Text.rows_ended_append hfeed []
  · rw [String.toList_ofList, Text.rows_intercalate_drop hrow]

theorem PutAbove.rows (h : PutAbove n block old new) (hblock : block.toList = Text.ended rs)
    (hrs : ∀ row ∈ rs, '\n' ∉ row) :
    Text.rows new.toList =
      (Text.rows old.toList).take n ++ rs ++ (Text.rows old.toList).drop n := by
  obtain ⟨above, below, _, rfl, habove, hbelow⟩ := h
  rw [String.toList_append, String.toList_append, List.append_assoc,
    Text.rows_append_of_rows habove, hblock, Text.rows_ended_append hrs, hbelow, List.append_assoc]

/-- A block that leaves the position that it finds keeps every row of the source where it was. -/
theorem PutAbove.keeps (h : PutAbove n block old new) (hblock : block.toList = Text.ended rs)
    (hrs : ∀ row ∈ rs, '\n' ∉ row) (hn : n ≤ (Text.rows old.toList).length)
    (hpos : (start.below ((Text.rows old.toList).take n)).below rs =
      start.below ((Text.rows old.toList).take n)) (i : Nat) :
    (Text.rows new.toList)[movedRow n rs.length i]? = (Text.rows old.toList)[i]? ∧
      (ofSource new)[movedRow n rs.length i]? = (ofSource old)[i]? := by
  have hlength : ((Text.rows old.toList).take n).length = n := List.length_take_of_le hn
  have hrow := getElem?_movedRow ((Text.rows old.toList).take n) rs
    ((Text.rows old.toList).drop n) i
  have hposition := getElem?_along_insert hpos ((Text.rows old.toList).drop n) i
  rw [hlength, List.take_append_drop, ← h.rows hblock hrs] at hrow hposition
  exact ⟨hrow, hposition⟩

/-- Patching a merged source moves no row: the block stands above the row with line `line` of the main
file, each row is presumed to be where it was presumed to be before, and a line of a merged file is
presumed to be itself unless a directive of that file says otherwise. -/
theorem patchSource_merge {s : Sketch} {prototypes : List Prototype} {line : Nat}
    (hpaths : OneRowPaths s.mergedFiles) (hsome : prototypes ≠ []) (hdecl : ∀ p ∈ prototypes, p.OneRow)
    (hfirst : 1 ≤ line) (hlast : line ≤ (ownRows s.main).length)
    (hown : ∀ row ∈ (ownRows s.main).take (line - 1), Directive.read? row = none) :
    let source := s.merge.source
    let patched := patchSource source prototypes (some line) s.merge.lineOffset
    let n := s.firstRow [] + (line - 1)
    let moved := movedRow n (prototypes.length + 1)
    (Text.rows source.toList)[n]? = (ownRows s.main)[line - 1]? ∧
      PutAbove n (declarationBlock prototypes line) source patched ∧
      (∀ i : Nat, (Text.rows patched.toList)[moved i]? = (Text.rows source.toList)[i]? ∧
        (ofSource patched)[moved i]? = (ofSource source)[i]?) ∧
      ∀ earlier f later k, s.mergedFiles = earlier ++ f :: later → k < (ownRows f).length →
        (∀ row ∈ (ownRows f).take k, Directive.read? row = none) →
          let i := s.firstRow earlier + k
          (Text.rows source.toList)[i]? = (ownRows f)[k]? ∧
            (ofSource source)[i]? = some ⟨some f.path.text, k + 1⟩ ∧
            (ofSource patched)[moved i]? = some ⟨some f.path.text, k + 1⟩ := by
  intro source patched n moved
  have hmain : s.mergedFiles = [] ++ s.main :: s.others := rfl
  have hk : line - 1 < (ownRows s.main).length := by omega
  have hn : n < (Text.rows source.toList).length := lt_length_rows_merge hpaths hmain hk
  have htarget : line + s.merge.lineOffset = n + 1 := by
    have hoffset := lineOffset_merge s
    have hrow : n = s.coreRows.length + 0 + 1 + (line - 1) := rfl
    omega
  have hput : PutAbove n (declarationBlock prototypes line) source patched :=
    putAbove_patchSource hsome htarget hn
  -- the block restores the number of the very row that it stands above
  have hpos : (start.below ((Text.rows source.toList).take n)).below (blockRows prototypes line) =
      start.below ((Text.rows source.toList).take n) := by
    rw [below_blockRows hdecl, below_take_rows_merge hpaths hmain (Nat.le_of_lt hk) hown,
      Nat.sub_add_cancel hfirst]
  have hkeeps := hput.keeps (toList_declarationBlock hsome) (feed_not_mem_blockRows hdecl)
    (Nat.le_of_lt hn) hpos
  rw [length_blockRows] at hkeeps
  refine ⟨getElem?_rows_merge hpaths hmain hk, hput, hkeeps, ?_⟩
  intro earlier f later k hf hkf hplain i
  have hi : (ofSource source)[i]? = some ⟨some f.path.text, k + 1⟩ :=
    ofSource_merge hpaths hf hkf hplain
  exact ⟨getElem?_rows_merge hpaths hf hkf, hi, (hkeeps i).2.trans hi⟩

def blink : Sketch where
  folder := ⟨"/Blink"⟩
  main := ⟨⟨"/Blink/Blink.ino"⟩, "int led = 13;\nvoid setup() \x7b blink(); \x7d\n"⟩
  others := [⟨⟨"/Blink/tab.ino"⟩, "void blink() \x7b\x7d\nvoid loop() \x7b\x7d"⟩]
  additional := []

def blinkPrototypes : List Prototype := [⟨"blink", "/Blink/tab.ino", "void blink();", .none, 1⟩]

theorem patchSource_merge_blink :
    OneRowPaths blink.mergedFiles ∧ blinkPrototypes ≠ [] ∧ (∀ p ∈ blinkPrototypes, p.OneRow) ∧
      2 ≤ (ownRows blink.main).length ∧
      (∀ row ∈ (ownRows blink.main).take 1, Directive.read? row = none) ∧
      (ofSource (patchSource blink.merge.source blinkPrototypes (some 2) blink.merge.lineOffset))[9]? =
        some ⟨some "/Blink/tab.ino", 2⟩ := by
  have hpaths : OneRowPaths blink.mergedFiles := by
    intro f hf
    revert f
    decide +kernel
  have hdecl : ∀ p ∈ blinkPrototypes, p.OneRow := by
    rintro p (_ | ⟨_, ⟨⟩⟩)
    exact ⟨by decide, by decide⟩
  have hlast : 2 ≤ (ownRows blink.main).length := by decide +kernel
  have hown : ∀ row ∈ (ownRows blink.main).take 1, Directive.read? row = none := by decide +kernel
  have hmoved : movedRow (blink.firstRow [] + (2 - 1)) 2 (blink.firstRow [blink.main] + 1) = 9 := by
    decide +kernel
  have h := patchSource_merge hpaths (by simp [blinkPrototypes]) hdecl (Nat.le_succ 1) hlast hown
  have htab := h.2.2.2 [blink.main] _ [] 1 rfl (by decide +kernel) (by decide +kernel)
  refine ⟨hpaths, by simp [blinkPrototypes], hdecl, hlast, hown, ?_⟩
  rw [← hmoved]
  exact htab.2.2

end SketchPrep
