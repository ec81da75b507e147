namespace SketchPrep.Text

/-- The characters with the Unicode property White_Space. -/
def isBlank (c : Char) : Bool :=
  let n := c.toNat
  (9 ≤ n && n ≤ 13) || n == 0x20 || n == 0x85 || n == 0xA0 || n == 0x1680 ||
    (0x2000 ≤ n && n ≤ 0x200A) || n == 0x2028 || n == 0x2029 || n == 0x202F || n == 0x205F ||
    n == 0x3000

def trimStart (s : List Char) : List Char := s.dropWhile isBlank

def trimEnd (s : List Char) : List Char := (s.reverse.dropWhile isBlank).reverse

def trim (s : List Char) : List Char := trimEnd (trimStart s)

/-- Spaces and tabs are the only blanks that may be added or left out inside a declaration. -/
def stripBlanks (s : List Char) : List Char := s.filter fun c => c != ' ' && c != '\t'

theorem mem_trimStart {c : Char} {s : List Char} (hc : c ∈ s) (hb : isBlank c = false) :
    c ∈ trimStart s := by
  rw [← List.takeWhile_append_dropWhile (p := isBlank) (l := s), List.mem_append] at hc
  rcases hc with hc | hc
  · exact absurd (List.all_eq_true.1 List.all_takeWhile c hc) (by simp [hb])
  · exact hc

theorem mem_trim {c : Char} {s : List Char} (hc : c ∈ s) (hb : isBlank c = false) : c ∈ trim s := by
  have hend := mem_trimStart (List.mem_reverse.2 (mem_trimStart hc hb)) hb
  exact List.mem_reverse.2 hend

end SketchPrep.Text
