import SketchPrep.LineMarker
import SketchPrep.Text.Number

namespace SketchPrep

/-- The row below a directive is line `line` of `file`, or of the same file as before. -/
structure Directive where
  line : Nat
  file : Option String
deriving DecidableEq, Inhabited

namespace Directive

def isBlank (c : Char) : Bool :=
  c == ' ' || c == '\t' || c == '\r' || c == '\x0b' || c == '\x0c'

def skipBlanks (s : List Char) : List Char := s.dropWhile isBlank

def skipWord (s : List Char) : List Char :=
  match "line".toList.isPrefixOf? s with
  | some (c :: rest) => if isBlank c then skipBlanks rest else s
  | _ => s

def number? (s : List Char) : Option (Nat × List Char) :=
  let digits := s.takeWhile Char.isDigit
  if digits.isEmpty then none else some (Text.digitsValue digits, s.dropWhile Char.isDigit)

/-- A letter, a digit or an underscore after the closing quote makes the name another token. -/
def endsToken : List Char → Bool
  | [] => true
  | c :: _ => !(c.isAlphanum || c == '_')

def name? (s : List Char) : Option (Option String) :=
  match skipBlanks s with
  | [] => some none
  | '\x22' :: rest =>
    (LineMarker.quoted? rest).bind fun (inside, after) =>
      if endsToken after then some (some (String.ofList (Text.unescape inside))) else none
  | _ => none

def read? (row : List Char) : Option Directive :=
  match skipBlanks row with
  | '#' :: rest =>
    (number? (skipWord (skipBlanks rest))).bind fun (line, rest) =>
      (name? rest).map fun file => ⟨line, file⟩
  | _ => none

def beginsWithHash (row : List Char) : Bool := (skipBlanks row).head? == some '#'

theorem read?_of_not_beginsWithHash {row : List Char} (h : beginsWithHash row = false) :
    read? row = none := by
  rw [read?]
  split
  · rename_i rest hrow
    simp [beginsWithHash, hrow] at h
  · rfl

theorem skipBlanks_of_isDigit {s : List Char} (h : ∃ c, s.head? = some c ∧ c.isDigit = true) :
    skipBlanks s = s := by
  obtain ⟨c, hc, hd⟩ := h
  cases s with
  | nil => rfl
  | cons d s =>
      obtain rfl : d = c := by simpa using hc
      have hb : isBlank d = false := by
        cases hb : isBlank d with
        | false => rfl
        | true =>
            simp only [isBlank, Bool.or_eq_true, beq_iff_eq] at hb
            rcases hb with (((rfl | rfl) | rfl) | rfl) | rfl <;> exact absurd hd (by decide)
      rw [skipBlanks, List.dropWhile_cons_of_neg (by simp [hb])]

theorem digitsValue_toDigits (n : Nat) : Text.digitsValue (Nat.toDigits 10 n) = n := by
  have h := Nat.ofDigitChars_ten_toDigits (n := n)
  rw [Nat.ofDigitChars_eq_foldl] at h
  simpa only [Text.digitsValue, Nat.mul_comm] using h

theorem number?_toDigits (n : Nat) {tail : List Char} (h : ∀ c ∈ tail.head?, c.isDigit = false) :
    number? (Nat.toDigits 10 n ++ tail) = some (n, tail) := by
  have hdigits : ∀ c ∈ Nat.toDigits 10 n, c.isDigit = true := fun c hc =>
    Nat.isDigit_of_mem_toDigits (by decide) (by decide) hc
  have htail : tail.takeWhile Char.isDigit = [] ∧ tail.dropWhile Char.isDigit = tail := by
    cases tail with
    | nil => exact ⟨rfl, rfl⟩
    | cons c tail => simp [h c rfl]
  rw [number?, List.takeWhile_append_of_pos hdigits, List.dropWhile_append_of_pos hdigits, htail.1,
    htail.2, List.append_nil, digitsValue_toDigits, if_neg (by simp [Nat.toDigits_ne_nil])]

/-- A written number is read back, whatever the name after it is. -/
theorem read?_line (n : Nat) (tail : List Char) (h : ∀ c ∈ tail.head?, c.isDigit = false) :
    read? ("#line ".toList ++ Nat.toDigits 10 n ++ tail) =
      (name? tail).map fun file => ⟨n, file⟩ := by
  have hblank : skipBlanks (Nat.toDigits 10 n ++ tail) = Nat.toDigits 10 n ++ tail := by
    apply skipBlanks_of_isDigit
    cases hd : Nat.toDigits 10 n with
    | nil => exact absurd hd Nat.toDigits_ne_nil
    | cons c cs =>
        exact ⟨c, rfl, Nat.isDigit_of_mem_toDigits (b := 10) (n := n) (by decide) (by decide)
          (hd ▸ List.mem_cons_self)⟩
  have hword : skipWord (skipBlanks ("line ".toList ++ (Nat.toDigits 10 n ++ tail))) =
      Nat.toDigits 10 n ++ tail := hblank
  have hrow : read? ("#line ".toList ++ Nat.toDigits 10 n ++ tail) =
      (number? (skipWord (skipBlanks ("line ".toList ++ (Nat.toDigits 10 n ++ tail))))).bind
        fun (line, rest) => (name? rest).map fun file => ⟨line, file⟩ := by
    rw [List.append_assoc]
    rfl
  rw [hrow, hword, number?_toDigits n h]
  rfl

theorem read?_bare (n : Nat) : read? ("#line " ++ toString n).toList = some ⟨n, none⟩ := by
  have h := read?_line n [] (by simp)
  have hname : name? [] = some none := rfl
  simpa [hname] using h

theorem quoted?_escape (s rest : List Char) :
    LineMarker.quoted? (Text.escape s ++ '\x22' :: rest) = some (Text.escape s, rest) := by
  induction s with
  | nil => rfl
  | cons c s ih =>
      rw [Text.escape_cons, List.append_assoc]
      by_cases hb : c = '\\'
      · subst hb; simp [LineMarker.quoted?, ih]
      · by_cases hq : c = '\x22'
        · subst hq; simp [LineMarker.quoted?, ih]
        · simp [hb, hq, LineMarker.quoted?, ih]

theorem name?_quoted (name : String) :
    name? (' ' :: '\x22' :: Text.escape name.toList ++ ['\x22']) = some (some name) := by
  have hblank : skipBlanks (' ' :: '\x22' :: Text.escape name.toList ++ ['\x22']) =
      '\x22' :: (Text.escape name.toList ++ ['\x22']) := rfl
  rw [name?, hblank]
  simp [quoted?_escape, endsToken, Text.unescape_escape]

/-- The directive in front of a file names its next row, whatever characters its path has. -/
theorem read?_directive (n : Nat) (path : Path) :
    read? (LineMarker.directive n path).toList = some ⟨n, some path.text⟩ := by
  have h := read?_line n (' ' :: '\x22' :: Text.escape path.text.toList ++ ['\x22']) (by simp)
  rw [name?_quoted, Option.map_some] at h
  rw [← h, LineMarker.directive]
  simp [String.toList_append]

end Directive

end SketchPrep
