import SketchPrep.Proofs.Presumed.Directive
import SketchPrep.Proofs.Text.Occurrence

namespace SketchPrep.LineMarker

def flagged (n : Nat) (path : String) (flags : List String) : String :=
  "# " ++ toString n ++ " \"" ++ String.ofList (Text.escape path.toList) ++ "\"" ++
    String.join (flags.map (" " ++ ·))

theorem isDecimal_of_isDigit {c : Char} (h : c.isDigit = true) : Text.isDecimal c = true := by
  simp only [Char.isDigit, Bool.and_eq_true, decide_eq_true_eq, UInt32.le_iff_toNat_le] at h
  apply List.any_eq_true.2
  refine ⟨(0x30, 0x39), List.mem_cons_self, ?_⟩
  simpa using h

theorem isBlank_of_isDigit {c : Char} (h : c.isDigit = true) : Text.isBlank c = false := by
  simp only [Char.isDigit, Bool.and_eq_true, decide_eq_true_eq, UInt32.le_iff_toNat_le] at h
  have hlow : 48 ≤ c.toNat := h.1
  have hhigh : c.toNat ≤ 57 := h.2
  simp only [Text.isBlank, Bool.or_eq_false_iff, Bool.and_eq_false_iff, decide_eq_false_iff_not,
    beq_eq_false_iff_ne]
  omega

variable {n : Nat} {name after rest : List Char}

/-- What follows the hash and perhaps the word is a number and then a name. -/
theorem nameOf?_of_numbered
    (hrest : afterLineWord (Text.trimStart rest) =
      Nat.toDigits 10 n ++ ' ' :: '\x22' :: (Text.escape name ++ '\x22' :: after))
    (hafter : endsLine after = true) : nameOf? ('#' :: rest) = some name := by
  have hdigits : ∀ c ∈ Nat.toDigits 10 n, Text.isDecimal c = true := fun c hc =>
    isDecimal_of_isDigit (Nat.isDigit_of_mem_toDigits (by decide) (by decide) hc)
  have htake : (Nat.toDigits 10 n ++ ' ' :: '\x22' :: (Text.escape name ++ '\x22' :: after)).takeWhile
      Text.isDecimal = Nat.toDigits 10 n := by
    rw [List.takeWhile_append_of_pos hdigits, List.takeWhile_cons_of_neg (by decide), List.append_nil]
  have hblank (s : List Char) : afterBlanks? (' ' :: '\x22' :: s) = some ('\x22' :: s) := rfl
  simp [nameOf?, hrest, htake, hblank, Nat.toDigits_ne_nil, Directive.quoted?_escape, hafter,
    Text.unescape_escape]

theorem exists_toDigits_cons (n : Nat) : ∃ d ds, Nat.toDigits 10 n = d :: ds ∧ d.isDigit = true := by
  cases h : Nat.toDigits 10 n with
  | nil => exact absurd h Nat.toDigits_ne_nil
  | cons d ds =>
      exact ⟨d, ds, rfl,
        Nat.isDigit_of_mem_toDigits (by decide) (by decide) (h ▸ List.mem_cons_self)⟩

theorem trimStart_toDigits (n : Nat) (s : List Char) :
    Text.trimStart (Nat.toDigits 10 n ++ s) = Nat.toDigits 10 n ++ s := by
  obtain ⟨d, ds, hd, hdigit⟩ := exists_toDigits_cons n
  rw [hd, List.cons_append, Text.trimStart, List.dropWhile_cons_of_neg]
  simp [isBlank_of_isDigit hdigit]

theorem afterLineWord_toDigits (n : Nat) (s : List Char) :
    afterLineWord (Nat.toDigits 10 n ++ s) = Nat.toDigits 10 n ++ s := by
  obtain ⟨d, ds, hd, hdigit⟩ := exists_toDigits_cons n
  have hne : 'l' ≠ d := by
    rintro rfl
    cases hdigit
  have hword : "line".toList.isPrefixOf? (d :: (ds ++ s)) = none := by
    apply Text.isPrefixOf?_eq_none
    rintro ⟨t, ht⟩
    exact hne (List.cons.inj ht).1
  rw [hd, List.cons_append, afterLineWord, hword]
  rfl

theorem afterLineWord_line (s : List Char) : afterLineWord ("line ".toList ++ s) = Text.trimStart s := rfl

theorem parse?_directive (n : Nat) (path : String) : parse? (directive n ⟨path⟩) = some path := by
  have hrow : (directive n ⟨path⟩).toList = '#' :: ("line ".toList ++ (Nat.toDigits 10 n ++
      ' ' :: '\x22' :: (Text.escape path.toList ++ '\x22' :: []))) := by
    simp [directive, String.toList_append]
  have hline (s : List Char) : Text.trimStart ("line ".toList ++ s) = "line ".toList ++ s := rfl
  have hrest (s : List Char) : afterLineWord (Text.trimStart ("line ".toList ++ (Nat.toDigits 10 n ++ s))) =
      Nat.toDigits 10 n ++ s := by
    rw [hline, afterLineWord_line, trimStart_toDigits]
  have hend : endsLine [] = true := rfl
  rw [parse?, hrow, nameOf?_of_numbered (hrest _) hend, Option.map_some, String.ofList_toList]

theorem endsLine_flags {flags : List String}
    (h : ∀ flag ∈ flags, ∀ c ∈ flag.toList, Text.isDecimal c = true) :
    endsLine (flags.flatMap fun flag => ' ' :: flag.toList) = true := by
  have hfeed : '\n' ∉ flags.flatMap fun flag => ' ' :: flag.toList := by
    intro hm
    obtain ⟨flag, hflag, hc⟩ := List.mem_flatMap.1 hm
    rcases List.mem_cons.1 hc with hc | hc
    · cases hc
    · have hdecimal := h flag hflag _ hc
      revert hdecimal
      decide
  cases flags with
  | nil => rfl
  | cons flag flags =>
      rw [List.flatMap_cons, List.cons_append] at hfeed ⊢
      have hblank : Text.isBlank ' ' = true := rfl
      have hrest := fun hm => hfeed (List.mem_cons_of_mem ' ' hm)
      simpa [endsLine, hblank] using hrest

theorem parse?_flagged (n : Nat) (path : String) {flags : List String}
    (h : ∀ flag ∈ flags, ∀ c ∈ flag.toList, Text.isDecimal c = true) :
    parse? (flagged n path flags) = some path := by
  have hrow : (flagged n path flags).toList = '#' :: ' ' :: (Nat.toDigits 10 n ++
      ' ' :: '\x22' :: (Text.escape path.toList ++ '\x22' ::
        flags.flatMap fun flag => ' ' :: flag.toList)) := by
    simp [flagged, String.toList_append, List.flatMap_map]
  have hblank (s : List Char) : Text.trimStart (' ' :: s) = Text.trimStart s := rfl
  have hrest (s : List Char) : afterLineWord (Text.trimStart (' ' :: (Nat.toDigits 10 n ++ s))) =
      Nat.toDigits 10 n ++ s := by
    rw [hblank, trimStart_toDigits, afterLineWord_toDigits]
  rw [parse?, hrow, nameOf?_of_numbered (hrest _) (endsLine_flags h), Option.map_some,
    String.ofList_toList]

/-- A name is read back from the directive that it was written into, and from the row of a compiler. -/
theorem parse?_written (n : Nat) (path : String) :
    parse? (directive n ⟨path⟩) = some path ∧
      ∀ flags : List String, (∀ flag ∈ flags, ∀ c ∈ flag.toList, Text.isDecimal c = true) →
        parse? (flagged n path flags) = some path :=
  ⟨parse?_directive n path, fun _ h => parse?_flagged n path h⟩

/-- A quote inside a name, and a line feed and a backslash at its end. -/
theorem parse?_written_awkward :
    (∀ flag ∈ ["1", "3"], ∀ c ∈ flag.toList, Text.isDecimal c = true) ∧
      parse? (flagged 12 "C:\\my \"tab\".ino\n\\" ["1", "3"]) = some "C:\\my \"tab\".ino\n\\" := by
  have hdigits : Text.isDecimal '1' = true ∧ Text.isDecimal '3' = true := by decide
  have hflags : ∀ flag ∈ ["1", "3"], ∀ c ∈ flag.toList, Text.isDecimal c = true := by
    simpa using hdigits
  exact ⟨hflags, (parse?_written 12 "C:\\my \"tab\".ino\n\\").2 ["1", "3"] hflags⟩

end SketchPrep.LineMarker
