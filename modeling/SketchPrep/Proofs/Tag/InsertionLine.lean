import SketchPrep.Proofs.Tag.Lacking

namespace SketchPrep

open Tag

variable {source : String → Option String} {mainFile : Option Path} {main : Path} {tags : List Tag}
  {t : Tag} {line : Nat}

theorem Tag.sameSymbol_judged (place : List Tag × Tag) : SameSymbol place.2 (judged source tags place) := by
  obtain ⟨prototype, modifiers, skip, hdraft⟩ := sameSymbol_drafted place.2
  rw [judged, linked, hdraft]
  split
  · exact ⟨_, _, _, rfl⟩
  · exact ⟨_, _, _, rfl⟩

namespace Prototype

theorem comp_symbols {α : Type} {f : List Tag × Tag → Tag} (h : ∀ place, SameSymbol place.2 (f place))
    (g : Tag → α) (hg : ∀ (t : Tag) prototype modifiers skip,
      g { t with prototype := prototype, modifiers := modifiers, skip := skip } = g t) :
    g ∘ f = g ∘ (·.2) :=
  funext fun place => (h place).eq g (hg place.2)

def functionNames (tags : List Tag) : List String := (tags.filter (·.kind = .function)).map (·.name)

theorem insertionLine_map {f : List Tag × Tag → Tag} (h : ∀ place, SameSymbol place.2 (f place)) :
    insertionLine mainFile ((occurrences tags).map f) = insertionLine mainFile tags := by
  have hfind (p : Tag → Bool) (hp : p ∘ f = p ∘ (·.2)) :
      (((occurrences tags).map f).find? p).map (·.line) = (tags.find? p).map (·.line) := by
    have hline : (·.line) ∘ f = (·.line) ∘ (·.2) := comp_symbols h (·.line) fun _ _ _ _ => rfl
    conv => rhs; rw [← map_snd_occurrencesAfter [] tags]
    rw [List.find?_map, List.find?_map, Option.map_map, Option.map_map, hp, hline, occurrences]
  have hnames : functionNames ((occurrences tags).map f) = functionNames tags := by
    have hkind := comp_symbols h (fun t => decide (t.kind = .function)) fun _ _ _ _ => rfl
    have hname := comp_symbols h (·.name) fun _ _ _ _ => rfl
    conv => rhs; rw [functionNames, ← map_snd_occurrencesAfter [] tags]
    rw [functionNames, List.filter_map, List.filter_map, List.map_map, List.map_map, hkind, hname, occurrences]
  have hfunction : firstFunction mainFile ((occurrences tags).map f) = firstFunction mainFile tags :=
    hfind _ (comp_symbols h _ fun _ _ _ _ => rfl)
  have haddress : firstAddress ((occurrences tags).map f) = firstAddress tags := by
    have hall (us : List Tag) : firstAddress us =
        (us.find? (takesAddress (functionNames us))).map (·.line) := rfl
    rw [hall, hall, hnames]
    exact hfind _ (comp_symbols h _ fun _ _ _ _ => rfl)
  rw [insertionLine, insertionLine, hfunction, haddress]

theorem insertionLine_ofListing (source : String → Option String) (mainFile : Option Path) (listing : String) :
    (ofListing source mainFile listing).2 = insertionLine mainFile (parse listing) := by
  rw [ofListing, filter_parse]
  exact insertionLine_map sameSymbol_judged

theorem exists_of_firstFunction (h : firstFunction (some main) tags = some line) :
    ∃ t ∈ tags, Path.same ⟨t.file⟩ main = true ∧ t.line = line := by
  obtain ⟨t, hfind, rfl⟩ := Option.map_eq_some_iff.1 h
  have hfound := List.find?_some hfind
  simp only [Bool.and_eq_true] at hfound
  exact ⟨t, List.mem_of_find?_eq_some hfind, hfound.1.1, rfl⟩

theorem exists_of_firstAddress (h : firstAddress tags = some line) :
    ∃ t, tags.find? (takesAddress (functionNames tags)) = some t ∧ t.line = line :=
  Option.map_eq_some_iff.1 h

/-- The first tag that takes the address of a function lies outside the main file, at a line with a smaller
number than that of the first function there. -/
structure AddressElsewhere (main : Path) (tags : List Tag) (line : Nat) (t : Tag) : Prop where
  first : tags.find? (takesAddress (functionNames tags)) = some t
  outside : Path.same ⟨t.file⟩ main = false
  line_eq : t.line = line
  above : ∀ n, firstFunction (some main) tags = some n → line < n

theorem cases_of_firstAddress (h : firstAddress tags = some line)
    (habove : ∀ n, firstFunction (some main) tags = some n → line < n) :
    (∃ t ∈ tags, Path.same ⟨t.file⟩ main = true ∧ t.line = line) ∨
      ∃ t, AddressElsewhere main tags line t := by
  obtain ⟨t, hfind, hline⟩ := exists_of_firstAddress h
  cases hsame : Path.same ⟨t.file⟩ main with
  | true => exact .inl ⟨t, List.mem_of_find?_eq_some hfind, hsame, hline⟩
  | false => exact .inr ⟨t, hfind, hsame, hline, habove⟩

theorem cases_of_insertionLine (h : insertionLine (some main) tags = some line) :
    (∃ t ∈ tags, Path.same ⟨t.file⟩ main = true ∧ t.line = line) ∨
      ∃ t, AddressElsewhere main tags line t := by
  rw [insertionLine] at h
  cases ha : firstFunction (some main) tags with
  | none =>
      rw [ha] at h
      exact cases_of_firstAddress h (by simp [ha])
  | some a =>
      rw [ha] at h
      cases hb : firstAddress tags with
      | none =>
          rw [hb] at h
          cases h
          exact .inl (exists_of_firstFunction ha)
      | some b =>
          rw [hb] at h
          obtain rfl : min a b = line := Option.some.inj h
          by_cases hle : a ≤ b
          · rw [Nat.min_eq_left hle]
            exact .inl (exists_of_firstFunction ha)
          · rw [Nat.min_eq_right (by omega)]
            refine cases_of_firstAddress hb fun n hn => ?_
            rw [ha] at hn
            cases hn
            omega

/-- The insertion line of a listing is that of a tag of the main file, unless the first tag that takes the
address of a function lies elsewhere. -/
theorem ofListing_insertionLine {listing : String}
    (h : (ofListing source (some main) listing).2 = some line) :
    (∃ t ∈ parse listing, Path.same ⟨t.file⟩ main = true ∧ t.line = line) ∨
      ∃ t, AddressElsewhere main (parse listing) line t := by
  rw [insertionLine_ofListing] at h
  exact cases_of_insertionLine h

def timerListing : String := String.join
  [ "timer\t/Blink/tab.ino\t/^Task timer(1000, &tick);$/;\"\tkind:variable\tline:2\n",
    "setup\t/Blink/Blink.ino\t/^void setup() \x7b$/;\"\tkind:function\tline:5\tsignature:()\treturntype:void\n",
    "tick\t/Blink/tab.ino\t/^void tick() \x7b$/;\"\tkind:function\tline:4\tsignature:()\treturntype:void\n" ]

def timerTags : List Tag :=
  [ { bare "timer" "/Blink/tab.ino" with
      kind := .plainVariable, line := 2, code := "Task timer(1000, &tick);" },
    { bare "setup" "/Blink/Blink.ino" with
      kind := .function, line := 5, code := "void setup() \x7b",
      signature := some "()", returnType := some "void" },
    { bare "tick" "/Blink/tab.ino" with
      kind := .function, line := 4, code := "void tick() \x7b",
      signature := some "()", returnType := some "void" } ]

theorem parse_timerListing : parse timerListing = timerTags := by
  rw [parse, timerListing, String.toList_join]
  decide +kernel

theorem ofListing_insertionLine_timer :
    (ofListing (fun _ => none) (some ⟨"/Blink/Blink.ino"⟩) timerListing).2 = some 2 ∧
      ∃ t, AddressElsewhere ⟨"/Blink/Blink.ino"⟩ (parse timerListing) 2 t := by
  have hline : (ofListing (fun _ => none) (some ⟨"/Blink/Blink.ino"⟩) timerListing).2 = some 2 := by
    rw [insertionLine_ofListing, parse_timerListing]
    decide +kernel
  have hmain : ∀ t ∈ timerTags, ¬ (Path.same ⟨t.file⟩ ⟨"/Blink/Blink.ino"⟩ = true ∧ t.line = 2) := by
    decide +kernel
  refine ⟨hline, ?_⟩
  obtain ⟨t, ht, hplace⟩ | helsewhere := ofListing_insertionLine hline
  · rw [parse_timerListing] at ht
    exact absurd hplace (hmain t ht)
  · exact helsewhere

/-- The line need not be that of a tag of the main file. -/
theorem insertionLine_of_another_file :
    (ofListing (fun _ => none) (some ⟨"/Blink/Blink.ino"⟩) timerListing).2 = some 2 ∧
      ¬ ∃ t ∈ parse timerListing, Path.same ⟨t.file⟩ ⟨"/Blink/Blink.ino"⟩ = true ∧ t.line = 2 := by
  rw [insertionLine_ofListing, parse_timerListing]
  decide +kernel

end Prototype

end SketchPrep
