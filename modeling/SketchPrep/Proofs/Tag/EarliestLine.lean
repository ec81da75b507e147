import Mathlib.Order.Bounds.Basic
import SketchPrep.Proofs.Tag.InsertionLine
import SketchPrep.Proofs.Text.Occurrence

namespace SketchPrep.Prototype

open Tag

variable {mainFile : Option Path} {tags : List Tag} {t : Tag} {p q : Tag → Bool} {o a b : Option Nat}
  {s u : Set Nat} {n : Nat}

def IsDefinition (t : Tag) : Prop := t.kind = .function ∧ t.scope = none

def UsesAddress (tags : List Tag) (t : Tag) : Prop :=
  ∃ f ∈ tags, f.kind = .function ∧ '&' :: f.name.toList <:+: t.code.toList

def linesWith (p : Tag → Bool) (tags : List Tag) : Set Nat := {n | ∃ t ∈ tags, p t = true ∧ t.line = n}

def earlier : Option Nat → Option Nat → Option Nat
  | some a, some b => some (min a b)
  | some a, none => some a
  | none, b => b

def IsEarliest : Option Nat → Set Nat → Prop
  | some n, s => IsLeast s n
  | none, s => s = ∅

theorem IsEarliest.eq_none_iff (h : IsEarliest o s) : o = none ↔ s = ∅ := by
  cases o with
  | none => exact iff_of_true rfl h
  | some n =>
      refine iff_of_false nofun ?_
      rintro rfl
      exact h.1

theorem IsEarliest.eq_some_iff (h : IsEarliest o s) : o = some n ↔ IsLeast s n := by
  cases o with
  | none =>
      obtain rfl : s = ∅ := h
      exact iff_of_false nofun fun hn => hn.1
  | some m =>
      constructor
      · rintro ⟨⟩
        exact h
      · intro hn
        rw [IsLeast.unique h hn]

theorem IsEarliest.union (ha : IsEarliest a s) (hb : IsEarliest b u) : IsEarliest (earlier a b) (s ∪ u) := by
  cases a with
  | none =>
      obtain rfl : s = ∅ := ha
      rwa [Set.empty_union]
  | some a =>
      cases b with
      | none =>
          obtain rfl : u = ∅ := hb
          rwa [Set.union_empty]
      | some b => exact IsLeast.union ha hb

/-- Where the lines do not decrease, the first tag that is found has the least line. -/
theorem isEarliest_find? (h : tags.Pairwise fun t u => t.line ≤ u.line) (p : Tag → Bool) :
    IsEarliest ((tags.find? p).map (·.line)) (linesWith p tags) := by
  cases hf : tags.find? p with
  | none =>
      apply Set.eq_empty_of_forall_notMem
      rintro n ⟨t, ht, hp, -⟩
      exact List.find?_eq_none.1 hf t ht hp
  | some t =>
      refine ⟨⟨t, List.mem_of_find?_eq_some hf, List.find?_some hf, rfl⟩, ?_⟩
      rintro _ ⟨v, hv, hp, rfl⟩
      obtain ⟨-, before, after, rfl, hbefore⟩ := List.find?_eq_some_iff_append.1 hf
      obtain hv | hv := List.mem_append.1 hv
      · have hnot := hbefore v hv
        rw [hp] at hnot
        cases hnot
      · obtain rfl | hv := List.mem_cons.1 hv
        · exact Nat.le_refl _
        · exact List.rel_of_pairwise_cons (List.pairwise_append.1 h).2.1 hv

theorem takesAddress_iff : takesAddress (functionNames tags) t = true ↔ UsesAddress tags t := by
  rw [takesAddress, List.any_eq_true]
  constructor
  · rintro ⟨name, hname, hoccurs⟩
    obtain ⟨f, hf, rfl⟩ := List.mem_map.1 hname
    obtain ⟨hmem, hkind⟩ := List.mem_filter.1 hf
    exact ⟨f, hmem, of_decide_eq_true hkind, Text.occurs_iff.1 hoccurs⟩
  · rintro ⟨f, hf, hkind, hinfix⟩
    have hname : f.name ∈ functionNames tags :=
      List.mem_map_of_mem (List.mem_filter.2 ⟨hf, decide_eq_true hkind⟩)
    exact ⟨f.name, hname, Text.occurs_iff.2 hinfix⟩

theorem isDefinition_iff (h : isIn mainFile t = true) :
    (isIn mainFile t && t.isHandled && t.kind = .function) = true ↔ IsDefinition t := by
  rw [h, isHandled, IsDefinition]
  constructor
  · intro ht
    simp only [Bool.true_and, Bool.and_eq_true, decide_eq_true_eq] at ht
    exact ⟨ht.2, Option.isNone_iff_eq_none.1 ht.1.2⟩
  · rintro ⟨hkind, hscope⟩
    simp [hkind, hscope, TagKind.isCallable]

theorem linesWith_union (hp : ∀ t ∈ tags, p t = true ↔ IsDefinition t)
    (hq : ∀ t ∈ tags, q t = true ↔ UsesAddress tags t) :
    linesWith p tags ∪ linesWith q tags =
      {n | ∃ t ∈ tags, (IsDefinition t ∨ UsesAddress tags t) ∧ t.line = n} := by
  ext n
  constructor
  · rintro (⟨t, ht, hpt, hn⟩ | ⟨t, ht, hqt, hn⟩)
    · exact ⟨t, ht, .inl ((hp t ht).1 hpt), hn⟩
    · exact ⟨t, ht, .inr ((hq t ht).1 hqt), hn⟩
  · rintro ⟨t, ht, hdefinition | huse, hn⟩
    · exact .inl ⟨t, ht, (hp t ht).2 hdefinition, hn⟩
    · exact .inr ⟨t, ht, (hq t ht).2 huse, hn⟩

theorem isEarliest_insertionLine (hmain : ∀ t ∈ tags, isIn mainFile t = true)
    (hsorted : tags.Pairwise fun t u => t.line ≤ u.line) :
    IsEarliest (insertionLine mainFile tags)
      {n | ∃ t ∈ tags, (IsDefinition t ∨ UsesAddress tags t) ∧ t.line = n} := by
  have hdefinition := isEarliest_find? hsorted fun t => isIn mainFile t && t.isHandled && t.kind = .function
  have huse := isEarliest_find? hsorted (takesAddress (functionNames tags))
  have hearlier : insertionLine mainFile tags =
      earlier (firstFunction mainFile tags) (firstAddress tags) := by
    rw [insertionLine]
    cases firstFunction mainFile tags <;> cases firstAddress tags <;> rfl
  have hunion := hdefinition.union huse
  rw [hearlier]
  rwa [linesWith_union (fun t ht => isDefinition_iff (hmain t ht)) fun t _ => takesAddress_iff] at hunion

/-- Every prototype stands for a function of the listing, and has its line. -/
theorem exists_definition {source : String → Option String} {listing : String} {p : Prototype}
    (hp : p ∈ (ofListing source mainFile listing).1) :
    ∃ t ∈ parse listing, IsDefinition t ∧ t.line = p.line := by
  rw [fst_ofListing, filter_parse, ofTags_judged] at hp
  obtain ⟨place, hplace, rfl⟩ := List.mem_map.1 hp
  obtain ⟨hmem, hlacks⟩ := List.mem_filter.1 hplace
  obtain ⟨hhandled, hkind, -⟩ := lacksDeclaration_iff.1 hlacks
  rw [isHandled, Bool.and_eq_true] at hhandled
  exact ⟨place.2, mem_of_mem_occurrences hmem, ⟨hkind, Option.isNone_iff_eq_none.1 hhandled.2⟩, rfl⟩

/-- In a listing whose lines do not decrease and whose tags are all in the main file, if there is one, the
insertion line is the least of a function outside all scopes or of a use of a function's address. There is
none exactly if there are neither; so with any prototype there is a line, above all prototypes and uses. -/
theorem insertionLine_isLeast (hmain : ∀ t ∈ tags, isIn mainFile t = true)
    (hsorted : tags.Pairwise fun t u => t.line ≤ u.line) :
    (∀ line, insertionLine mainFile tags = some line ↔
      IsLeast {n | ∃ t ∈ tags, (IsDefinition t ∨ UsesAddress tags t) ∧ t.line = n} line) ∧
    (insertionLine mainFile tags = none ↔ ∀ t ∈ tags, ¬ IsDefinition t ∧ ¬ UsesAddress tags t) ∧
    ∀ source listing, parse listing = tags → (ofListing source mainFile listing).1 ≠ [] →
      ∃ line, (ofListing source mainFile listing).2 = some line ∧
        (∀ p ∈ (ofListing source mainFile listing).1, line ≤ p.line) ∧
        ∀ t ∈ tags, UsesAddress tags t → line ≤ t.line := by
  have hearliest := isEarliest_insertionLine hmain hsorted
  refine ⟨fun line => hearliest.eq_some_iff, ?_, ?_⟩
  · rw [hearliest.eq_none_iff, Set.eq_empty_iff_forall_notMem]
    constructor
    · intro hnone t ht
      exact not_or.1 fun hneeds => hnone t.line ⟨t, ht, hneeds, rfl⟩
    · rintro hnone _ ⟨t, ht, hneeds, rfl⟩
      exact not_or.2 (hnone t ht) hneeds
  · rintro source listing rfl hsome
    rw [insertionLine_ofListing]
    cases hline : insertionLine mainFile (parse listing) with
    | none =>
        obtain ⟨p, hp⟩ := List.exists_mem_of_ne_nil _ hsome
        obtain ⟨t, ht, hdefinition, hn⟩ := exists_definition hp
        have hempty := hearliest.eq_none_iff.1 hline
        exact absurd hempty (Set.nonempty_iff_ne_empty.1 ⟨p.line, t, ht, .inl hdefinition, hn⟩)
    | some line =>
        have hleast := hearliest.eq_some_iff.1 hline
        refine ⟨line, rfl, fun p hp => ?_, fun t ht huse => hleast.2 ⟨t, ht, .inr huse, rfl⟩⟩
        obtain ⟨t, ht, hdefinition, hn⟩ := exists_definition hp
        exact hleast.2 ⟨t, ht, .inl hdefinition, hn⟩

def tickListing : String := String.join
  [ "timer\t/Blink/Blink.ino\t/^Task timer(1000, &tick);$/;\"\tkind:variable\tline:2\n",
    "setup\t/Blink/Blink.ino\t/^void setup() \x7b$/;\"\tkind:function\tline:5\tsignature:()\treturntype:void\n",
    "tick\t/Blink/Blink.ino\t/^void tick() \x7b$/;\"\tkind:function\tline:9\tsignature:()\treturntype:void\n" ]

theorem parse_tickListing : parse tickListing = timerTags.map (fun t =>
    { t with file := "/Blink/Blink.ino", line := if t.name = "tick" then 9 else t.line }) := by
  rw [parse, tickListing, String.toList_join]
  decide +kernel

theorem insertionLine_isLeast_tick :
    (∀ t ∈ parse tickListing, isIn (some ⟨"/Blink/Blink.ino"⟩) t = true) ∧
      ((parse tickListing).Pairwise fun t u => t.line ≤ u.line) ∧
      (ofListing (fun _ => none) (some ⟨"/Blink/Blink.ino"⟩) tickListing).1 ≠ [] ∧
      ∃ line, (ofListing (fun _ => none) (some ⟨"/Blink/Blink.ino"⟩) tickListing).2 = some line ∧
        (∀ p ∈ (ofListing (fun _ => none) (some ⟨"/Blink/Blink.ino"⟩) tickListing).1, line ≤ p.line) ∧
        ∀ t ∈ parse tickListing, UsesAddress (parse tickListing) t → line ≤ t.line := by
  have hmain : ∀ t ∈ parse tickListing, isIn (some ⟨"/Blink/Blink.ino"⟩) t = true := by
    rw [parse_tickListing]
    decide +kernel
  have hsorted : (parse tickListing).Pairwise fun t u => t.line ≤ u.line := by
    rw [parse_tickListing]
    decide +kernel
  have hsome : (ofListing (fun _ => none) (some ⟨"/Blink/Blink.ino"⟩) tickListing).1 ≠ [] := by
    rw [fst_ofListing, parse_tickListing]
    decide +kernel
  exact ⟨hmain, hsorted, hsome, (insertionLine_isLeast hmain hsorted).2.2 _ _ rfl hsome⟩

end SketchPrep.Prototype
