import SketchPrep.Proofs.Tag.Lacking

namespace SketchPrep

namespace Tag

structure Shadows (source : String → Option String) (tags : List Tag) (first t : Tag) : Prop where
  above : ∃ earlier later, tags = earlier ++ first :: later ∧ t ∈ later ∧
    ∀ u ∈ earlier, declares .function t.declaration u = false
  shares : declares .function t.declaration first = true
  mismatch : first.declare.matchesCode source = false

variable {source : String → Option String} {tags earlier later : List Tag} {t first : Tag}
  {place : List Tag × Tag} {text : String}

theorem mem_occurrencesAfter (before earlier : List Tag) (t : Tag) (later : List Tag) :
    (before ++ earlier, t) ∈ occurrencesAfter before (earlier ++ t :: later) := by
  induction earlier generalizing before with
  | nil =>
      rw [List.append_nil]
      exact List.mem_cons_self
  | cons u earlier ih =>
      have hlater := ih (before ++ [u])
      rw [List.append_assoc] at hlater
      exact List.mem_cons_of_mem _ hlater

theorem mem_occurrences_iff : place ∈ occurrences tags ↔ ∃ later, tags = place.1 ++ place.2 :: later := by
  constructor
  · exact split_of_mem_occurrences
  · rintro ⟨later, rfl⟩
    exact mem_occurrencesAfter [] place.1 place.2 later

theorem declares_function_iff : declares .function text t = true ↔
    t.isHandled = true ∧ t.kind = .function ∧ t.declaration = text := by
  simp only [declares, Bool.and_eq_true, decide_eq_true_eq, and_assoc]

theorem exists_lacksDeclaration_iff :
    (∃ place ∈ occurrences tags, lacksDeclaration source tags place = true ∧ place.2.declaration = text) ↔
      tags.any (declares .prototype text) = false ∧
        ∃ first, tags.find? (declares .function text) = some first ∧
          first.declare.matchesCode source = true := by
  constructor
  · rintro ⟨⟨earlier, first⟩, hplace, hlacks, rfl⟩
    obtain ⟨hh, hk, hnew, hfirst, hcode⟩ := lacksDeclaration_iff.1 hlacks
    obtain ⟨later, hsplit⟩ := split_of_mem_occurrences hplace
    refine ⟨hnew, first, List.find?_eq_some_iff_append.2 ⟨?_, earlier, later, hsplit, ?_⟩, hcode⟩
    · exact declares_function_iff.2 ⟨hh, hk, rfl⟩
    · intro u hu
      simpa using List.any_eq_false.1 hfirst u hu
  · rintro ⟨hnew, first, hfind, hcode⟩
    obtain ⟨hdeclares, earlier, later, hsplit, hearlier⟩ := List.find?_eq_some_iff_append.1 hfind
    obtain ⟨hh, hk, rfl⟩ := declares_function_iff.1 hdeclares
    have hfirst : earlier.any (declares .function first.declaration) = false := by
      apply List.any_eq_false.2
      intro u hu
      simpa using hearlier u hu
    exact ⟨(earlier, first), mem_occurrences_iff.2 ⟨later, hsplit⟩,
      lacksDeclaration_iff.2 ⟨hh, hk, hnew, hfirst, hcode⟩, rfl⟩

theorem Shadows.find?_eq (h : Shadows source tags first t) :
    tags.find? (declares .function t.declaration) = some first := by
  obtain ⟨earlier, later, hsplit, -, hearlier⟩ := h.above
  refine List.find?_eq_some_iff_append.2 ⟨h.shares, earlier, later, hsplit, ?_⟩
  intro u hu
  rw [hearlier u hu]
  rfl

/-- Where the first function with the declaration does not have it in its code, it shadows every other that
does. -/
theorem shadows_of_find? (ht : t ∈ tags) (hshares : declares .function t.declaration t = true)
    (hcode : t.declare.matchesCode source = true)
    (hfind : tags.find? (declares .function t.declaration) = some first)
    (hmismatch : first.declare.matchesCode source = false) : Shadows source tags first t := by
  obtain ⟨hdeclares, earlier, later, rfl, hearlier⟩ := List.find?_eq_some_iff_append.1 hfind
  refine ⟨⟨earlier, later, rfl, ?_, ?_⟩, hdeclares, hmismatch⟩
  · obtain hm | hm := List.mem_append.1 ht
    · have hnot := hearlier t hm
      rw [hshares] at hnot
      cases hnot
    · obtain rfl | hm := List.mem_cons.1 hm
      · rw [hcode] at hmismatch
        cases hmismatch
      · exact hm
  · intro u hu
    simpa using hearlier u hu

end Tag

namespace Prototype

open Tag

variable {source : String → Option String} {mainFile : Option Path} {listing text : String} {t : Tag}

/-- A declaration is given out exactly if the sketch does not contain it and the first function that has it
has it in its code. -/
theorem exists_text_iff : (∃ p ∈ (ofListing source mainFile listing).1, p.text = text) ↔
    (parse listing).any (declares .prototype text) = false ∧
      ∃ first, (parse listing).find? (declares .function text) = some first ∧
        first.declare.matchesCode source = true := by
  rw [fst_ofListing, filter_parse, ofTags_judged, ← exists_lacksDeclaration_iff]
  constructor
  · rintro ⟨p, hp, rfl⟩
    obtain ⟨place, hplace, rfl⟩ := List.mem_map.1 hp
    obtain ⟨hm, hlacks⟩ := List.mem_filter.1 hplace
    exact ⟨place, hm, hlacks, rfl⟩
  · rintro ⟨place, hm, hlacks, rfl⟩
    exact ⟨_, List.mem_map_of_mem (List.mem_filter.2 ⟨hm, hlacks⟩), rfl⟩

/-- A function outside all scopes whose code has its declaration is given a prototype exactly if the sketch
does not declare it itself and no earlier function shadows it. -/
theorem ofListing_shadowed (ht : t ∈ parse listing) (hscope : t.scope = none) (hkind : t.kind = .function)
    (hcode : t.declare.matchesCode source = true) :
    (∃ p ∈ (ofListing source mainFile listing).1, p.text = t.declaration) ↔
      (parse listing).any (declares .prototype t.declaration) = false ∧
        ¬ ∃ first, Shadows source (parse listing) first t := by
  have hhandled : t.isHandled = true := by
    rw [isHandled, hkind, hscope]
    rfl
  have hshares : declares .function t.declaration t = true := declares_function_iff.2 ⟨hhandled, hkind, rfl⟩
  rw [exists_text_iff]
  refine and_congr_right fun _ => ⟨?_, ?_⟩
  · rintro ⟨first, hfind, hfirst⟩ ⟨other, hother⟩
    obtain rfl : first = other := Option.some.inj (hfind.symm.trans hother.find?_eq)
    have hmismatch := hother.mismatch
    rw [hfirst] at hmismatch
    cases hmismatch
  · intro hnone
    cases hfind : (parse listing).find? (declares .function t.declaration) with
    | none => exact absurd hshares (List.find?_eq_none.1 hfind t ht)
    | some first =>
        cases hfirst : first.declare.matchesCode source with
        | true => exact ⟨first, rfl, hfirst⟩
        | false => exact absurd ⟨first, shadows_of_find? ht hshares hcode hfind hfirst⟩ hnone

def taskListing : String := String.join
  [ "tick\t/Blink/Blink.ino\t/^TASK(tick) \x7b$/;\"\tkind:function\tline:2\tsignature:()\treturntype:void\n",
    "tick\t/Blink/Blink.ino\t/^void tick() \x7b$/;\"\tkind:function\tline:6\tsignature:()\treturntype:void\n",
    "loop\t/Blink/Blink.ino\t/^void loop() \x7b$/;\"\tkind:function\tline:9\tsignature:()\treturntype:void\n" ]

def procedure (name code : String) (line : Nat) : Tag :=
  { bare name "/Blink/Blink.ino" with
    kind := .function, line := line, code := code, signature := some "()", returnType := some "void" }

def taskTags : List Tag :=
  [ procedure "tick" "TASK(tick) \x7b" 2, procedure "tick" "void tick() \x7b" 6,
    procedure "loop" "void loop() \x7b" 9 ]

theorem parse_taskListing : parse taskListing = taskTags := by
  rw [parse, taskListing, String.toList_join]
  decide +kernel

theorem ofListing_shadowed_loop :
    procedure "loop" "void loop() \x7b" 9 ∈ parse taskListing ∧
      (procedure "loop" "void loop() \x7b" 9).declare.matchesCode (fun _ => none) = true ∧
      ∃ p ∈ (ofListing (fun _ => none) none taskListing).1, p.text = "void loop();" := by
  have hmem : procedure "loop" "void loop() \x7b" 9 ∈ parse taskListing := by
    rw [parse_taskListing]
    decide +kernel
  have hcode : (procedure "loop" "void loop() \x7b" 9).declare.matchesCode (fun _ => none) = true := by
    decide +kernel
  have hdeclaration : (procedure "loop" "void loop() \x7b" 9).declaration = "void loop();" := by
    decide +kernel
  refine ⟨hmem, hcode, ?_⟩
  rw [← hdeclaration, ofListing_shadowed hmem rfl rfl hcode, parse_taskListing]
  refine ⟨by decide +kernel, ?_⟩
  rintro ⟨first, hfirst⟩
  have hfind : taskTags.find? (declares .function (procedure "loop" "void loop() \x7b" 9).declaration) =
      some (procedure "loop" "void loop() \x7b" 9) := by
    decide +kernel
  obtain rfl : procedure "loop" "void loop() \x7b" 9 = first :=
    Option.some.inj (hfind.symm.trans hfirst.find?_eq)
  have hmismatch := hfirst.mismatch
  rw [hcode] at hmismatch
  cases hmismatch

/-- The macro's record takes the function's declaration away. -/
theorem prototype_lost_to_macro :
    procedure "tick" "void tick() \x7b" 6 ∈ parse taskListing ∧
      (procedure "tick" "void tick() \x7b" 6).declare.matchesCode (fun _ => none) = true ∧
      (procedure "tick" "void tick() \x7b" 6).declaration = "void tick();" ∧
      (∀ t ∈ parse taskListing, t.kind ≠ .prototype) ∧
      (ofListing (fun _ => none) none taskListing).1.map (·.text) = ["void loop();"] := by
  rw [ofListing, parse_taskListing]
  decide +kernel

end Prototype

end SketchPrep
