import SketchPrep.Proofs.Tag.Verdict

namespace SketchPrep

namespace Tag

/-- Whether a place holds a function whose declaration is in the code, and that the listing neither
declares anywhere nor has before. -/
def lacksDeclaration (source : String → Option String) (all : List Tag) (place : List Tag × Tag) : Bool :=
  let (earlier, t) := place
  t.isHandled && t.kind = .function && !all.any (declares .prototype t.declaration) &&
    !earlier.any (declares .function t.declaration) && t.declare.matchesCode source

def prototypeFor (source : String → Option String) (all : List Tag) (t : Tag) : Prototype where
  name := t.name
  file := t.file
  text := t.declaration
  modifiers :=
    { isStatic := t.declare.modifiers.isStatic
      cLinkage := t.declare.modifiers.cLinkage || t.hasCLinkage (CLinkage.regions source all) }
  line := t.line

variable {source : String → Option String} {tags : List Tag} {t : Tag} {place : List Tag × Tag}

@[simp]
theorem name_declare (t : Tag) : t.declare.name = t.name := (sameSymbol_declare t).eq (·.name) fun _ _ _ => rfl

@[simp]
theorem file_declare (t : Tag) : t.declare.file = t.file := (sameSymbol_declare t).eq (·.file) fun _ _ _ => rfl

@[simp]
theorem line_declare (t : Tag) : t.declare.line = t.line := (sameSymbol_declare t).eq (·.line) fun _ _ _ => rfl

theorem skip_setField (t : Tag) (field : String × String) : (t.setField field).skip = t.skip := by
  unfold setField
  split <;> rfl

theorem skip_ofRow? {row : List Char} (h : ofRow? row = some t) : t.skip = none := by
  unfold ofRow? at h
  split at h
  · rename_i name file columns _
    have hfold (fields : List (String × String)) (u : Tag) :
        (fields.foldl setField u).skip = u.skip := by
      induction fields generalizing u with
      | nil => rfl
      | cons field fields ih => rw [List.foldl_cons, ih, skip_setField]
    cases h
    exact hfold _ _
  · cases h

theorem skip_of_mem_parse {listing : String} (h : t ∈ parse listing) : t.skip = none := by
  obtain ⟨row, _, hrow⟩ := List.mem_filterMap.1 h
  exact skip_ofRow? hrow

theorem filter_parse (source : String → Option String) (listing : String) :
    filter source (parse listing) = (occurrences (parse listing)).map (judged source (parse listing)) :=
  filter_eq_map_judged fun _ => skip_of_mem_parse

/-- A tag that counts and is declared nowhere is a function: a prototype would declare itself. -/
theorem kind_of_undeclared (hmem : t ∈ tags) (hh : t.isHandled = true)
    (hnew : tags.any (declares .prototype t.declaration) = false) : t.kind = .function := by
  rcases kind_of_isHandled hh with hk | hk
  · exact hk
  · have hself : declares .prototype t.declaration t = true := by simp [declares, hh, hk]
    exact absurd hself (List.any_eq_false.1 hnew t hmem)

theorem isSkipped_judged (source : String → Option String) (h : place ∈ occurrences tags) :
    (judged source tags place).isSkipped = !lacksDeclaration source tags place := by
  obtain ⟨earlier, t⟩ := place
  have hhandled : (!t.kind.isCallable || t.scope.isSome) = !t.isHandled := by
    rw [isHandled, Bool.not_and, Option.not_isNone]
  rw [judged, isSkipped_withSkip, verdict, List.isSome_find?, SkipReason.inOrder]
  simp only [List.any_cons, List.any_nil, speaksAgainst, lacksDeclaration]
  rw [← Bool.or_assoc, hhandled]
  cases hh : t.isHandled with
  | false => rfl
  | true =>
      cases hd : tags.any (declares .prototype t.declaration) with
      | true => simp
      | false =>
          have hk : t.kind = .function := kind_of_undeclared (mem_of_mem_occurrences h) hh hd
          simp [hk]

theorem lacksDeclaration_iff : lacksDeclaration source tags place = true ↔
    place.2.isHandled = true ∧ place.2.kind = .function ∧
      tags.any (declares .prototype place.2.declaration) = false ∧
      place.1.any (declares .function place.2.declaration) = false ∧
      place.2.declare.matchesCode source = true := by
  simp only [lacksDeclaration, Bool.and_eq_true, decide_eq_true_eq, Bool.not_eq_true', and_assoc]

theorem ofTag_judged (h : lacksDeclaration source tags place = true) :
    Prototype.ofTag (judged source tags place) = prototypeFor source tags place.2 := by
  obtain ⟨earlier, t⟩ := place
  have hdraft : t.drafted = t.declare := drafted_of_isHandled (lacksDeclaration_iff.1 h).1
  have hlinkage : t.declare.hasCLinkage (CLinkage.regions source tags) =
      t.hasCLinkage (CLinkage.regions source tags) := by
    rw [hasCLinkage, file_declare, line_declare, hasCLinkage]
  rw [Prototype.ofTag, judged, hdraft, linked, hlinkage, prototypeFor, declaration]
  cases t.hasCLinkage (CLinkage.regions source tags) <;> simp [withSkip]

theorem semicolon_mem_declaration (t : Tag) : ';' ∈ t.declaration.toList := by
  unfold declaration declare
  split
  · rw [String.toList_ofList, templateDeclaration]
    split <;> simp
  · simp [String.toList_append]

theorem trim_declaration_isEmpty (t : Tag) : (Text.trim t.declaration.toList).isEmpty = false := by
  have hmem := Text.mem_trim (semicolon_mem_declaration t) (by decide)
  cases ht : Text.trim t.declaration.toList with
  | nil => rw [ht] at hmem; cases hmem
  | cons => rfl

theorem ofTags_judged :
    Prototype.ofTags ((occurrences tags).map (judged source tags)) =
      ((occurrences tags).filter (lacksDeclaration source tags)).map fun place =>
        prototypeFor source tags place.2 := by
  rw [Prototype.ofTags, List.filter_map, List.map_map]
  have hkept : (occurrences tags).filter ((fun t => !t.isSkipped &&
      !(Text.trim t.prototype.toList).isEmpty) ∘ judged source tags) =
        (occurrences tags).filter (lacksDeclaration source tags) := by
    refine List.filter_congr fun place hplace => ?_
    rw [Function.comp_apply, isSkipped_judged source hplace, Bool.not_not]
    cases hl : lacksDeclaration source tags place with
    | false => rfl
    | true =>
        have htext : (judged source tags place).prototype = place.2.declaration :=
          congrArg Prototype.text (ofTag_judged hl)
        rw [htext, trim_declaration_isEmpty]
        rfl
  rw [hkept]
  exact List.map_congr_left fun place hplace => ofTag_judged (List.mem_filter.1 hplace).2

end Tag

namespace Prototype

open Tag

theorem fst_ofListing (source : String → Option String) (mainFile : Option Path) (listing : String) :
    (ofListing source mainFile listing).1 = ofTags (filter source (parse listing)) := by
  rw [ofListing]

end Prototype

end SketchPrep
