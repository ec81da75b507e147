import SketchPrep.Prototype

namespace SketchPrep

def SkipReason.inOrder : List SkipReason :=
  [.unknownKind, .scoped, .alreadyDeclared, .duplicate, .codeMismatch]

namespace Tag

def declaration (t : Tag) : String := t.declare.prototype

def declares (kind : TagKind) (text : String) (t : Tag) : Bool :=
  t.isHandled && t.kind = kind && t.declaration = text

def occurrencesAfter (earlier : List Tag) : List Tag → List (List Tag × Tag)
  | [] => []
  | t :: tags => (earlier, t) :: occurrencesAfter (earlier ++ [t]) tags

def occurrences (tags : List Tag) : List (List Tag × Tag) := occurrencesAfter [] tags

/-- Whether a reason speaks against the tag `t` after `earlier` in the listing `all`. -/
def speaksAgainst (source : String → Option String) (all earlier : List Tag) (t : Tag) :
    SkipReason → Bool
  | .unknownKind => !t.kind.isCallable
  | .scoped => t.scope.isSome
  | .alreadyDeclared => all.any (declares .prototype t.declaration)
  | .duplicate => earlier.any (declares .function t.declaration)
  | .codeMismatch => !t.declare.matchesCode source

def verdict (source : String → Option String) (all earlier : List Tag) (t : Tag) : Option SkipReason :=
  SkipReason.inOrder.find? (speaksAgainst source all earlier t)

def drafted (t : Tag) : Tag := if t.isHandled then t.declare else t

def withSkip (skip : Option SkipReason) (t : Tag) : Tag := { t with skip := skip }

def marked (source : String → Option String) (all : List Tag) (draft : Tag → Tag)
    (reasons : List SkipReason) (place : List Tag × Tag) : Tag :=
  (draft place.2).withSkip (reasons.find? (speaksAgainst source all place.1 place.2))

/-- A tag as the lister gave it, whatever the stages made of it. -/
def SameSymbol (t u : Tag) : Prop :=
  ∃ prototype modifiers skip, u = { t with prototype := prototype, modifiers := modifiers, skip := skip }

def linked (regions : List (String × List Nat)) (t : Tag) : Tag :=
  if t.hasCLinkage regions then { t with modifiers := { t.modifiers with cLinkage := true } } else t

variable {source : String → Option String} {all earlier tags : List Tag} {t : Tag}
  {draft : Tag → Tag} {reasons : List SkipReason} {reason : SkipReason} {place : List Tag × Tag}

theorem map_snd_occurrencesAfter (earlier tags : List Tag) : (occurrencesAfter earlier tags).map (·.2) = tags := by
  induction tags generalizing earlier with
  | nil => rfl
  | cons t tags ih => rw [occurrencesAfter, List.map_cons, ih]

theorem map_occurrences {α : Type} (f : Tag → α) (tags : List Tag) :
    (occurrences tags).map (fun place => f place.2) = tags.map f := by
  rw [← Function.comp_def f, ← List.map_map, occurrences, map_snd_occurrencesAfter]

theorem split_of_mem_occurrencesAfter (h : place ∈ occurrencesAfter earlier tags) :
    ∃ later, earlier ++ tags = place.1 ++ place.2 :: later := by
  induction tags generalizing earlier with
  | nil => cases h
  | cons t tags ih =>
      rcases List.mem_cons.1 h with rfl | h
      · exact ⟨tags, rfl⟩
      · obtain ⟨later, hsplit⟩ := ih h
        exact ⟨later, by rw [← hsplit, List.append_assoc]; rfl⟩

theorem split_of_mem_occurrences (h : place ∈ occurrences tags) : ∃ later, tags = place.1 ++ place.2 :: later :=
  split_of_mem_occurrencesAfter h

theorem mem_of_mem_occurrences (h : place ∈ occurrences tags) : place.2 ∈ tags := by
  obtain ⟨later, rfl⟩ := split_of_mem_occurrences h
  simp

@[simp]
theorem isSkipped_withSkip (skip : Option SkipReason) (t : Tag) :
    (t.withSkip skip).isSkipped = skip.isSome := rfl

@[simp]
theorem isSkipped_marked :
    (marked source all draft reasons place).isSkipped =
      (reasons.find? (speaksAgainst source all place.1 place.2)).isSome := rfl

theorem declare_withSkip (skip : Option SkipReason) (t : Tag) :
    (t.withSkip skip).declare = t.declare.withSkip skip := by
  have htemplate : (t.withSkip skip).isTemplate = t.isTemplate := rfl
  unfold declare
  rw [htemplate]
  split <;> rfl

theorem sameSymbol_declare (t : Tag) : SameSymbol t t.declare := by
  unfold declare
  split
  · exact ⟨_, _, _, rfl⟩
  · exact ⟨_, _, _, rfl⟩

theorem sameSymbol_drafted (t : Tag) : SameSymbol t t.drafted := by
  unfold drafted
  split
  · exact sameSymbol_declare t
  · exact ⟨_, _, _, rfl⟩

/-- The stages leave alone whatever does not hang on what they write. -/
theorem SameSymbol.eq {α : Type} {u : Tag} (h : SameSymbol t u) (f : Tag → α)
    (hf : ∀ prototype modifiers skip,
      f { t with prototype := prototype, modifiers := modifiers, skip := skip } = f t) : f u = f t := by
  obtain ⟨prototype, modifiers, skip, rfl⟩ := h
  exact hf prototype modifiers skip

theorem drafted_of_isHandled (h : t.isHandled = true) : t.drafted = t.declare := if_pos h

theorem drafted_of_not_isHandled (h : t.isHandled = false) : t.drafted = t := by
  rw [drafted, h]
  rfl

/-- The tags that count are those that the first two reasons leave. -/
theorem isHandled_eq (source : String → Option String) (all earlier : List Tag) (t : Tag) :
    t.isHandled =
      ([SkipReason.unknownKind, .scoped].find? (speaksAgainst source all earlier t)).isNone := by
  cases hk : t.kind.isCallable <;> cases hs : t.scope <;>
    simp [isHandled, speaksAgainst, hk, hs]

theorem marked_append (reason : SkipReason) :
    marked source all draft (reasons ++ [reason]) place =
      if !(marked source all draft reasons place).isSkipped &&
          speaksAgainst source all place.1 place.2 reason then
        (marked source all draft reasons place).withSkip (some reason)
      else marked source all draft reasons place := by
  rw [isSkipped_marked, marked, marked, List.find?_append]
  cases reasons.find? (speaksAgainst source all place.1 place.2) with
  | some other => rfl
  | none =>
      cases hnext : speaksAgainst source all place.1 place.2 reason with
      | true => rw [List.find?_cons_of_pos hnext]; rfl
      | false => rw [List.find?_cons_of_neg (by simp [hnext])]; rfl

theorem isHandled_of_find?_eq_none (hkind : .unknownKind ∈ reasons) (hscope : .scoped ∈ reasons)
    (h : reasons.find? (speaksAgainst source all earlier t) = none) : t.isHandled = true := by
  have hcallable : t.kind.isCallable = true := by
    simpa [speaksAgainst] using List.find?_eq_none.1 h .unknownKind hkind
  have hfree : t.scope.isNone = true := by
    simpa [speaksAgainst] using List.find?_eq_none.1 h .scoped hscope
  rw [isHandled, hcallable, hfree]
  rfl

/-- A stage that looks for one more reason marks each tag with the first of one more. -/
theorem skipWhere_marked {p : Tag → Bool}
    (h : ∀ place ∈ occurrences tags,
      reasons.find? (speaksAgainst source tags place.1 place.2) = none →
        p (marked source tags draft reasons place) = speaksAgainst source tags place.1 place.2 reason) :
    skipWhere reason p ((occurrences tags).map (marked source tags draft reasons)) =
      (occurrences tags).map (marked source tags draft (reasons ++ [reason])) := by
  rw [skipWhere, List.map_map]
  refine List.map_congr_left fun place hplace => ?_
  rw [Function.comp_apply, marked_append]
  cases hfirst : reasons.find? (speaksAgainst source tags place.1 place.2) with
  | some other => simp [hfirst]
  | none => rw [h place hplace hfirst]; rfl

theorem addPrototypes_marked :
    addPrototypes ((occurrences tags).map (marked source tags id [.unknownKind, .scoped])) =
      (occurrences tags).map (marked source tags drafted [.unknownKind, .scoped]) := by
  rw [addPrototypes, List.map_map]
  refine List.map_congr_left fun place _ => ?_
  have hhandled := isHandled_eq source tags place.1 place.2
  rw [Function.comp_apply, isSkipped_marked, marked, marked]
  cases hfirst : [SkipReason.unknownKind, .scoped].find?
      (speaksAgainst source tags place.1 place.2) with
  | some other =>
      rw [hfirst] at hhandled
      rw [drafted_of_not_isHandled hhandled]
      rfl
  | none =>
      rw [hfirst] at hhandled
      rw [drafted_of_isHandled hhandled, ← declare_withSkip]
      rfl

/-- Only duplicates hang on the place of a tag. -/
theorem marked_place (h : .duplicate ∉ reasons) :
    marked source all draft reasons place = marked source all draft reasons ([], place.2) := by
  have hfilter : reasons.filter (speaksAgainst source all place.1 place.2) =
      reasons.filter (speaksAgainst source all [] place.2) := by
    refine List.filter_congr fun reason hreason => ?_
    cases reason with
    | duplicate => exact absurd hreason h
    | _ => rfl
  rw [marked, marked, ← List.head?_filter, ← List.head?_filter, hfilter]

theorem map_marked_occurrences (h : .duplicate ∉ reasons) :
    (occurrences tags).map (marked source all draft reasons) =
      tags.map fun t => marked source all draft reasons ([], t) := by
  rw [← map_occurrences]
  exact List.map_congr_left fun place _ => marked_place h

theorem prototype_marked (h : t.isHandled = true) :
    (marked source all drafted reasons (earlier, t)).prototype = t.declaration := by
  rw [declaration, ← drafted_of_isHandled h]
  rfl

theorem contains_declared (text : String) :
    (declared ((occurrences tags).map (marked source tags drafted [.unknownKind, .scoped]))).contains text =
      tags.any (declares .prototype text) := by
  rw [map_marked_occurrences (by decide), declared, List.filter_map, List.map_map, Bool.eq_iff_iff,
    List.contains_iff_mem, List.any_eq_true, List.mem_map]
  refine exists_congr fun t => ?_
  have hhandled := isHandled_eq source tags [] t
  have hkind : (marked source tags drafted [.unknownKind, .scoped] ([], t)).kind = t.kind :=
    (sameSymbol_drafted t).eq (·.kind) fun _ _ _ => rfl
  rw [List.mem_filter, and_assoc]
  refine and_congr_right fun _ => ?_
  rw [Function.comp_apply, Function.comp_apply, isSkipped_marked, ← Option.not_isNone, ← hhandled, hkind,
    declares]
  cases hh : t.isHandled with
  | false => simp
  | true => rw [prototype_marked hh]; simp

theorem occurrencesAfter_map (f : Tag → Tag) (earlier tags : List Tag) :
    occurrencesAfter (earlier.map f) (tags.map f) =
      (occurrencesAfter earlier tags).map fun place => (place.1.map f, f place.2) := by
  induction tags generalizing earlier with
  | nil => rfl
  | cons t tags ih =>
      have hnext : earlier.map f ++ [f t] = (earlier ++ [t]).map f := by simp
      rw [List.map_cons, occurrencesAfter, hnext, ih]
      rfl

def madeUp (text : String) (t : Tag) : Bool := !t.isSkipped && t.prototype = text

theorem madeUp_of_isSkipped (h : t.isSkipped = true) (text : String) : madeUp text t = false := by
  simp [madeUp, h]

theorem madeUp_of_not_isSkipped (h : t.isSkipped = false) (text : String) :
    madeUp text t = (t.prototype == text) := by
  rw [madeUp, h]
  rfl

theorem markRepeats_eq {seen : List String} (h : ∀ text, seen.contains text = earlier.any (madeUp text))
    (tags : List Tag) :
    markRepeats seen tags = (occurrencesAfter earlier tags).map fun place =>
      if !place.2.isSkipped && place.1.any (madeUp place.2.prototype) then
        place.2.withSkip (some .duplicate)
      else place.2 := by
  induction tags generalizing seen earlier with
  | nil => rfl
  | cons t tags ih =>
      rw [markRepeats, occurrencesAfter, List.map_cons, ← h t.prototype]
      cases hs : t.isSkipped with
      | true =>
          have hnext (text : String) : seen.contains text = (earlier ++ [t]).any (madeUp text) := by
            rw [h text, List.any_append]
            simp [madeUp_of_isSkipped hs]
          rw [if_pos rfl, ih hnext]
          rfl
      | false =>
          have hlast (text : String) :
              (earlier ++ [t]).any (madeUp text) = (seen.contains text || t.prototype == text) := by
            rw [h text, List.any_append]
            simp [madeUp_of_not_isSkipped hs]
          rw [if_neg (by simp)]
          cases hc : seen.contains t.prototype with
          | true =>
              -- a declaration that was seen already is no news
              have hnext (text : String) : seen.contains text = (earlier ++ [t]).any (madeUp text) := by
                rw [hlast]
                by_cases he : t.prototype = text
                · rw [← he, hc]; rfl
                · simp [he]
              rw [if_pos rfl, ih hnext]
              rfl
          | false =>
              have hnext (text : String) :
                  (t.prototype :: seen).contains text = (earlier ++ [t]).any (madeUp text) := by
                rw [hlast, List.contains_cons, Bool.or_comm, Bool.beq_comm]
              rw [if_neg (by simp), ih hnext]
              rfl

theorem kind_of_isHandled (h : t.isHandled = true) : t.kind = .function ∨ t.kind = .prototype := by
  cases hk : t.kind <;> simp_all [isHandled, TagKind.isCallable]

def weighed (source : String → Option String) (all : List Tag) (t : Tag) : Tag :=
  marked source all drafted [.unknownKind, .scoped, .alreadyDeclared] ([], t)

theorem isSkipped_weighed :
    (weighed source all t).isSkipped =
      !(t.isHandled && !all.any (declares .prototype t.declaration)) := by
  have hhandled := isHandled_eq source all [] t
  rw [weighed, isSkipped_marked, show [SkipReason.unknownKind, .scoped, .alreadyDeclared] =
    [.unknownKind, .scoped] ++ [.alreadyDeclared] from rfl, List.find?_append, hhandled]
  cases [SkipReason.unknownKind, .scoped].find? (speaksAgainst source all [] t) with
  | some => rfl
  | none => cases hd : all.any (declares .prototype t.declaration) <;> simp [speaksAgainst, hd]

theorem prototype_weighed (h : (weighed source all t).isSkipped = false) :
    (weighed source all t).prototype = t.declaration := by
  rw [isSkipped_weighed] at h
  cases hh : t.isHandled with
  | false => simp [hh] at h
  | true => exact prototype_marked hh

theorem any_madeUp (hsub : ∀ u ∈ earlier, u ∈ all) {text : String}
    (hnew : all.any (declares .prototype text) = false) :
    (earlier.map (weighed source all)).any (madeUp text) = earlier.any (declares .function text) := by
  rw [List.any_map, Bool.eq_iff_iff, List.any_eq_true, List.any_eq_true]
  refine exists_congr fun u => and_congr_right fun hu => ?_
  -- a prototype with this text would have declared it
  have hproto : declares .prototype text u = false :=
    Bool.eq_false_iff.2 (List.any_eq_false.1 hnew u (hsub u hu))
  rw [Function.comp_apply]
  cases hs : (weighed source all u).isSkipped with
  | true =>
      rw [madeUp_of_isSkipped hs]
      rw [isSkipped_weighed] at hs
      cases hh : u.isHandled with
      | false => simp [declares, hh]
      | true =>
          have hne : u.declaration ≠ text := by
            rintro rfl
            simp [hh, hnew] at hs
          simp [declares, hne]
  | false =>
      rw [madeUp_of_not_isSkipped hs, prototype_weighed hs]
      rw [isSkipped_weighed] at hs
      obtain ⟨hh, _⟩ : u.isHandled = true ∧ all.any (declares .prototype u.declaration) = false := by
        simpa using hs
      rcases kind_of_isHandled hh with hk | hk
      · simp [declares, hh, hk]
      · have hne : u.declaration ≠ text := by simpa [declares, hh, hk] using hproto
        simp [declares, hne]

theorem markRepeats_marked :
    markRepeats []
        ((occurrences tags).map (marked source tags drafted [.unknownKind, .scoped, .alreadyDeclared])) =
      (occurrences tags).map
        (marked source tags drafted [.unknownKind, .scoped, .alreadyDeclared, .duplicate]) := by
  have hoccurrences : occurrencesAfter [] (tags.map (weighed source tags)) =
      (occurrences tags).map fun place => (place.1.map (weighed source tags), weighed source tags place.2) :=
    occurrencesAfter_map (weighed source tags) [] tags
  have htags : (occurrences tags).map
      (marked source tags drafted [.unknownKind, .scoped, .alreadyDeclared]) =
        tags.map (weighed source tags) := map_marked_occurrences (by decide)
  have hnone : ∀ text, ([] : List String).contains text = ([] : List Tag).any (madeUp text) := fun _ => rfl
  rw [htags, markRepeats_eq hnone, hoccurrences, List.map_map]
  refine List.map_congr_left fun place hplace => ?_
  have hweighed : marked source tags drafted [.unknownKind, .scoped, .alreadyDeclared] place =
      weighed source tags place.2 := marked_place (by decide)
  rw [show [SkipReason.unknownKind, .scoped, .alreadyDeclared, .duplicate] =
    [.unknownKind, .scoped, .alreadyDeclared] ++ [.duplicate] from rfl, marked_append, hweighed,
    Function.comp_apply]
  cases hs : (weighed source tags place.2).isSkipped with
  | true => simp
  | false =>
      rw [prototype_weighed hs, speaksAgainst]
      rw [isSkipped_weighed] at hs
      obtain ⟨_, hnew⟩ : place.2.isHandled = true ∧
          tags.any (declares .prototype place.2.declaration) = false := by
        simpa using hs
      obtain ⟨later, hsplit⟩ := split_of_mem_occurrences hplace
      rw [any_madeUp (fun u hu => hsplit ▸ List.mem_append_left _ hu) hnew]

theorem linked_withSkip (regions : List (String × List Nat)) (skip : Option SkipReason) (t : Tag) :
    linked regions (t.withSkip skip) = (linked regions t).withSkip skip := by
  have hlinkage : (t.withSkip skip).hasCLinkage regions = t.hasCLinkage regions := rfl
  unfold linked
  rw [hlinkage]
  split <;> rfl

theorem regions_congr {tags' : List Tag} (h : tags'.map (·.file) = tags.map (·.file)) :
    CLinkage.regions source tags' = CLinkage.regions source tags := by
  rw [CLinkage.regions, h, CLinkage.regions]

theorem markCLinkage_marked :
    markCLinkage source ((occurrences tags).map (marked source all drafted reasons)) =
      (occurrences tags).map fun place =>
        linked (CLinkage.regions source tags) (marked source all drafted reasons place) := by
  have hfiles : ((occurrences tags).map (marked source all drafted reasons)).map (·.file) =
      tags.map (·.file) := by
    rw [List.map_map, ← map_occurrences (·.file) tags]
    exact List.map_congr_left fun place _ => (sameSymbol_drafted place.2).eq (·.file) fun _ _ _ => rfl
  rw [markCLinkage, regions_congr hfiles, List.map_map]
  rfl

theorem map_marked_nil (source : String → Option String) (h : ∀ t ∈ tags, t.skip = none) :
    (occurrences tags).map (marked source tags id []) = tags := by
  have hsame (t : Tag) (ht : t ∈ tags) : t.withSkip none = t := by
    rw [← h t ht]
    rfl
  refine (map_occurrences (withSkip none) tags).trans ?_
  exact (List.map_congr_left hsame).trans (List.map_id tags)

def judged (source : String → Option String) (all : List Tag) (place : List Tag × Tag) : Tag :=
  (linked (CLinkage.regions source all) place.2.drafted).withSkip (verdict source all place.1 place.2)

theorem filter_eq_map_judged (h : ∀ t ∈ tags, t.skip = none) :
    filter source tags = (occurrences tags).map (judged source tags) := by
  have hkinds : skipWhere .unknownKind (fun t => !t.kind.isCallable) tags =
      (occurrences tags).map (marked source tags id [.unknownKind]) := by
    conv => lhs; rw [← map_marked_nil source h]
    exact skipWhere_marked fun _ _ _ => rfl
  have hscopes : skipWhere .scoped (fun t => t.scope.isSome)
      ((occurrences tags).map (marked source tags id [.unknownKind])) =
        (occurrences tags).map (marked source tags id [.unknownKind, .scoped]) :=
    skipWhere_marked fun _ _ _ => rfl
  have hdeclared : skipWhere .alreadyDeclared
      (fun t => (declared ((occurrences tags).map
        (marked source tags drafted [.unknownKind, .scoped]))).contains t.prototype)
      ((occurrences tags).map (marked source tags drafted [.unknownKind, .scoped])) =
        (occurrences tags).map (marked source tags drafted [.unknownKind, .scoped, .alreadyDeclared]) := by
    refine skipWhere_marked fun place _ hfirst => ?_
    have hh : place.2.isHandled = true := isHandled_of_find?_eq_none (by decide) (by decide) hfirst
    rw [contains_declared, prototype_marked hh]
    rfl
  have hcode : skipWhere .codeMismatch (fun t => !t.matchesCode source)
      ((occurrences tags).map
        (marked source tags drafted [.unknownKind, .scoped, .alreadyDeclared, .duplicate])) =
        (occurrences tags).map (marked source tags drafted SkipReason.inOrder) := by
    refine skipWhere_marked fun place _ hfirst => ?_
    have hh : place.2.isHandled = true := isHandled_of_find?_eq_none (by decide) (by decide) hfirst
    have hmatches : (marked source tags drafted
        [.unknownKind, .scoped, .alreadyDeclared, .duplicate] place).matchesCode source =
          place.2.drafted.matchesCode source := rfl
    rw [hmatches, drafted_of_isHandled hh]
    rfl
  have hstages : filter source tags = markCLinkage source (skipWhere .codeMismatch
      (fun t => !t.matchesCode source) (markRepeats [] (skipWhere .alreadyDeclared
        (fun t => (declared (addPrototypes (skipWhere .scoped (fun t => t.scope.isSome)
          (skipWhere .unknownKind (fun t => !t.kind.isCallable) tags)))).contains t.prototype)
        (addPrototypes (skipWhere .scoped (fun t => t.scope.isSome)
          (skipWhere .unknownKind (fun t => !t.kind.isCallable) tags)))))) := rfl
  rw [hstages, hkinds, hscopes, addPrototypes_marked, hdeclared, markRepeats_marked, hcode,
    markCLinkage_marked]
  refine List.map_congr_left fun place _ => ?_
  rw [marked, linked_withSkip]
  rfl

end Tag

end SketchPrep
