import SketchPrep.Proofs.Tag.Verdict

namespace SketchPrep.Tag

def left (tags : List Tag) : List Tag := tags.filter (!·.isSkipped)

variable {source : String → Option String} {tags : List Tag} {t : Tag} {reason : SkipReason}
  {p : Tag → Bool} {seen : List String} {regions : List (String × List Nat)}

structure Settled (source : String → Option String) (tags : List Tag) : Prop where
  function : ∀ t ∈ left tags, t.kind = .function
  free : ∀ t ∈ left tags, t.scope = none
  distinct : ((left tags).map (·.prototype)).Nodup
  found : ∀ t ∈ left tags, t.matchesCode source = true
  drawn : markCLinkage source (addPrototypes tags) = tags

theorem mem_left_iff : t ∈ left tags ↔ t ∈ tags ∧ t.isSkipped = false := by
  rw [left, List.mem_filter, Bool.not_eq_true']

theorem left_cons_of_skipped (h : t.isSkipped = true) : left (t :: tags) = left tags :=
  List.filter_cons_of_neg (by simp [h])

theorem left_cons_of_not_skipped (h : t.isSkipped = false) : left (t :: tags) = t :: left tags :=
  List.filter_cons_of_pos (by simp [h])

theorem left_map {f : Tag → Tag} (h : ∀ t, (f t).isSkipped = t.isSkipped) :
    left (tags.map f) = (left tags).map f := by
  rw [left, List.filter_map, left]
  apply congrArg (List.map f ·)
  apply congrArg (List.filter · tags)
  funext t
  rw [Function.comp_apply, h]

theorem left_skipWhere (reason : SkipReason) (p : Tag → Bool) (tags : List Tag) :
    left (skipWhere reason p tags) = (left tags).filter (!p ·) := by
  induction tags with
  | nil => rfl
  | cons t tags ih =>
      rw [skipWhere] at ih
      rw [skipWhere, List.map_cons]
      cases hs : t.isSkipped with
      | true =>
          rw [if_neg (by simp), left_cons_of_skipped hs, left_cons_of_skipped hs, ih]
      | false =>
          rw [left_cons_of_not_skipped hs]
          cases hp : p t with
          | true => rw [if_pos (by rfl), left_cons_of_skipped (by rfl), ih, List.filter_cons_of_neg (by simp [hp])]
          | false =>
              rw [if_neg (by simp), left_cons_of_not_skipped hs, ih, List.filter_cons_of_pos (by simp [hp])]

theorem skipWhere_eq_self (h : ∀ t ∈ left tags, p t = false) : skipWhere reason p tags = tags := by
  have hsame : ∀ t ∈ tags, (if !t.isSkipped && p t then { t with skip := some reason } else t) = t := by
    intro t ht
    cases hs : t.isSkipped with
    | true => rfl
    | false => rw [h t (mem_left_iff.2 ⟨ht, hs⟩)]; rfl
  rw [skipWhere, List.map_congr_left hsame, List.map_id']

theorem left_markRepeats (seen : List String) (tags : List Tag) :
    (left (markRepeats seen tags)).Sublist (left tags) ∧
      ((left (markRepeats seen tags)).map (·.prototype)).Nodup ∧
        ∀ t ∈ left (markRepeats seen tags), t.prototype ∉ seen := by
  induction tags generalizing seen with
  | nil => simp [markRepeats, left]
  | cons t tags ih =>
      rw [markRepeats]
      cases hs : t.isSkipped with
      | true =>
          rw [if_pos rfl, left_cons_of_skipped hs, left_cons_of_skipped hs]
          exact ih seen
      | false =>
          rw [if_neg (by simp), left_cons_of_not_skipped hs]
          by_cases hseen : t.prototype ∈ seen
          · rw [if_pos (by simpa using hseen), left_cons_of_skipped (by rfl)]
            obtain ⟨hsub, hdistinct, hnew⟩ := ih seen
            exact ⟨hsub.cons t, hdistinct, hnew⟩
          · rw [if_neg (by simpa using hseen), left_cons_of_not_skipped hs]
            obtain ⟨hsub, hdistinct, hnew⟩ := ih (t.prototype :: seen)
            refine ⟨hsub.cons_cons t, List.nodup_cons.2 ⟨?_, hdistinct⟩, ?_⟩
            · intro hm
              obtain ⟨u, hu, he⟩ := List.mem_map.1 hm
              exact hnew u hu (he ▸ List.mem_cons_self)
            · intro u hu
              obtain rfl | hu := List.mem_cons.1 hu
              · exact hseen
              · exact fun hm => hnew u hu (List.mem_cons_of_mem _ hm)

theorem markRepeats_eq_self (hdistinct : ((left tags).map (·.prototype)).Nodup)
    (hnew : ∀ t ∈ left tags, t.prototype ∉ seen) : markRepeats seen tags = tags := by
  induction tags generalizing seen with
  | nil => rfl
  | cons t tags ih =>
      rw [markRepeats]
      cases hs : t.isSkipped with
      | true =>
          rw [left_cons_of_skipped hs] at hdistinct hnew
          rw [if_pos rfl, ih hdistinct hnew]
      | false =>
          rw [left_cons_of_not_skipped hs] at hdistinct hnew
          obtain ⟨ht, hrest⟩ := List.nodup_cons.1 hdistinct
          obtain ⟨hfirst, hlater⟩ := List.forall_mem_cons.1 hnew
          rw [if_neg (by simp), if_neg (by simpa using hfirst), ih hrest]
          intro u hu hm
          obtain he | hm := List.mem_cons.1 hm
          · exact ht (List.mem_map.2 ⟨u, hu, he⟩)
          · exact hlater u hu hm

theorem isSkipped_declare (t : Tag) : t.declare.isSkipped = t.isSkipped := by
  unfold declare
  split <;> rfl

theorem declare_declare (t : Tag) : t.declare.declare = t.declare := by
  have htemplate : t.declare.isTemplate = t.isTemplate := (sameSymbol_declare t).eq isTemplate fun _ _ _ => rfl
  have hhead : t.declare.head = t.head := (sameSymbol_declare t).eq head fun _ _ _ => rfl
  rw [declare, htemplate, hhead, declare]
  split <;> rfl

theorem linked_eq (regions : List (String × List Nat)) (t : Tag) : linked regions t =
    { t with modifiers := ⟨t.modifiers.isStatic, t.modifiers.cLinkage || t.hasCLinkage regions⟩ } := by
  unfold linked
  cases t.hasCLinkage regions with
  | true => rw [Bool.or_true]; rfl
  | false => rw [Bool.or_false]; rfl

theorem isSkipped_linked (regions : List (String × List Nat)) (t : Tag) :
    (linked regions t).isSkipped = t.isSkipped := by
  rw [linked_eq]
  rfl

theorem linked_linked (regions : List (String × List Nat)) (t : Tag) :
    linked regions (linked regions t) = linked regions t := by
  have hlinkage : (linked regions t).hasCLinkage regions = t.hasCLinkage regions := by
    rw [linked_eq]
    rfl
  rw [linked_eq, hlinkage, linked_eq]
  simp

theorem declare_linked_of_template (h : t.isTemplate = true) :
    (linked regions t).declare = linked regions t.declare := by
  have htemplate : (linked regions t).isTemplate = true := by
    rw [linked_eq]
    exact h
  rw [declare, if_pos htemplate, linked_eq, linked_eq, declare, if_pos h]
  rfl

theorem declare_linked_of_not_template (h : t.isTemplate = false) :
    (linked regions t).declare = t.declare := by
  have htemplate : (linked regions t).isTemplate = false := by
    rw [linked_eq]
    exact h
  rw [declare, htemplate, linked_eq, declare, h]
  rfl

/-- A template keeps its linkage through a new declaration, and any other tag is given it again. -/
theorem linked_declare_linked (regions : List (String × List Nat)) (t : Tag) :
    linked regions (linked regions t).declare = linked regions t.declare := by
  cases h : t.isTemplate with
  | true => rw [declare_linked_of_template h, linked_linked]
  | false => rw [declare_linked_of_not_template h]

theorem left_addPrototypes (tags : List Tag) : left (addPrototypes tags) = (left tags).map declare := by
  have hskipped (t : Tag) : (if t.isSkipped then t else t.declare).isSkipped = t.isSkipped := by
    split
    · rfl
    · exact isSkipped_declare t
  rw [addPrototypes, left_map hskipped]
  apply List.map_congr_left
  intro t ht
  rw [(mem_left_iff.1 ht).2]
  rfl

theorem left_markCLinkage (source : String → Option String) (tags : List Tag) :
    left (markCLinkage source tags) = (left tags).map (linked (CLinkage.regions source tags)) :=
  left_map (isSkipped_linked _)

theorem declared_eq (tags : List Tag) :
    declared tags = ((left tags).filter (·.kind = .prototype)).map (·.prototype) := by
  rw [declared, left, List.filter_filter]
  simp only [Bool.and_comm]

theorem file_addPrototypes (tags : List Tag) : (addPrototypes tags).map (·.file) = tags.map (·.file) := by
  rw [addPrototypes, List.map_map]
  apply List.map_congr_left
  intro t _
  rw [Function.comp_apply]
  split
  · rfl
  · exact (sameSymbol_declare t).eq (·.file) fun _ _ _ => rfl

theorem file_markCLinkage (source : String → Option String) (tags : List Tag) :
    (markCLinkage source tags).map (·.file) = tags.map (·.file) := by
  have hmark : markCLinkage source tags = tags.map (linked (CLinkage.regions source tags)) := rfl
  rw [hmark, List.map_map]
  apply List.map_congr_left
  intro t _
  rw [Function.comp_apply, linked_eq]

def counted (tags : List Tag) : List Tag :=
  skipWhere .scoped (·.scope.isSome) (skipWhere .unknownKind (!·.kind.isCallable) tags)

def sifted (source : String → Option String) (tags : List Tag) : List Tag :=
  skipWhere .codeMismatch (!·.matchesCode source)
    (markRepeats [] (skipWhere .alreadyDeclared (fun t => (declared tags).contains t.prototype) tags))

theorem filter_eq_markCLinkage (source : String → Option String) (tags : List Tag) :
    filter source tags = markCLinkage source (sifted source (addPrototypes (counted tags))) := rfl

theorem isHandled_of_mem_left_counted (h : t ∈ left (counted tags)) : t.isHandled = true := by
  rw [counted, left_skipWhere, left_skipWhere] at h
  obtain ⟨h, hscope⟩ := List.mem_filter.1 h
  obtain ⟨-, hkind⟩ := List.mem_filter.1 h
  rw [Bool.not_not] at hkind
  rw [isHandled, hkind, ← Option.not_isSome, hscope]
  rfl

theorem counted_eq_self (h : ∀ t ∈ left tags, t.isHandled = true) : counted tags = tags := by
  have hkind : skipWhere .unknownKind (!·.kind.isCallable) tags = tags := by
    apply skipWhere_eq_self
    intro t ht
    have hh := h t ht
    rw [isHandled, Bool.and_eq_true] at hh
    rw [hh.1]
    rfl
  rw [counted, hkind]
  apply skipWhere_eq_self
  intro t ht
  have hh := h t ht
  rw [isHandled, Bool.and_eq_true, ← Option.not_isSome, Bool.not_eq_true'] at hh
  exact hh.2

theorem left_sifted_sublist (source : String → Option String) (tags : List Tag) :
    (left (sifted source tags)).Sublist (left tags) := by
  rw [sifted, left_skipWhere]
  refine List.filter_sublist.trans ((left_markRepeats [] _).1.trans ?_)
  rw [left_skipWhere]
  exact List.filter_sublist

/-- A prototype is declared by itself. -/
theorem kind_of_mem_left_sifted (h : t ∈ left (sifted source tags)) : t.kind ≠ .prototype := by
  rw [sifted, left_skipWhere] at h
  have hnew := (left_markRepeats [] _).1.subset (List.mem_filter.1 h).1
  rw [left_skipWhere] at hnew
  obtain ⟨hleft, hnew⟩ := List.mem_filter.1 hnew
  intro hk
  have hdeclared : t.prototype ∈ declared tags := by
    rw [declared_eq]
    exact List.mem_map_of_mem (List.mem_filter.2 ⟨hleft, by simp [hk]⟩)
  simp [hdeclared] at hnew

theorem distinct_left_sifted (source : String → Option String) (tags : List Tag) :
    ((left (sifted source tags)).map (·.prototype)).Nodup := by
  rw [sifted, left_skipWhere]
  exact (left_markRepeats [] _).2.1.sublist (List.filter_sublist.map _)

theorem matchesCode_of_mem_left_sifted (h : t ∈ left (sifted source tags)) : t.matchesCode source = true := by
  rw [sifted, left_skipWhere] at h
  simpa using (List.mem_filter.1 h).2

theorem sifted_eq_self (hkind : ∀ t ∈ left tags, t.kind ≠ .prototype)
    (hdistinct : ((left tags).map (·.prototype)).Nodup)
    (hfound : ∀ t ∈ left tags, t.matchesCode source = true) : sifted source tags = tags := by
  have hdeclared : declared tags = [] := by
    rw [declared_eq, List.map_eq_nil_iff, List.filter_eq_nil_iff]
    intro t ht
    simpa using hkind t ht
  have hnew : skipWhere .alreadyDeclared (fun t => (declared tags).contains t.prototype) tags = tags := by
    apply skipWhere_eq_self
    intro t _
    rw [hdeclared]
    rfl
  rw [sifted, hnew, markRepeats_eq_self hdistinct (by simp)]
  apply skipWhere_eq_self
  intro t ht
  rw [hfound t ht]
  rfl

theorem matchesCode_declare (h : t.prototype = t.declaration) :
    t.declare.matchesCode source = t.matchesCode source := by
  obtain ⟨prototype, modifiers, skip, he⟩ := sameSymbol_declare t
  have hprototype : t.declare.prototype = prototype := by rw [he]
  obtain rfl : t.prototype = prototype := h.trans hprototype
  rw [he]
  rfl

namespace Settled

theorem isHandled (h : Settled source tags) (ht : t ∈ left tags) : t.isHandled = true := by
  rw [Tag.isHandled, h.function t ht, h.free t ht]
  rfl

theorem declaration (h : Settled source tags) (ht : t ∈ left tags) : t.prototype = t.declaration := by
  obtain ⟨hm, hs⟩ := mem_left_iff.1 ht
  have hmap : (addPrototypes tags).map (linked (CLinkage.regions source (addPrototypes tags))) = tags :=
    h.drawn
  rw [addPrototypes, List.map_map] at hmap
  have hsame := List.map_inj_left.1 (hmap.trans (List.map_id tags).symm) t hm
  rw [Function.comp_apply, hs, linked_eq] at hsame
  exact (congrArg Tag.prototype hsame).symm

theorem filter_eq (h : Settled source tags) : filter source tags = tags := by
  have hcounted : counted tags = tags := counted_eq_self fun _ ht => h.isHandled ht
  have hsifted : sifted source (addPrototypes tags) = addPrototypes tags := by
    apply sifted_eq_self
    · intro t ht
      rw [left_addPrototypes] at ht
      obtain ⟨u, hu, rfl⟩ := List.mem_map.1 ht
      have hkind : u.declare.kind = u.kind := (sameSymbol_declare u).eq (·.kind) fun _ _ _ => rfl
      rw [hkind, h.function u hu]
      simp
    · have hprototypes : (left (addPrototypes tags)).map (·.prototype) = (left tags).map (·.prototype) := by
        rw [left_addPrototypes, List.map_map]
        apply List.map_congr_left
        intro u hu
        exact (h.declaration hu).symm
      rw [hprototypes]
      exact h.distinct
    · intro t ht
      rw [left_addPrototypes] at ht
      obtain ⟨u, hu, rfl⟩ := List.mem_map.1 ht
      rw [matchesCode_declare (h.declaration hu)]
      exact h.found u hu
  rw [filter_eq_markCLinkage, hcounted, hsifted, h.drawn]

end Settled

theorem markCLinkage_addPrototypes (h : ∀ t ∈ left tags, t.declare = t) :
    markCLinkage source (addPrototypes (markCLinkage source tags)) = markCLinkage source tags := by
  have hregions : CLinkage.regions source (addPrototypes (markCLinkage source tags)) =
      CLinkage.regions source tags :=
    regions_congr ((file_addPrototypes _).trans (file_markCLinkage source tags))
  have hmark (us : List Tag) : markCLinkage source us = us.map (linked (CLinkage.regions source us)) := rfl
  rw [hmark (addPrototypes (markCLinkage source tags)), hregions, hmark tags, addPrototypes, List.map_map,
    List.map_map]
  apply List.map_congr_left
  intro t ht
  rw [Function.comp_apply, Function.comp_apply, isSkipped_linked]
  cases hs : t.isSkipped with
  | true => exact linked_linked _ t
  | false =>
      have hdeclare : t.declare = t := h t (mem_left_iff.2 ⟨ht, hs⟩)
      exact (linked_declare_linked _ t).trans (congrArg _ hdeclare)

theorem settled_filter (source : String → Option String) (tags : List Tag) :
    Settled source (filter source tags) := by
  let kept := sifted source (addPrototypes (counted tags))
  have hkept : ∀ t ∈ left kept, t.declare = t ∧ t.isHandled = true := by
    intro t ht
    have hdeclared := (left_sifted_sublist source _).subset ht
    rw [left_addPrototypes] at hdeclared
    obtain ⟨u, hu, rfl⟩ := List.mem_map.1 hdeclared
    refine ⟨declare_declare u, ?_⟩
    rw [← isHandled_of_mem_left_counted hu]
    exact (sameSymbol_declare u).eq isHandled fun _ _ _ => rfl
  have hlinked : ∀ t ∈ left (filter source tags), ∃ u ∈ left kept, t = linked (CLinkage.regions source kept) u := by
    intro t ht
    rw [filter_eq_markCLinkage, left_markCLinkage] at ht
    obtain ⟨u, hu, rfl⟩ := List.mem_map.1 ht
    exact ⟨u, hu, rfl⟩
  refine ⟨?_, ?_, ?_, ?_, markCLinkage_addPrototypes fun t ht => (hkept t ht).1⟩
  · intro t ht
    obtain ⟨u, hu, rfl⟩ := hlinked t ht
    obtain hk | hk := kind_of_isHandled (hkept u hu).2
    · rw [linked_eq]
      exact hk
    · exact absurd hk (kind_of_mem_left_sifted hu)
  · intro t ht
    obtain ⟨u, hu, rfl⟩ := hlinked t ht
    have hh := (hkept u hu).2
    rw [isHandled, Bool.and_eq_true] at hh
    rw [linked_eq]
    exact Option.isNone_iff_eq_none.1 hh.2
  · have hprototypes : (left (filter source tags)).map (·.prototype) = (left kept).map (·.prototype) := by
      rw [filter_eq_markCLinkage, left_markCLinkage, List.map_map]
      apply List.map_congr_left
      intro u _
      rw [Function.comp_apply, linked_eq]
    rw [hprototypes]
    exact distinct_left_sifted source _
  · intro t ht
    obtain ⟨u, hu, rfl⟩ := hlinked t ht
    have hfound := matchesCode_of_mem_left_sifted hu
    rw [linked_eq]
    exact hfound

theorem filter_eq_self_iff : filter source tags = tags ↔ Settled source tags := by
  constructor
  · intro h
    rw [← h]
    exact settled_filter source tags
  · exact Settled.filter_eq

/-- What the stages make of a listing is settled, and they leave it as it is when they run again. -/
theorem filter_filter (source : String → Option String) (tags : List Tag) :
    Settled source (filter source tags) ∧ filter source (filter source tags) = filter source tags := by
  have hsettled := settled_filter source tags
  exact ⟨hsettled, filter_eq_self_iff.2 hsettled⟩

end SketchPrep.Tag
