import SketchPrep.Proofs.Path.Pieces
import SketchPrep.Proofs.Text.Rows

namespace SketchPrep.Path

variable {p q : Path} {lead : Option Component} {pieces : List (List Char)}

def namesIn (text : List Char) : List (List Char) := (text.splitOn '/').filter (!isFiller ·)

def way (p : Path) : List String := (namesIn p.text.toList).map String.ofList

@[simp]
theorem namesIn_nil : namesIn [] = [] := rfl

theorem namesIn_append_slash (a b : List Char) : namesIn (a ++ '/' :: b) = namesIn a ++ namesIn b := by
  rw [namesIn, List.splitOn_append_cons_self, List.filter_append, namesIn, namesIn]

theorem namesIn_intercalate (h : ∀ piece ∈ pieces, '/' ∉ piece) :
    namesIn (['/'].intercalate pieces) = pieces.filter (!isFiller ·) := by
  by_cases hne : pieces = []
  · rw [hne]
    rfl
  · rw [namesIn, List.splitOn_intercalate '/' h hne]

theorem way_join (h : q.isAbsolute = false) : (p.join q).way = p.way ++ q.way := by
  by_cases hp : p.text.toList = []
  · rw [join_of_empty hp, way, way, hp]
    rfl
  · obtain ⟨folder, hfolder, hjoined⟩ := exists_toList_join hp h
    have hnames : namesIn p.text.toList = namesIn folder := by
      obtain hfolder | hfolder := hfolder
      · rw [hfolder]
      · rw [hfolder, namesIn_append_slash, namesIn_nil, List.append_nil]
    rw [way, hjoined, namesIn_append_slash, List.map_append, ← hnames]
    rfl

theorem isAbsolute_join (h : q.isAbsolute = false) : (p.join q).isAbsolute = p.isAbsolute := by
  by_cases hp : p.text.toList = []
  · rw [join_of_empty hp, h, isAbsolute, hp]
    rfl
  · obtain ⟨folder, hfolder, hjoined⟩ := exists_toList_join hp h
    rw [isAbsolute, isAbsolute, hjoined]
    obtain hfolder | hfolder := hfolder
    · obtain ⟨c, rest, hc⟩ := List.exists_cons_of_ne_nil (hfolder ▸ hp)
      rw [hfolder, hc]
      rfl
    · rw [hfolder, List.head?_append, List.head?_append]
      rfl

theorem withoutFillers_isPrefix (pieces : List (List Char)) : withoutFillers pieces <+: pieces := by
  rw [withoutFillers, ← List.reverse_suffix, List.reverse_reverse]
  exact List.dropWhile_suffix _

theorem filter_withoutFillers (pieces : List (List Char)) :
    (withoutFillers pieces).filter (!isFiller ·) = pieces.filter (!isFiller ·) := by
  have hsplit : pieces = withoutFillers pieces ++ (pieces.reverse.takeWhile isFiller).reverse := by
    rw [withoutFillers, ← List.reverse_append, List.takeWhile_append_dropWhile, List.reverse_reverse]
  have hfillers : ((pieces.reverse.takeWhile isFiller).reverse).filter (!isFiller ·) = [] := by
    rw [List.filter_eq_nil_iff]
    intro piece hpiece
    simpa using List.all_eq_true.1 List.all_takeWhile piece (List.mem_reverse.1 hpiece)
  conv => rhs; rw [hsplit, List.filter_append, hfillers, List.append_nil]

theorem isFiller_getLast_withoutFillers (h : withoutFillers pieces ≠ []) :
    isFiller ((withoutFillers pieces).getLast h) = false := by
  have hdrop : pieces.reverse.dropWhile isFiller ≠ [] := by simpa [withoutFillers] using h
  have hlast : (withoutFillers pieces).getLast h = (pieces.reverse.dropWhile isFiller).head hdrop := by
    simp only [withoutFillers, List.getLast_reverse]
  rw [hlast]
  exact List.head_dropWhile_not isFiller hdrop

theorem slash_not_mem_body {piece : List Char} (h : piece ∈ p.body.2) : '/' ∉ piece := by
  apply Text.not_mem_of_mem_splitOn (s := p.text.toList)
  obtain ⟨_, _, hs, hb⟩ | ⟨_, hs, hb⟩ | ⟨hb, -⟩ := p.body_cases
  · rw [hb] at h
    exact hs ▸ List.mem_cons_of_mem _ h
  · rw [hb] at h
    exact hs ▸ List.mem_cons_of_mem _ h
  · rwa [hb] at h

theorem body_of_lead_none (h : p.body.1 = none) (hne : p.body.2 ≠ [[]]) : [] ∉ p.body.2.head? := by
  obtain ⟨_, _, -, hb⟩ | ⟨_, -, hb⟩ | ⟨hb, hroot, -⟩ := p.body_cases
  · rw [hb] at h
    cases h
  · rw [hb] at h
    cases h
  · rw [hb] at hne ⊢
    intro hhead
    obtain ⟨rest, hs⟩ := List.head?_eq_some_iff.1 hhead
    cases rest with
    | nil => exact hne hs
    | cons piece rest => exact hroot piece rest hs

theorem namesIn_ofBody (hlead : lead = none ∨ lead = some .root ∨ lead = some .here)
    (h : ∀ piece ∈ pieces, '/' ∉ piece) :
    namesIn (ofBody lead pieces).text.toList = pieces.filter (!isFiller ·) := by
  have hrest := namesIn_intercalate h
  obtain rfl | rfl | rfl := hlead
  · simpa [ofBody] using hrest
  · have hjoined : (ofBody (some .root) pieces).text.toList = [] ++ '/' :: ['/'].intercalate pieces := by
      simp [ofBody, String.toList_append]
    rw [hjoined, namesIn_append_slash, hrest]
    rfl
  · by_cases hempty : pieces = []
    · rw [hempty]
      rfl
    · have hjoined : (ofBody (some .here) pieces).text.toList =
          ['.'] ++ '/' :: ['/'].intercalate pieces := by
        simp [ofBody, hempty, Component.text, String.toList_append]
      rw [hjoined, namesIn_append_slash, hrest]
      rfl

theorem isAbsolute_ofBody (hlead : lead = none ∨ lead = some .root ∨ lead = some .here)
    (hfirst : lead = none → ∀ piece ∈ pieces.head?, piece ≠ [] ∧ '/' ∉ piece) :
    (ofBody lead pieces).isAbsolute = true ↔ lead = some .root := by
  obtain rfl | rfl | rfl := hlead
  · refine iff_of_false ?_ (by simp)
    cases pieces with
    | nil => simp [ofBody, isAbsolute]
    | cons first rest =>
        obtain ⟨hne, hslash⟩ := hfirst rfl first rfl
        obtain ⟨c, cs, rfl⟩ := List.exists_cons_of_ne_nil hne
        have hc : c ≠ '/' := fun he => hslash (by simp [he])
        cases rest <;> simp [ofBody, isAbsolute, List.intercalate_cons_cons, hc]
  · simp [ofBody, isAbsolute, String.toList_append]
  · refine iff_of_false ?_ (by simp)
    by_cases hempty : pieces = []
    · simp [ofBody, isAbsolute, hempty, Component.text]
    · simp [ofBody, isAbsolute, hempty, Component.text, String.toList_append]

/-- A path with a parent is a dot, or its body has a last name, which the parent leaves out. -/
theorem parent?_cases (h : p.parent? = some q) :
    (p.body.1 = some .here ∧ withoutFillers p.body.2 = [] ∧ q = ⟨""⟩) ∨
      withoutFillers p.body.2 ≠ [] ∧
        q = ofBody p.body.1 (withoutFillers (withoutFillers p.body.2).dropLast) := by
  unfold parent? at h
  simp only at h
  cases hw : withoutFillers p.body.2 with
  | nil =>
      rw [hw] at h
      obtain hlead | hlead | hlead := body_fst_cases p
      · rw [hlead] at h
        cases h
      · rw [hlead] at h
        cases h
      · rw [hlead] at h
        exact .inl ⟨hlead, rfl, (Option.some.inj h).symm⟩
  | cons first rest =>
      rw [hw] at h
      exact .inr ⟨List.cons_ne_nil first rest, (Option.some.inj h).symm⟩

theorem way_eq (p : Path) : p.way = ((withoutFillers p.body.2).filter (!isFiller ·)).map String.ofList := by
  rw [filter_withoutFillers, filter_body, way, namesIn]

theorem way_parent? (h : p.parent? = some q) : q.way = p.way.dropLast := by
  obtain ⟨-, hw, rfl⟩ | ⟨hw, rfl⟩ := parent?_cases h
  · -- a dot has no names, and neither has its parent
    rw [way_eq p, hw]
    rfl
  · have hslash : ∀ piece ∈ withoutFillers (withoutFillers p.body.2).dropLast, '/' ∉ piece :=
      fun piece hp => slash_not_mem_body ((withoutFillers_isPrefix p.body.2).subset
        (List.dropLast_subset _ ((withoutFillers_isPrefix _).subset hp)))
    obtain ⟨init, last, hsplit⟩ : ∃ init last, withoutFillers p.body.2 = init ++ [last] :=
      ⟨_, _, (List.dropLast_concat_getLast hw).symm⟩
    have hlast : isFiller last = false := by
      have hl := isFiller_getLast_withoutFillers hw
      simpa [hsplit] using hl
    rw [way, namesIn_ofBody (body_fst_cases p) hslash, filter_withoutFillers, way_eq, hsplit,
      List.dropLast_concat, List.filter_append]
    simp [hlast]

theorem isAbsolute_parent? (h : p.parent? = some q) : q.isAbsolute = p.isAbsolute := by
  obtain ⟨hlead, -, rfl⟩ | ⟨hw, rfl⟩ := parent?_cases h
  · have hp : p.isAbsolute = false := by
      rw [← Bool.not_eq_true, ← body_fst_eq_root, hlead]
      nofun
    rw [hp]
    rfl
  · rw [Bool.eq_iff_iff, ← body_fst_eq_root p]
    refine isAbsolute_ofBody (body_fst_cases p) fun hlead piece hpiece => ?_
    have hprefix : withoutFillers (withoutFillers p.body.2).dropLast <+: p.body.2 :=
      (withoutFillers_isPrefix _).trans ((List.dropLast_prefix _).trans (withoutFillers_isPrefix _))
    have hhead : piece ∈ p.body.2.head? := by
      obtain ⟨rest, hrest⟩ := hprefix
      rw [← hrest, List.head?_append, hpiece]
      rfl
    refine ⟨?_, slash_not_mem_body (List.mem_of_mem_head? hhead)⟩
    rintro rfl
    refine body_of_lead_none hlead (fun hbody => hw ?_) hhead
    rw [hbody]
    rfl

end SketchPrep.Path
