import SketchPrep.FileTree.Basic
import SketchPrep.Path.Relative
import SketchPrep.Proofs.Path.Way

namespace SketchPrep

def Location.IsPlain (location : Location) : Prop := ∀ name ∈ location, Path.isPlain name = true

instance (location : Location) : Decidable location.IsPlain :=
  inferInstanceAs (Decidable (∀ name ∈ location, Path.isPlain name = true))

namespace Path

theorem isPlain_iff {name : String} :
    isPlain name = true ↔ '/' ∉ name.toList ∧ isFiller name.toList = false ∧ name ≠ ".." := by
  simp [isPlain, and_assoc]

theorem splitOn_intercalate_append {pieces : List (List Char)} (h : ∀ piece ∈ pieces, '/' ∉ piece)
    (text : List Char) :
    (['/'].intercalate (pieces ++ [text])).splitOn '/' = pieces ++ text.splitOn '/' := by
  induction pieces with
  | nil => rw [List.nil_append, List.intercalate_singleton, List.nil_append]
  | cons piece pieces ih =>
      obtain ⟨hpiece, hpieces⟩ := List.forall_mem_cons.1 h
      rw [List.cons_append, List.intercalate_cons_of_ne_nil (by simp), List.append_assoc,
        List.singleton_append, List.splitOn_append_cons_self, List.splitOn_eq_singleton hpiece, ih hpieces]
      rfl

theorem intercalate_append_singleton {pieces : List (List Char)} (hne : pieces ≠ []) (text : List Char) :
    ['/'].intercalate (pieces ++ [text]) = ['/'].intercalate pieces ++ '/' :: text := by
  induction pieces with
  | nil => exact absurd rfl hne
  | cons piece pieces ih =>
      cases pieces with
      | nil => simp
      | cons next rest =>
          have hrest := ih (List.cons_ne_nil next rest)
          rw [List.cons_append] at hrest
          rw [List.cons_append, List.cons_append, List.intercalate_cons_cons, hrest,
            List.intercalate_cons_cons, List.append_assoc _ _ ('/' :: text)]

theorem withoutFillers_eq {pieces : List (List Char)} (h : ∀ piece ∈ pieces, isFiller piece = false) :
    withoutFillers pieces = pieces := by
  have hdrop : pieces.reverse.dropWhile isFiller = pieces.reverse := by
    cases hr : pieces.reverse with
    | nil => rfl
    | cons last init =>
        have hlast : last ∈ pieces := List.mem_reverse.1 (hr ▸ List.mem_cons_self)
        exact List.dropWhile_cons_of_neg (by rw [h last hlast]; nofun)
  rw [withoutFillers, hdrop, List.reverse_reverse]

theorem ofPiece_of_isPlain {name : String} (h : isPlain name = true) :
    ofPiece name.toList = .name name := by
  obtain ⟨-, -, hup⟩ := isPlain_iff.1 h
  have hne : name.toList ≠ ['.', '.'] := fun he => hup (String.toList_inj.1 he)
  rw [ofPiece, if_neg hne, String.ofList_toList]

theorem slash_not_mem_fileName (p : Path) : '/' ∉ p.fileName.toList := by
  unfold fileName fileName?
  split
  · rename_i name hlast
    have hmem := List.mem_of_getLast? hlast
    rw [components, List.mem_append] at hmem
    rcases hmem with hmem | hmem
    · obtain hlead | hlead | hlead := body_fst_cases p <;> simp [hlead] at hmem
    · obtain ⟨piece, hpiece, he⟩ := List.mem_map.1 hmem
      have hslash := slash_not_mem_body (List.mem_filter.1 hpiece).1
      unfold ofPiece at he
      split at he
      · cases he
      · cases he
        simpa using hslash
  · decide

theorem way_of_isPlain {name : String} (h : isPlain name = true) : (⟨name⟩ : Path).way = [name] := by
  obtain ⟨hslash, hfiller, -⟩ := isPlain_iff.1 h
  rw [way, namesIn, List.splitOn_eq_singleton hslash]
  simp [hfiller]

end Path

namespace Location

open SketchPrep.Path

variable {location names : Location} {name : String}

theorem IsPlain.append (h : location.IsPlain) (hn : names.IsPlain) : IsPlain (location ++ names) :=
  List.forall_mem_append.2 ⟨h, hn⟩

theorem isPlain_singleton : IsPlain [name] ↔ Path.isPlain name = true := by simp [IsPlain]

theorem toList_path (location : Location) :
    location.path.text.toList = '/' :: ['/'].intercalate (location.map String.toList) := by
  simp [path, String.toList_append]

@[simp]
theorem isAbsolute_path (location : Location) : location.path.isAbsolute = true := by
  rw [isAbsolute, toList_path]
  rfl

theorem IsPlain.slash_not_mem (h : location.IsPlain) : ∀ piece ∈ location.map String.toList, '/' ∉ piece := by
  intro piece hpiece
  obtain ⟨name, hname, rfl⟩ := List.mem_map.1 hpiece
  exact (isPlain_iff.1 (h name hname)).1

theorem IsPlain.isFiller (h : location.IsPlain) :
    ∀ piece ∈ location.map String.toList, isFiller piece = false := by
  intro piece hpiece
  obtain ⟨name, hname, rfl⟩ := List.mem_map.1 hpiece
  exact (isPlain_iff.1 (h name hname)).2.1

theorem IsPlain.splitOn_path (h : location.IsPlain) (hne : location ≠ []) :
    location.path.text.toList.splitOn '/' = [] :: location.map String.toList := by
  have hsplit := List.splitOn_append_cons_self (a := '/') [] (['/'].intercalate (location.map String.toList))
  rw [List.splitOn_intercalate '/' h.slash_not_mem (by simpa using hne)] at hsplit
  rw [toList_path]
  exact hsplit

theorem IsPlain.getLast?_path (h : location.IsPlain) (hne : location ≠ []) :
    location.path.text.toList.getLast? ≠ some '/' := by
  intro hlast
  obtain ⟨text, ht⟩ := List.getLast?_eq_some_iff.1 hlast
  have hsplit := h.splitOn_path hne
  rw [ht, List.splitOn_append_cons_self, List.splitOn_nil] at hsplit
  have hmem : [] ∈ location.map String.toList := by
    have hend : (location.map String.toList).getLast? = some [] := by
      rw [← List.getLast?_cons_of_ne_nil (by simpa using hne), ← hsplit, List.getLast?_concat]
    exact List.mem_of_getLast? hend
  exact absurd (h.isFiller [] hmem) (by decide)

theorem toList_join_path (h : location.IsPlain) {text : String} (ht : (⟨text⟩ : Path).isAbsolute = false) :
    (location.path.join ⟨text⟩).text.toList =
      '/' :: ['/'].intercalate (location.map String.toList ++ [text.toList]) := by
  have hempty : location.path.text.isEmpty = false := by
    simp [← String.toList_eq_nil_iff, toList_path]
  rw [join, ht, hempty]
  by_cases hne : location = []
  · subst hne
    simp [toList_path, String.toList_append]
  · have hlast : (location.path.text.toList.getLast? == some '/') = false := by
      simpa using h.getLast?_path hne
    rw [hlast]
    rw [intercalate_append_singleton (by simpa using hne)]
    simp [toList_path, String.toList_append]

theorem path_div (h : location.IsPlain) (hn : Path.isPlain name = true) :
    location.path / name = (location ++ [name]).path := by
  obtain ⟨hslash, -, -⟩ := isPlain_iff.1 hn
  have htext := toList_join_path h (isAbsolute_of_not_mem hslash)
  have hsame : (location.path / name).text = (location ++ [name]).path.text := by
    rw [← String.toList_inj, toList_path, List.map_append]
    exact htext
  exact congrArg Path.mk hsame

theorem components_path (h : location.IsPlain) :
    location.path.components = .root :: location.map Component.name := by
  have hnames : namesIn location.path.text.toList = location.map String.toList := by
    have hjoined : location.path.text.toList = [] ++ '/' :: ['/'].intercalate (location.map String.toList) :=
      toList_path location
    rw [hjoined, namesIn_append_slash, namesIn_intercalate h.slash_not_mem, namesIn_nil, List.nil_append,
      List.filter_eq_self]
    exact fun piece hpiece => by rw [h.isFiller piece hpiece]; rfl
  rw [components, filter_body, (body_fst_eq_root location.path).2 (isAbsolute_path location), ← namesIn,
    hnames, List.map_map]
  exact congrArg (Component.root :: ·)
    (List.map_congr_left fun name hname => ofPiece_of_isPlain (h name hname))

theorem same_path_iff (h : location.IsPlain) (hn : names.IsPlain) :
    location.path.same names.path = true ↔ location = names := by
  rw [Path.same_iff, components_path h, components_path hn, List.cons_inj_right]
  exact List.map_inj_right fun _ _ => Component.name.inj

theorem path_inj (h : location.IsPlain) (hn : names.IsPlain) (he : location.path = names.path) :
    location = names := by
  rw [← same_path_iff h hn, he]
  exact Path.same_refl _

theorem body_path (h : location.IsPlain) (hne : location ≠ []) :
    location.path.body = (some .root, location.map String.toList) := by
  obtain ⟨first, rest, rfl⟩ := List.exists_cons_of_ne_nil hne
  rw [body, h.splitOn_path hne]
  rfl

theorem parent?_path {q : Path} (h : location.IsPlain) (hq : location.path.parent? = some q) :
    q = Location.path location.dropLast := by
  by_cases hne : location = []
  · subst hne
    have hnone : (path []).parent? = none := by decide
    rw [hnone] at hq
    cases hq
  · obtain ⟨hlead, -⟩ | ⟨-, rfl⟩ := parent?_cases hq
    · rw [body_path h hne] at hlead
      cases hlead
    · have hpieces : ∀ piece ∈ (location.map String.toList).dropLast, isFiller piece = false :=
        fun piece hpiece => h.isFiller piece (List.dropLast_subset _ hpiece)
      rw [body_path h hne, withoutFillers_eq h.isFiller, withoutFillers_eq hpieces]
      have htext : (ofBody (some .root) (location.map String.toList).dropLast).text =
          (Location.path location.dropLast).text := by
        rw [← String.toList_inj, toList_path, List.map_dropLast]
        simp [ofBody, String.toList_append]
      exact congrArg Path.mk htext

theorem fileName_path (h : IsPlain (location ++ [name])) : (path (location ++ [name])).fileName = name := by
  obtain ⟨hlocation, hname⟩ := List.forall_mem_append.1 h
  rw [← path_div hlocation (isPlain_singleton.1 hname), Path.fileName_join _ (isPlain_singleton.1 hname)]

theorem parent?_concat (h : IsPlain (location ++ [name])) :
    (path (location ++ [name])).parent? = some location.path := by
  cases hq : (path (location ++ [name])).parent? with
  | some q => rw [parent?_path h hq, List.dropLast_concat]
  | none =>
      obtain ⟨first, rest, hpieces⟩ : ∃ first rest, (location ++ [name]).map String.toList = first :: rest :=
        List.exists_cons_of_ne_nil (by simp)
      have hkept := Path.withoutFillers_eq h.isFiller
      rw [hpieces] at hkept
      rw [Path.parent?, body_path h (by simp), hpieces] at hq
      simp only [hkept] at hq
      cases hq

theorem relativeTo_path (h : location.IsPlain) (hn : names.IsPlain) :
    Path.relativeTo (path (location ++ names)) location.path =
      ofComponents (names.map Component.name) := by
  have hway : ∀ above : List Component, wayTo false (above ++ names.map Component.name) above =
      some (names.map Component.name) := by
    intro above
    induction above with
    | nil => cases names <;> rfl
    | cons c above ih => simp [wayTo, ih]
  have hcomponents : (path (location ++ names)).components =
      (.root :: location.map Component.name) ++ names.map Component.name := by
    rw [components_path (h.append hn), List.map_append]
    rfl
  rw [relativeTo, isAbsolute_path, isAbsolute_path, hcomponents, components_path h, hway]
  rfl

theorem way_foldl_join (hn : names.IsPlain) {p : Path} (hp : p.isAbsolute = false) :
    ((names.map Component.name).foldl (fun p c => p.join ⟨c.text⟩) p).way = p.way ++ names ∧
      ((names.map Component.name).foldl (fun p c => p.join ⟨c.text⟩) p).isAbsolute = false := by
  induction names generalizing p with
  | nil => exact ⟨(List.append_nil p.way).symm, hp⟩
  | cons name rest ih =>
      obtain ⟨hname, hrest⟩ := List.forall_mem_cons.1 hn
      have habs : (⟨name⟩ : Path).isAbsolute = false := isAbsolute_of_not_mem (isPlain_iff.1 hname).1
      obtain ⟨hway, hrel⟩ := ih hrest ((isAbsolute_join habs).trans hp)
      rw [way_join habs, way_of_isPlain hname, List.append_assoc] at hway
      exact ⟨hway, hrel⟩

theorem way_ofComponents (hn : names.IsPlain) :
    (ofComponents (names.map Component.name)).way = names ∧
      (ofComponents (names.map Component.name)).isAbsolute = false := by
  have h := way_foldl_join hn (p := ⟨""⟩) rfl
  have hnone : (⟨""⟩ : Path).way = [] := rfl
  rwa [hnone, List.nil_append] at h

end Location

end SketchPrep
