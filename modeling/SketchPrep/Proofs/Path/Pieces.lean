import SketchPrep.Path.Basic

namespace SketchPrep.Path

def stepOf : Component → Option String
  | .root => none
  | .here => none
  | .up => some ".."
  | .name text => some text

theorem body_cases (p : Path) :
    (∃ piece pieces, p.text.toList.splitOn '/' = [] :: piece :: pieces ∧
      p.body = (some .root, piece :: pieces)) ∨
    (∃ pieces, p.text.toList.splitOn '/' = ['.'] :: pieces ∧ p.body = (some .here, pieces)) ∨
    p.body = (none, p.text.toList.splitOn '/') ∧
      (∀ piece pieces, p.text.toList.splitOn '/' ≠ [] :: piece :: pieces) ∧
      ∀ pieces, p.text.toList.splitOn '/' ≠ ['.'] :: pieces := by
  unfold body
  split
  · rename_i h
    exact absurd h (List.splitOn_ne_nil '/' p.text.toList)
  · rename_i piece pieces h
    exact .inl ⟨piece, pieces, h, rfl⟩
  · rename_i pieces h
    exact .inr (.inl ⟨pieces, h, rfl⟩)
  · rename_i hroot hdot
    exact .inr (.inr ⟨rfl, hroot, hdot⟩)

theorem body_fst_cases (p : Path) : p.body.1 = none ∨ p.body.1 = some .root ∨ p.body.1 = some .here := by
  obtain ⟨_, _, -, hb⟩ | ⟨_, -, hb⟩ | ⟨hb, -⟩ := p.body_cases <;> simp [hb]

theorem filter_body (p : Path) :
    p.body.2.filter (!isFiller ·) = (p.text.toList.splitOn '/').filter (!isFiller ·) := by
  obtain ⟨piece, pieces, hs, hb⟩ | ⟨pieces, hs, hb⟩ | ⟨hb, -⟩ := p.body_cases
  · rw [hs, hb]
    rfl
  · rw [hs, hb]
    rfl
  · rw [hb]

theorem stepOf_ofPiece (piece : List Char) : stepOf (ofPiece piece) = some (String.ofList piece) := by
  unfold ofPiece
  split
  · rename_i h; rw [h]; rfl
  · rfl

theorem filterMap_stepOf_components (p : Path) :
    p.components.filterMap stepOf =
      ((p.text.toList.splitOn '/').filter (!isFiller ·)).map String.ofList := by
  have hlead : p.body.1.toList.filterMap stepOf = [] := by
    obtain hlead | hlead | hlead := body_fst_cases p <;> rw [hlead] <;> rfl
  rw [components, List.filterMap_append, hlead, List.nil_append, filter_body, List.filterMap_map]
  have hstep : stepOf ∘ ofPiece = some ∘ String.ofList := funext stepOf_ofPiece
  rw [hstep, List.filterMap_eq_map]

theorem splitOn_slash_cons (text : List Char) : ∃ piece pieces, ('/' :: text).splitOn '/' = [] :: piece :: pieces := by
  obtain ⟨piece, pieces, hs⟩ := List.exists_cons_of_ne_nil (List.splitOn_ne_nil '/' text)
  refine ⟨piece, pieces, ?_⟩
  rw [List.splitOn_cons_eq_if_modifyHead, hs]
  rfl

theorem body_fst_eq_root (p : Path) : p.body.1 = some .root ↔ p.isAbsolute = true := by
  rw [isAbsolute, beq_iff_eq]
  constructor
  · intro hroot
    obtain ⟨piece, pieces, hs, -⟩ | ⟨_, -, hb⟩ | ⟨hb, -⟩ := p.body_cases
    · have htext : ['/'].intercalate (p.text.toList.splitOn '/') = p.text.toList := List.intercalate_splitOn '/'
      rw [hs] at htext
      rw [← htext]
      rfl
    · rw [hb] at hroot
      cases hroot
    · rw [hb] at hroot
      cases hroot
  · intro hslash
    obtain ⟨text, ht⟩ := List.head?_eq_some_iff.1 hslash
    obtain ⟨first, rest, hsplit⟩ := splitOn_slash_cons text
    rw [← ht] at hsplit
    obtain ⟨_, _, -, hb⟩ | ⟨_, hs, -⟩ | ⟨-, hno, -⟩ := p.body_cases
    · rw [hb]
    · rw [hsplit] at hs
      cases hs
    · exact absurd hsplit (hno first rest)

theorem root_not_mem_map_ofPiece (pieces : List (List Char)) : Component.root ∉ pieces.map ofPiece := by
  intro h
  obtain ⟨piece, _, he⟩ := List.mem_map.1 h
  unfold ofPiece at he
  split at he <;> cases he

theorem isAbsolute_iff (p : Path) : p.isAbsolute = true ↔ p.components.head? = some .root := by
  rw [← body_fst_eq_root, components]
  cases hb : p.body.1 with
  | some lead => simp
  | none =>
      rw [Option.toList_none, List.nil_append]
      refine ⟨nofun, fun h => ?_⟩
      exact absurd (List.mem_of_mem_head? h) (root_not_mem_map_ofPiece _)

theorem body_of_append {p : Path} {text name : List Char} (h : p.text.toList = text ++ '/' :: name)
    (hn : '/' ∉ name) : ∃ pieces, p.body.2 = pieces ++ [name] := by
  have hsplit : p.text.toList.splitOn '/' = text.splitOn '/' ++ [name] := by
    rw [h, List.splitOn_append_cons_self, List.splitOn_eq_singleton hn]
  obtain ⟨first, rest, ht⟩ := List.exists_cons_of_ne_nil (List.splitOn_ne_nil '/' text)
  rw [ht, List.cons_append] at hsplit
  obtain ⟨piece, pieces, hs, hb⟩ | ⟨pieces, hs, hb⟩ | ⟨hb, -⟩ := p.body_cases
  · rw [hsplit] at hs
    exact ⟨rest, by rw [hb, (List.cons.inj hs).2]⟩
  · rw [hsplit] at hs
    exact ⟨rest, by rw [hb, (List.cons.inj hs).2]⟩
  · exact ⟨first :: rest, by rw [hb, hsplit, List.cons_append]⟩

theorem body_of_name {p : Path} (hn : '/' ∉ p.text.toList) (hf : isFiller p.text.toList = false) :
    p.body.2 = [p.text.toList] := by
  have hsplit := List.splitOn_eq_singleton hn
  obtain ⟨piece, pieces, hs, -⟩ | ⟨pieces, hs, -⟩ | ⟨hb, -⟩ := p.body_cases
  · rw [hsplit] at hs
    cases (List.cons.inj hs).2
  · rw [hsplit] at hs
    rw [(List.cons.inj hs).1] at hf
    cases hf
  · rw [hb, hsplit]

theorem fileName?_of_body {p : Path} {pieces : List (List Char)} {name : List Char}
    (h : p.body.2 = pieces ++ [name]) (hf : isFiller name = false) (hu : name ≠ ['.', '.']) :
    p.fileName? = some (String.ofList name) := by
  have hlast : p.components.getLast? = some (.name (String.ofList name)) := by
    rw [components, h, List.filter_append, List.map_append]
    simp [hf, ofPiece, hu]
  rw [fileName?, hlast]

def isPlain (name : String) : Bool :=
  !name.toList.contains '/' && !isFiller name.toList && name != ".."

theorem join_of_empty {p q : Path} (hp : p.text.toList = []) : p.join q = q := by
  have hempty : p.text.isEmpty = true := by simpa using hp
  rw [join, hempty, Bool.or_true]
  rfl

/-- One separator stands between a folder's path and what is read from there. -/
theorem exists_toList_join {p q : Path} (hp : p.text.toList ≠ []) (hq : q.isAbsolute = false) :
    ∃ folder, (p.text.toList = folder ∨ p.text.toList = folder ++ ['/']) ∧
      (p.join q).text.toList = folder ++ '/' :: q.text.toList := by
  have hempty : p.text.isEmpty = false := by simpa using hp
  rw [join, hq, hempty]
  by_cases hlast : p.text.toList.getLast? = some '/'
  · obtain ⟨folder, hfolder⟩ := List.getLast?_eq_some_iff.1 hlast
    refine ⟨folder, .inr hfolder, ?_⟩
    simp [hfolder, String.toList_append]
  · refine ⟨p.text.toList, .inl rfl, ?_⟩
    simp [hlast, String.toList_append]

theorem isAbsolute_of_not_mem {text : String} (h : '/' ∉ text.toList) :
    (⟨text⟩ : Path).isAbsolute = false := by
  cases hs : text.toList with
  | nil => simp [isAbsolute, hs]
  | cons c rest =>
      have hc : c ≠ '/' := fun he => h (by simp [hs, he])
      simp [isAbsolute, hs, hc]

theorem fileName_join (p : Path) {name : String} (h : isPlain name = true) :
    (p / name).fileName = name := by
  obtain ⟨⟨hn, hf⟩, hu⟩ : ('/' ∉ name.toList ∧ isFiller name.toList = false) ∧ name ≠ ".." := by
    simpa [isPlain] using h
  have hdots : name.toList ≠ ['.', '.'] := fun he => hu (String.toList_inj.1 he)
  have hbody : ∃ pieces, (p.join ⟨name⟩).body.2 = pieces ++ [name.toList] := by
    by_cases hp : p.text.toList = []
    · rw [join_of_empty hp]
      exact ⟨[], body_of_name hn hf⟩
    · obtain ⟨folder, -, hjoined⟩ := exists_toList_join hp (isAbsolute_of_not_mem hn)
      exact body_of_append hjoined hn
  obtain ⟨pieces, hb⟩ := hbody
  have hname : (p / name).fileName? = some (String.ofList name.toList) := fileName?_of_body hb hf hdots
  rw [fileName, hname, Option.getD_some, String.ofList_toList]

end SketchPrep.Path
