import SketchPrep.Library.Basic
import SketchPrep.Proofs.Text.Pieces

namespace SketchPrep.Architectures

open Text

def parts (value : String) : List String := (value.toList.splitOn ',').map fun piece => String.ofList (trim piece)

def named (value : String) : List String := (parts value).filter (· ≠ "")

structure IsId (id : String) : Prop where
  nonempty : id ≠ ""
  trimmed : trim id.toList = id.toList
  comma_not_mem : ',' ∉ id.toList

variable {value id : String} {ids : List String}

theorem parse_eq (value : String) :
    parse value = if named value = [] ∨ "*" ∈ named value then .any else .only (named value) := by
  have hnamed : (((value.toList.splitOn ',').map trim).filter (!·.isEmpty)).map String.ofList = named value := by
    have hparts : parts value = ((value.toList.splitOn ',').map trim).map String.ofList := by
      rw [List.map_map]
      rfl
    rw [named, hparts, List.filter_map (f := String.ofList)]
    apply congrArg (List.map String.ofList)
    refine List.filter_congr fun piece _ => ?_
    cases piece <;> simp
  have hstar : ['*'] ∈ ((value.toList.splitOn ',').map trim).filter (!·.isEmpty) ↔ "*" ∈ named value := by
    rw [← hnamed]
    exact (List.mem_map_of_injective fun _ _ => String.ofList_inj.1).symm
  unfold parse
  simp only [Bool.or_eq_true, List.isEmpty_iff, List.contains_iff_mem, hstar, ← hnamed, List.map_eq_nil_iff]

theorem mem_named : id ∈ named value ↔ id ∈ parts value ∧ id ≠ "" := by simp [named]

theorem isId_of_mem_named (h : id ∈ named value) : IsId id := by
  obtain ⟨hpart, hne⟩ := mem_named.1 h
  obtain ⟨piece, hpiece, rfl⟩ := List.mem_map.1 hpart
  refine ⟨hne, ?_, ?_⟩
  · rw [String.toList_ofList, trim_trim]
  · rw [String.toList_ofList]
    exact fun hcomma => not_mem_of_mem_splitOn hpiece (trim_subset piece hcomma)

theorem parts_intercalate (h : ∀ id ∈ ids, IsId id) (hne : ids ≠ []) : parts (",".intercalate ids) = ids := by
  have htext : (",".intercalate ids).toList = [','].intercalate (ids.map String.toList) := by simp
  have hcommas : ∀ piece ∈ ids.map String.toList, ',' ∉ piece := by
    intro piece hpiece
    obtain ⟨id, hid, rfl⟩ := List.mem_map.1 hpiece
    exact (h id hid).comma_not_mem
  rw [parts, htext, List.splitOn_intercalate ',' hcommas (by simpa using hne), List.map_map]
  refine (List.map_congr_left fun id hid => ?_).trans (List.map_id ids)
  rw [Function.comp_apply, (h id hid).trimmed, String.ofList_toList]
  rfl

theorem named_intercalate (h : ∀ id ∈ ids, IsId id) (hne : ids ≠ []) : named (",".intercalate ids) = ids := by
  rw [named, parts_intercalate h hne, List.filter_eq_self]
  exact fun id hid => by simpa using (h id hid).nonempty

theorem parse_text_parse (value : String) : parse (parse value).text = parse value := by
  rw [parse_eq value]
  split
  · decide
  · rename_i hlist
    have hne : named value ≠ [] := fun he => hlist (.inl he)
    rw [text, parse_eq, named_intercalate (fun id hid => isId_of_mem_named hid) hne, if_neg hlist]

theorem standsForAll_iff : named value = [] ∨ "*" ∈ named value ↔
    "*" ∈ parts value ∨ ∀ part ∈ parts value, part = "" := by
  rw [or_comm, mem_named, and_iff_left (by decide), named, List.filter_eq_nil_iff]
  simp

/-- Architectures are read back from their text, and they support what the parts of that text say. -/
theorem parse_supports (value : String) :
    parse (parse value).text = parse value ∧ ∀ id, id ≠ "" → ((parse value).supports id = true ↔
      id ∈ parts value ∨ "*" ∈ parts value ∨ ∀ part ∈ parts value, part = "") := by
  refine ⟨parse_text_parse value, fun id hid => ?_⟩
  rw [parse_eq, ← standsForAll_iff]
  split
  · rename_i hall
    exact iff_of_true rfl (.inr hall)
  · rename_i hlist
    rw [supports, List.contains_iff_mem, mem_named, and_iff_left hid]
    exact (or_iff_left hlist).symm

theorem parse_supports_avr : "samd" ≠ "" ∧ (parse " avr ,, samd\t").supports "samd" = true ∧
    parse (parse " avr ,, samd\t").text = parse " avr ,, samd\t" := by
  obtain ⟨hback, hsupports⟩ := parse_supports " avr ,, samd\t"
  exact ⟨by decide, (hsupports "samd" (by decide)).2 (.inl (by decide)), hback⟩

end SketchPrep.Architectures
