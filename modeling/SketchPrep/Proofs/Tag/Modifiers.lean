import SketchPrep.Proofs.Text.Occurrence
import SketchPrep.Prototype

namespace SketchPrep

namespace Tag

/-- The code is a declaration of the symbol after some words of its own, whatever follows. -/
def DeclaredAfter (words : String) (t : Tag) : Prop :=
  ∃ rest, t.code = words ++ " " ++ t.returnType.getD "" ++ " " ++ t.name ++ t.signature.getD "" ++ rest

variable {t : Tag} {words : String} {before after : List Tag}

theorem DeclaredAfter.toList_code (h : t.DeclaredAfter words) :
    ∃ rest, t.code.toList = words.toList ++ ' ' :: rest := by
  obtain ⟨rest, hcode⟩ := h
  refine ⟨(t.returnType.getD "" ++ " " ++ t.name ++ t.signature.getD "" ++ rest).toList, ?_⟩
  rw [hcode]
  simp [String.toList_append]

theorem occurs_head_iff (hname : t.name ≠ "") (hblank : ' ' ∉ t.name.toList) (h : t.DeclaredAfter words) :
    Text.occurs (words ++ " ").toList t.head = true ↔ ¬ t.name.toList <:+: words.toList := by
  obtain ⟨rest, hcode⟩ := h.toList_code
  have hwords : (words ++ " ").toList = words.toList ++ [' '] := by rw [String.toList_append]; rfl
  rw [Text.occurs_iff, hwords, head, hcode]
  by_cases hin : t.name.toList <:+: words.toList
  · refine iff_of_false ?_ (not_not_intro hin)
    obtain ⟨x, y, hxy⟩ := hin
    cases hcut : Text.cut t.name.toList (words.toList ++ ' ' :: rest) with
    | none =>
        refine absurd ?_ (Text.cut_eq_none_iff.1 hcut)
        exact ⟨x, y ++ ' ' :: rest, by rw [← hxy]; simp⟩
    | some found =>
        -- the cut is inside the words, and what is before it is too short for them
        obtain ⟨-, hfirst⟩ := Text.cut_eq_some hcut
        have hle : found.1.length ≤ x.length := hfirst x (y ++ ' ' :: rest) (by rw [← hxy]; simp)
        have hlength := congrArg List.length hxy
        have hpos : 0 < t.name.toList.length := List.length_pos_iff.2 (by simpa using hname)
        intro hocc
        have hshort := hocc.length_le
        simp only [List.length_append, List.length_singleton] at hshort hlength
        omega
  · refine iff_of_true ?_ hin
    rw [Text.cut_append_cons hblank hin]
    cases Text.cut t.name.toList rest with
    | none => exact ⟨[], rest, by simp⟩
    | some found => exact ⟨[], found.1, by simp⟩

theorem isTemplate_eq_false (hwords : words.toList.head?.any (· != 't') = true)
    (htype : ∀ r ∈ t.returnType, ¬ templateWord <+: r.toList) (h : t.DeclaredAfter words) :
    t.isTemplate = false := by
  have hcode : ¬ templateWord <+: t.code.toList := by
    obtain ⟨rest, hcode⟩ := h.toList_code
    rw [hcode]
    cases hw : words.toList with
    | nil => simp [hw] at hwords
    | cons c w =>
        have hc : c ≠ 't' := by simpa [hw] using hwords
        intro hp
        exact hc (List.cons_prefix_cons.1 hp).1.symm
  unfold isTemplate
  rw [Bool.or_eq_false_iff]
  constructor
  · cases hr : t.returnType with
    | none => rfl
    | some r => simpa [List.isPrefixOf_iff_prefix, ← Bool.not_eq_true] using htype r hr
  · simpa [List.isPrefixOf_iff_prefix, ← Bool.not_eq_true] using hcode

theorem modifiers_declare (h : t.isTemplate = false) : t.declare.modifiers =
    { isStatic := Text.occurs (staticWord ++ " ").toList t.head
      cLinkage := Text.occurs (cLinkageWords ++ " ").toList t.head } := by
  rw [declare, h]
  rfl

theorem addPrototypes_append_cons (h : t.skip = none) :
    addPrototypes (before ++ t :: after) = addPrototypes before ++ t.declare :: addPrototypes after := by
  have hskipped : t.isSkipped = false := by rw [isSkipped, h]; rfl
  simp [addPrototypes, hskipped]

end Tag

open Tag

theorem Prototype.declaration_of_isStatic {p : Prototype} (h : p.modifiers.isStatic = true) :
    (staticWord ++ " ").toList <+: p.declaration.toList := by
  obtain ⟨name, file, text, ⟨isStatic, cLinkage⟩, line⟩ := p
  obtain rfl : isStatic = true := h
  cases cLinkage with
  | false => exact ⟨text.toList, by simp [declaration, Modifiers.none, Modifiers.text, String.toList_append]⟩
  | true =>
      exact ⟨(cLinkageWords ++ " " ++ text).toList, by
        simp [declaration, Modifiers.none, Modifiers.text, String.toList_append]⟩

namespace Tag

variable {t : Tag} {before after : List Tag}

/-- A function whose code begins with `static` or with the words of C linkage is known to have this modifier
exactly if its name is no part of these words. -/
theorem addPrototypes_modifiers (hskip : t.skip = none) (hname : t.name ≠ "")
    (hblank : ' ' ∉ t.name.toList) (htype : ∀ r ∈ t.returnType, ¬ templateWord <+: r.toList) :
    addPrototypes (before ++ t :: after) = addPrototypes before ++ t.declare :: addPrototypes after ∧
      (t.DeclaredAfter staticWord →
        (t.declare.modifiers.isStatic = true ↔ ¬ t.name.toList <:+: staticWord.toList) ∧
          (t.declare.modifiers.isStatic = true →
            (staticWord ++ " ").toList <+: (Prototype.ofTag t.declare).declaration.toList)) ∧
      (t.DeclaredAfter cLinkageWords →
        (t.declare.modifiers.cLinkage = true ↔ ¬ t.name.toList <:+: cLinkageWords.toList)) := by
  refine ⟨addPrototypes_append_cons hskip, fun h => ⟨?_, ?_⟩, fun h => ?_⟩
  · rw [modifiers_declare (isTemplate_eq_false (by decide) htype h)]
    exact occurs_head_iff hname hblank h
  · exact Prototype.declaration_of_isStatic (p := .ofTag t.declare)
  · rw [modifiers_declare (isTemplate_eq_false (by decide) htype h)]
    exact occurs_head_iff hname hblank h

def staticProcedure (name : String) : Tag :=
  { bare name "/Blink/Blink.ino" with
    kind := .function
    line := 1
    code := "static void " ++ name ++ "() \x7b"
    signature := some "()"
    returnType := some "void" }

theorem staticProcedure_declaredAfter (name : String) : (staticProcedure name).DeclaredAfter staticWord :=
  ⟨" \x7b", by simp [staticProcedure, bare, staticWord, String.append_assoc]⟩

theorem addPrototypes_modifiers_tick :
    (staticProcedure "tick").skip = none ∧ (staticProcedure "tick").DeclaredAfter staticWord ∧
      (staticProcedure "tick").declare.modifiers.isStatic = true := by
  have hcode := staticProcedure_declaredAfter "tick"
  have hmodifiers := @addPrototypes_modifiers (staticProcedure "tick") [] [] rfl (by decide) (by decide) (by decide)
  exact ⟨rfl, hcode, (hmodifiers.2.1 hcode).1.2 (by decide +kernel)⟩

/-- A name that is a part of `static` hides the modifier. -/
theorem isStatic_hidden_by_name :
    (staticProcedure "t").skip = none ∧ (staticProcedure "t").DeclaredAfter staticWord ∧
      (addPrototypes [staticProcedure "t"]).map (·.modifiers.isStatic) = [false] :=
  ⟨rfl, staticProcedure_declaredAfter "t", by decide +kernel⟩

end Tag

end SketchPrep
