import Mathlib.Data.List.Infix
import SketchPrep.Proofs.Tag.Lacking
import SketchPrep.Proofs.Tag.Settled
import SketchPrep.Proofs.Text.Occurrence
import SketchPrep.Proofs.Text.Pieces

namespace SketchPrep

namespace Text

def Balanced (s : List Char) : Prop :=
  s.count '(' = s.count ')' ∧ ∀ p, p <+: s → p.count ')' ≤ p.count '('

instance (s : List Char) : Decidable (Balanced s) :=
  decidable_of_iff (s.count '(' = s.count ')' ∧ ∀ p ∈ s.inits, p.count ')' ≤ p.count '(')
    (by simp only [List.mem_inits, Balanced])

theorem Balanced.count_eq {s t : List Char} (h : Balanced (s ++ t)) (ht : ')' ∉ t) :
    s.count '(' = s.count ')' := by
  obtain ⟨hall, hprefix⟩ := h
  have hle := hprefix s (List.prefix_append s t)
  have hnone : t.count ')' = 0 := List.count_eq_zero.2 ht
  rw [List.count_append, List.count_append] at hall
  omega

end Text

namespace Tag

open Text

variable {source : String → Option String} {mainFile : Option Path} {listing text : String} {t : Tag}

structure LiesIn (source : String → Option String) (text : String) (t : Tag) : Prop where
  file : source t.file = some text
  line_pos : 0 < t.line
  line : (lines text.toList)[t.line - 1]? = some t.code.toList

def headIn (text : String) (t : Tag) : List Char :=
  (['\n'].intercalate ((lines text.toList).drop (t.line - 1))).takeWhile (· != '{')

def headBelow (text : String) (t : Tag) : List Char := (t.headIn text).drop t.code.toList.length

theorem LiesIn.headIn_eq (h : t.LiesIn source text) :
    t.headIn text = t.code.toList.takeWhile (· != '{') ++ t.headBelow text := by
  obtain ⟨hlt, hline⟩ := List.getElem?_eq_some_iff.1 h.line
  obtain ⟨below, hbelow⟩ := exists_intercalate_cons '\n' t.code.toList
    ((lines text.toList).drop (t.line - 1 + 1))
  have hhead : t.headIn text = (t.code.toList ++ below).takeWhile (· != '{') := by
    rw [headIn, List.drop_eq_getElem_cons hlt, hline, hbelow]
  rw [headBelow, hhead, List.takeWhile_append]
  split
  · rename_i hlength
    have hall : t.code.toList.takeWhile (· != '{') = t.code.toList :=
      (List.takeWhile_prefix _).eq_of_length hlength
    rw [hall, List.drop_left]
  · have hle := (List.takeWhile_prefix (l := t.code.toList) (· != '{')).length_le
    rw [List.drop_eq_nil_of_le hle, List.append_nil]

/-- A declaration ends after the last parenthesis that its line closes. -/
theorem exists_templateDeclaration (code : List Char) : ∃ upTo rest body,
    code.takeWhile (· != '{') = upTo ++ rest ∧ ')' ∉ rest ∧ templateDeclaration code = body ++ [';'] ∧
      body.count '(' = upTo.count '(' ∧ body.count ')' = upTo.count ')' := by
  cases hcut : cutLast ')' (code.takeWhile (· != '{')) with
  | some found =>
      obtain ⟨hsplit, hrest⟩ := cutLast_eq_some hcut
      have htext : templateDeclaration code = found.1 ++ [')', ';'] := by
        simp only [templateDeclaration, hcut]
      exact ⟨found.1 ++ [')'], found.2, found.1 ++ [')'], by simp [hsplit], hrest, by simp [htext], rfl, rfl⟩
  | none =>
      have htext : templateDeclaration code = trimEnd (code.takeWhile (· != '{')) ++ [';'] := by
        simp only [templateDeclaration, hcut]
      exact ⟨_, [], _, (List.append_nil _).symm, List.not_mem_nil, htext, count_trimEnd (by decide) _,
        count_trimEnd (by decide) _⟩

theorem toList_declaration_of_template (h : templateWord <+: t.code.toList) :
    t.declaration.toList = templateDeclaration t.code.toList := by
  have htemplate : t.isTemplate = true := by
    rw [isTemplate, List.isPrefixOf_iff_prefix.2 h, Bool.or_true]
  rw [declaration, declare, if_pos htemplate, String.toList_ofList]

theorem ofTag_mem_ofListing (h : t ∈ left (filter source (parse listing))) :
    Prototype.ofTag t ∈ (Prototype.ofListing source mainFile listing).1 := by
  have hprototype : t.prototype = t.declaration := (settled_filter source _).declaration h
  obtain ⟨hm, hs⟩ := mem_left_iff.1 h
  have hkept : (!t.isSkipped && !(trim t.prototype.toList).isEmpty) = true := by
    rw [hs, hprototype, trim_declaration_isEmpty]
    rfl
  rw [Prototype.fst_ofListing, Prototype.ofTags]
  exact List.mem_map_of_mem (List.mem_filter.2 ⟨hm, hkept⟩)

end Tag

namespace Prototype

open Tag Text

variable {source : String → Option String} {mainFile : Option Path} {listing text : String} {t : Tag}

/-- The declaration of a template whose head is balanced in the source has as many parentheses that close as
ones that open, and all that the head closes, if the head closes none below the template's line. Otherwise
it lacks some of them. -/
theorem ofListing_templateHead (ht : t ∈ left (filter source (parse listing)))
    (htemplate : templateWord <+: t.code.toList) (hlies : t.LiesIn source text)
    (hbalanced : Balanced (t.headIn text)) :
    ofTag t ∈ (ofListing source mainFile listing).1 ∧
      ∃ body, (ofTag t).text.toList = body ++ [';'] ∧
        (')' ∉ t.headBelow text →
          body.count ')' = body.count '(' ∧ body.count ')' = (t.headIn text).count ')') ∧
        (')' ∈ t.headBelow text → body.count ')' < (t.headIn text).count ')') := by
  obtain ⟨upTo, rest, body, hline, hrest, hbody, hopen, hclose⟩ := exists_templateDeclaration t.code.toList
  have htext : (ofTag t).text.toList = body ++ [';'] := by
    rw [ofTag, (settled_filter source _).declaration ht, toList_declaration_of_template htemplate, hbody]
  have hhead : t.headIn text = upTo ++ (rest ++ t.headBelow text) := by
    rw [hlies.headIn_eq, hline, List.append_assoc]
  have hcount : (t.headIn text).count ')' = body.count ')' + (t.headBelow text).count ')' := by
    rw [hhead, List.count_append, List.count_append, List.count_eq_zero.2 hrest, hclose]
    omega
  refine ⟨ofTag_mem_ofListing ht, body, htext, ?_, ?_⟩
  · intro hbelow
    have hclosed : ')' ∉ rest ++ t.headBelow text := by
      rw [List.mem_append, not_or]
      exact ⟨hrest, hbelow⟩
    rw [hhead] at hbalanced
    have hnone : (t.headBelow text).count ')' = 0 := List.count_eq_zero.2 hbelow
    refine ⟨?_, by omega⟩
    rw [hopen, hclose]
    exact (hbalanced.count_eq hclosed).symm
  · intro hbelow
    have hsome : 0 < (t.headBelow text).count ')' := List.count_pos_iff.2 hbelow
    omega

def mostListing (code : String) : String := String.join
  [ "most\t/Blink/Blink.ino\t/^", code,
    "$/;\"\tkind:function\tline:1\tsignature:(T a, T b)\treturntype:T\n" ]

def mostTemplate (code : String) : Tag :=
  { bare "most" "/Blink/Blink.ino" with
    kind := .function, line := 1, code := code, signature := some "(T a, T b)", returnType := some "T" }

def onlySketch (text file : String) : Option String := if file = "/Blink/Blink.ino" then some text else none

def headOnOneLine : String := "template <class T> T most(T a, T b)\n\x7b return a; \x7d\n"

def headOnTwoLines : String := "template <class T> T most(T a,\n  T b) \x7b return a; \x7d\n"

theorem ofListing_templateHead_oneLine :
    let t := (mostTemplate "template <class T> T most(T a, T b)").declare
    let listing := mostListing "template <class T> T most(T a, T b)"
    t ∈ left (filter (onlySketch headOnOneLine) (parse listing)) ∧ templateWord <+: t.code.toList ∧
      t.LiesIn (onlySketch headOnOneLine) headOnOneLine ∧ Balanced (t.headIn headOnOneLine) ∧
      ')' ∉ t.headBelow headOnOneLine ∧ ofTag t ∈ (ofListing (onlySketch headOnOneLine) none listing).1 ∧
      ∃ body, (ofTag t).text.toList = body ++ [';'] ∧ body.count ')' = body.count '(' := by
  intro t listing
  have ht : t ∈ left (filter (onlySketch headOnOneLine) (parse listing)) := by
    show t ∈ left (filter _ (parse (mostListing _)))
    rw [parse, mostListing, String.toList_join]
    decide +kernel
  have htemplate : templateWord <+: t.code.toList := by decide +kernel
  have hlies : t.LiesIn (onlySketch headOnOneLine) headOnOneLine :=
    ⟨by decide +kernel, by decide +kernel, by decide +kernel⟩
  have hbalanced : Balanced (t.headIn headOnOneLine) := by decide +kernel
  have hbelow : ')' ∉ t.headBelow headOnOneLine := by decide +kernel
  obtain ⟨hmem, body, hbody, hcomplete, -⟩ :=
    @ofListing_templateHead _ none _ _ _ ht htemplate hlies hbalanced
  exact ⟨ht, htemplate, hlies, hbalanced, hbelow, hmem, body, hbody, (hcomplete hbelow).1⟩

/-- A head that goes on below the line is cut short in the middle of its parameters. -/
theorem templateHead_cut_short :
    let t := (mostTemplate "template <class T> T most(T a,").declare
    let listing := mostListing "template <class T> T most(T a,"
    t ∈ left (filter (onlySketch headOnTwoLines) (parse listing)) ∧ templateWord <+: t.code.toList ∧
      t.LiesIn (onlySketch headOnTwoLines) headOnTwoLines ∧ Balanced (t.headIn headOnTwoLines) ∧
      ofTag t ∈ (ofListing (onlySketch headOnTwoLines) none listing).1 ∧
      (ofTag t).text = "template <class T> T most(T a,;" ∧
      (ofTag t).text.toList.count '(' = 1 ∧ (ofTag t).text.toList.count ')' = 0 := by
  intro t listing
  have ht : t ∈ left (filter (onlySketch headOnTwoLines) (parse listing)) := by
    show t ∈ left (filter _ (parse (mostListing _)))
    rw [parse, mostListing, String.toList_join]
    decide +kernel
  refine ⟨ht, by decide +kernel, ⟨by decide +kernel, by decide +kernel, by decide +kernel⟩, ?_⟩
  exact ⟨by decide +kernel, ofTag_mem_ofListing ht, by decide +kernel, by decide +kernel, by decide +kernel⟩

end Prototype

end SketchPrep
