import Mathlib.Data.List.Infix
import SketchPrep.Proofs.Text.Occurrence
import SketchPrep.Proofs.Text.Pieces
import SketchPrep.Toolchain.MissingHeader

namespace SketchPrep.MissingHeader

open Text

def errorWords : List Char := "fatal error".toList

def absence : String := "No such file or directory"

def plainMessage (name : String) : String := "fatal error: " ++ name ++ ": " ++ absence

def quotedMessage (name : String) : String := "fatal error: '" ++ name ++ "' file not found"

variable {name taken s t w : List Char} {c : Char} {phrase : String}
  {reading : List Char → Option (List Char)}

theorem errorMark_eq : errorMark = "fatal error:".toList := rfl

theorem toList_plainMessage (name : String) : (plainMessage name).toList =
    errorMark ++ ' ' :: (name.toList ++ ':' :: ' ' :: absence.toList) := by
  have hmessage : plainMessage name = "fatal error: " ++ name ++ ": " ++ absence := rfl
  simp [hmessage, errorMark_eq]

theorem toList_quotedMessage (name : String) : (quotedMessage name).toList =
    errorMark ++ ' ' :: '\x27' :: (name.toList ++ '\x27' :: ' ' :: "file not found".toList) := by
  have hmessage : quotedMessage name = "fatal error: '" ++ name ++ "' file not found" := rfl
  simp [hmessage, errorMark_eq]

theorem continues_iff : continues phrase s = true ↔ phrase.toList <+: trimStart s :=
  List.isPrefixOf_iff_prefix

theorem continues_after_space (hphrase : phrase.toList = c :: w) (hc : isBlank c = false) (t : List Char) :
    continues phrase (' ' :: (phrase.toList ++ t)) = true := by
  have hspace (s : List Char) : trimStart (' ' :: s) = trimStart s := rfl
  rw [continues_iff, hspace, hphrase, List.cons_append, trimStart,
    List.dropWhile_cons_of_neg (by simp [hc]), ← List.cons_append]
  exact List.prefix_append (c :: w) t

theorem trimStart_append_cons (hc : isBlank c = false) (s t : List Char) :
    trimStart (s ++ c :: t) = trimStart s ++ c :: t := by
  induction s with
  | nil =>
      rw [List.nil_append, trimStart, List.dropWhile_cons_of_neg (by simp [hc])]
      rfl
  | cons d s ih =>
      rw [trimStart, trimStart] at ih ⊢
      cases hd : isBlank d with
      | true => rw [List.cons_append, List.dropWhile_cons_of_pos hd, List.dropWhile_cons_of_pos hd, ih]
      | false =>
          rw [List.cons_append, List.dropWhile_cons_of_neg (by simp [hd]),
            List.dropWhile_cons_of_neg (by simp [hd]), List.cons_append]

/-- A phrase that is not in a piece of text does not begin there and go on behind its end. -/
theorem not_continues (hphrase : c ∉ phrase.toList) (hc : isBlank c = false)
    (hs : ¬ phrase.toList <:+: s) (t : List Char) : continues phrase (s ++ c :: t) = false := by
  apply Bool.eq_false_iff.2
  intro h
  rw [continues_iff, trimStart_append_cons hc] at h
  have hbegin := prefix_of_prefix_append_cons hphrase h
  exact hs (hbegin.isInfix.trans (List.dropWhile_suffix isBlank).isInfix)

theorem not_infix_of_isBlank (hname : ∀ c ∈ name, isBlank c = false) : ¬ absence.toList <:+: name := by
  intro h
  have hspace : ' ' ∈ name := h.subset (by decide)
  cases hname ' ' hspace

theorem upToColon_append (hname : ∀ c ∈ name, isBlank c = false) (hne : taken ≠ [] ∨ name ≠ [])
    (ht : continues absence t = true) :
    upToColon taken (name ++ ':' :: t) = some (taken.reverse ++ name) := by
  induction name generalizing taken with
  | nil =>
      have htaken : taken.isEmpty = false := by simpa using hne
      rw [absence] at ht
      simp [upToColon, htaken, ht]
  | cons c name ih =>
      obtain ⟨hc, hrest⟩ := List.forall_mem_cons.1 hname
      have hno := not_continues (c := ':') (by decide) (by decide) (not_infix_of_isBlank hrest) t
      rw [absence] at hno
      rw [List.cons_append, upToColon, hno, Bool.and_false, if_neg Bool.false_ne_true, hc,
        if_neg Bool.false_ne_true, ih hrest (.inl (List.cons_ne_nil c taken))]
      simp

theorem upToColon_eq_none (hs : ¬ absence.toList <:+: s) (taken t : List Char) :
    upToColon taken (s ++ '\x27' :: ' ' :: t) = none := by
  induction s generalizing taken with
  | nil =>
      have hquote : isBlank '\x27' = false := rfl
      have hspace : isBlank ' ' = true := rfl
      simp [upToColon, hquote, hspace]
  | cons c s ih =>
      have hrest : ¬ absence.toList <:+: s := not_infix_of_cons hs
      have hno := not_continues (c := '\x27') (by decide) (by decide) hrest (' ' :: t)
      rw [absence] at hno
      rw [List.cons_append, upToColon, hno, Bool.and_false, if_neg Bool.false_ne_true, ih hrest]
      split <;> rfl

theorem plainName_eq_none (hs : ¬ absence.toList <:+: s) (t : List Char) :
    plainName (s ++ '\x27' :: ' ' :: t) = none := by
  rw [plainName, trimStart_append_cons (by decide)]
  apply upToColon_eq_none
  exact fun h => hs (h.trans (List.dropWhile_suffix isBlank).isInfix)

theorem afterMark_cons (h : ∀ t, errorMark ++ t = c :: s → reading t = none) :
    afterMark reading (c :: s) = afterMark reading s := by
  rw [afterMark]
  cases hp : errorMark.isPrefixOf? (c :: s) with
  | none => rfl
  | some t => rw [Option.bind_some, h t (List.isPrefixOf?_eq_some_iff_append_eq.1 hp)]

theorem afterMark_eq_none (h : ¬ errorMark <:+: s) : afterMark reading s = none := by
  induction s with
  | nil => rfl
  | cons c s ih =>
      rw [List.infix_cons_iff, not_or] at h
      rw [afterMark_cons fun t ht => absurd ⟨t, ht⟩ h.1, ih h.2]

theorem afterMark_mark (reading : List Char → Option (List Char)) (s : List Char) :
    afterMark reading (errorMark ++ s) = (reading s).or (afterMark reading s) := by
  -- no mark begins inside another one
  have hpass {c : Char} (hc : 'f' ≠ c) (t : List Char) :
      afterMark reading (c :: t) = afterMark reading t :=
    afterMark_cons fun _ ht => absurd (List.cons.inj ht).1 hc
  have htail : afterMark reading ("atal error:".toList ++ s) = afterMark reading s := by
    simp [hpass]
  have hbegin : errorMark.isPrefixOf? ('f' :: ("atal error:".toList ++ s)) = some s :=
    List.isPrefixOf?_eq_some_iff_append_eq.2 rfl
  have hcons : errorMark ++ s = 'f' :: ("atal error:".toList ++ s) := rfl
  rw [hcons, afterMark, hbegin, Option.bind_some, htail]
  cases reading s <;> rfl

theorem afterMark_of_cut {before : List Char} (h : cut errorMark s = some (before, t)) :
    afterMark reading s = (reading t).or (afterMark reading t) := by
  induction s generalizing before with
  | nil => cases h
  | cons c s ih =>
      by_cases hp : errorMark <+: c :: s
      · obtain ⟨rest, hrest⟩ := hp
        rw [← hrest, cut_append] at h
        cases h
        rw [← hrest, afterMark_mark]
      · rw [cut_cons hp] at h
        obtain ⟨⟨b, a⟩, hcut, he⟩ := Option.map_eq_some_iff.1 h
        cases he
        rw [afterMark_cons fun t ht => absurd ⟨t, ht⟩ hp, ih hcut]

theorem not_mark_of_not_words (h : ¬ errorWords <:+: s) : ¬ errorMark <:+: s := by
  intro hmark
  have hwords : errorWords <+: errorMark := ⟨[':'], rfl⟩
  exact h (hwords.isInfix.trans hmark)

theorem afterMark_append (hs : ¬ errorWords <:+: s) (t : List Char) :
    afterMark reading (s ++ (errorMark ++ t)) = (reading t).or (afterMark reading t) := by
  have hcut : cut errorMark (s ++ (errorMark ++ t)) = some (s, t) :=
    cut_append_word (c := 'f') (w := "atal error:".toList) (by decide) (not_mark_of_not_words hs) t
  exact afterMark_of_cut hcut

/-- No plain name stands in a piece of text that a quote and a blank follow. -/
theorem afterMark_plainName_eq_none (hs : ¬ absence.toList <:+: s)
    (ht : ¬ errorMark <:+: '\x27' :: ' ' :: t) :
    afterMark plainName (s ++ '\x27' :: ' ' :: t) = none := by
  induction s with
  | nil => exact afterMark_eq_none ht
  | cons c s ih =>
      have hrest : ¬ absence.toList <:+: s := not_infix_of_cons hs
      have hmark : ∀ u, errorMark ++ u = c :: (s ++ '\x27' :: ' ' :: t) → plainName u = none := by
        intro u hu
        have hp : errorMark <+: c :: s :=
          prefix_of_prefix_append_cons (x := c :: s) (by decide) ⟨u, hu⟩
        obtain ⟨v, hv⟩ := hp
        have huv : u = v ++ '\x27' :: ' ' :: t := by
          rw [← List.cons_append, ← hv, List.append_assoc] at hu
          exact List.append_cancel_left hu
        rw [huv]
        apply plainName_eq_none
        exact fun h => hs (h.trans (hv ▸ (List.suffix_append errorMark v).isInfix))
      rw [List.cons_append, afterMark_cons hmark, ih hrest]

theorem quotedName_eq (hne : name ≠ []) (hquote : '\x27' ∉ name) (t : List Char) :
    quotedName (' ' :: '\x27' :: (name ++ '\x27' :: ' ' :: ("file not found".toList ++ t))) = some name := by
  have hstart (s : List Char) : trimStart (' ' :: '\x27' :: s) = '\x27' :: s := rfl
  have hcut (s : List Char) : cut ['\x27'] (name ++ '\x27' :: s) = some (name, s) :=
    cut_append_word List.not_mem_nil (by rwa [List.singleton_infix_iff]) s
  have hname : name.isEmpty = false := by simpa using hne
  have hgoes : continues "file not found" (' ' :: ("file not found".toList ++ t)) = true :=
    continues_after_space rfl rfl t
  rw [quotedName, hstart]
  simp only [hcut, hname, hgoes, Bool.not_false, Bool.and_self, if_true]

theorem not_mark_behind_quote (h : ¬ errorWords <:+: t) :
    ¬ errorMark <:+: '\x27' :: ' ' :: ("file not found".toList ++ t) := by
  have hmark := not_mark_of_not_words h
  simpa [errorMark_eq, List.infix_cons_iff, List.cons_prefix_cons] using hmark

theorem plainName_eq (hne : name ≠ []) (hname : ∀ c ∈ name, isBlank c = false) (t : List Char) :
    plainName (' ' :: (name ++ ':' :: ' ' :: (absence.toList ++ t))) = some name := by
  have hspace (s : List Char) : trimStart (' ' :: s) = trimStart s := rfl
  have hstart : trimStart name = name :=
    trimStart_eq_self_iff.2 fun c hc => hname c (List.mem_of_head? hc)
  rw [plainName, hspace, trimStart_append_cons rfl, hstart]
  exact upToColon_append hname (.inr hne) (continues_after_space rfl rfl t)

theorem find?_of_reading {output name : String} (htrim : trim name.toList = name.toList)
    (h : afterMark plainName output.toList = some name.toList ∨
      afterMark plainName output.toList = none ∧ afterMark quotedName output.toList = some name.toList) :
    find? output = some name := by
  have hname : String.ofList (trim name.toList) = name := by rw [htrim, String.ofList_toList]
  obtain hplain | ⟨hplain, hquoted⟩ := h
  · rw [find?, hplain]
    exact congrArg some hname
  · rw [find?, hplain, hquoted]
    exact congrArg some hname

theorem find?_of_plain {name before after : String} (hne : name.toList ≠ [])
    (hname : ∀ c ∈ name.toList, isBlank c = false) (hbefore : ¬ errorWords <:+: before.toList) :
    find? (before ++ plainMessage name ++ after) = some name := by
  have houtput : (before ++ plainMessage name ++ after).toList =
      before.toList ++ (errorMark ++ ' ' :: (name.toList ++ ':' :: ' ' :: (absence.toList ++ after.toList))) := by
    simp [toList_plainMessage]
  have hread : afterMark plainName (before ++ plainMessage name ++ after).toList = some name.toList := by
    rw [houtput, afterMark_append hbefore, plainName_eq hne hname, Option.some_or]
  apply find?_of_reading _ (.inl hread)
  rw [trim_eq_self_iff]
  exact ⟨fun c hc => hname c (List.mem_of_head? hc), fun c hc => hname c (List.mem_of_getLast? hc)⟩

theorem find?_of_quoted {name before after : String} (hne : name.toList ≠ [])
    (htrim : trim name.toList = name.toList) (hquote : '\x27' ∉ name.toList)
    (habsence : ¬ absence.toList <:+: name.toList) (hbefore : ¬ errorWords <:+: before.toList)
    (hafter : ¬ errorWords <:+: after.toList) :
    find? (before ++ quotedMessage name ++ after) = some name := by
  have houtput : (before ++ quotedMessage name ++ after).toList =
      before.toList ++ (errorMark ++ (' ' :: '\x27' :: name.toList ++
        '\x27' :: ' ' :: ("file not found".toList ++ after.toList))) := by
    simp [toList_quotedMessage]
  have hopened : ¬ absence.toList <:+: ' ' :: '\x27' :: name.toList := by
    simpa [absence, List.infix_cons_iff, List.cons_prefix_cons] using habsence
  -- the name itself may hold marks, so the first wording is ruled out behind each of them
  have hplain : afterMark plainName (before ++ quotedMessage name ++ after).toList = none := by
    rw [houtput, afterMark_append hbefore, plainName_eq_none hopened,
      afterMark_plainName_eq_none hopened (not_mark_behind_quote hafter), Option.or_none]
  have hquoted : afterMark quotedName (before ++ quotedMessage name ++ after).toList = some name.toList := by
    rw [houtput, afterMark_append hbefore, List.cons_append, List.cons_append, quotedName_eq hne hquote,
      Option.some_or]
  exact find?_of_reading htrim (.inr ⟨hplain, hquoted⟩)

theorem find?_eq_none {text : String} (h : ¬ errorWords <:+: text.toList) : find? text = none := by
  have hno : occurs "fatal error".toList text.toList = false := Bool.eq_false_iff.2 (occurs_iff.not.2 h)
  have hmark := not_mark_of_not_words h
  rw [find?, afterMark_eq_none hmark, afterMark_eq_none hmark, hno]
  rfl

/-- A header is found under the very name that a message gives it, and none without an error. -/
theorem find?_named :
    (∀ name before after : String, name ≠ "" → (∀ c ∈ name.toList, isBlank c = false) →
      ¬ errorWords <:+: before.toList → find? (before ++ plainMessage name ++ after) = some name) ∧
    (∀ name before after : String, name ≠ "" → trim name.toList = name.toList →
      '\x27' ∉ name.toList → ¬ absence.toList <:+: name.toList →
      ¬ errorWords <:+: before.toList → ¬ errorWords <:+: after.toList →
      find? (before ++ quotedMessage name ++ after) = some name) ∧
    ∀ text : String, ¬ errorWords <:+: text.toList → find? text = none := by
  have hlist {name : String} (hne : name ≠ "") : name.toList ≠ [] := fun h => hne (String.toList_eq_nil_iff.1 h)
  refine ⟨?_, ?_, fun text h => find?_eq_none h⟩
  · intro name before after hne hname hbefore
    exact find?_of_plain (hlist hne) hname hbefore
  · intro name before after hne htrim hquote habsence hbefore hafter
    exact find?_of_quoted (hlist hne) htrim hquote habsence hbefore hafter

/-- Names with a colon, a quote, and the beginning of a message in them, among other messages. -/
theorem find?_named_among :
    find? ("note: 'a.h' file not found\n" ++ plainMessage "c:/it's:a.h" ++ "\nfatal error: b.h") =
        some "c:/it's:a.h" ∧
      find? ("b.h: No such file or directory\n" ++ quotedMessage "my fatal error: b.h" ++
          ": No such file or directory") = some "my fatal error: b.h" ∧
      find? "error: 'a.h' file not found\n#include <a.h>" = none := by
  obtain ⟨hplain, hquoted, hnone⟩ := find?_named
  have hname : ∀ c ∈ "c:/it's:a.h".toList, isBlank c = false := by simp [isBlank]
  refine ⟨?_, ?_, ?_⟩
  · exact hplain "c:/it's:a.h" _ _ (by decide) hname (by decide)
  · apply hquoted <;> decide
  · exact hnone _ (by decide)

end SketchPrep.MissingHeader
