import Mathlib.Data.List.Induction
import Mathlib.Data.List.Infix
import SketchPrep.Properties
import SketchPrep.Proofs.Dictionary
import SketchPrep.Proofs.Text.Occurrence
import SketchPrep.Proofs.Text.Pieces

namespace SketchPrep.Properties

open Text

def Silent (line : List Char) : Prop := line = [] ∨ line.head? = some '#'

def Broken (line : List Char) : Prop := ¬ Silent line ∧ '=' ∉ line

def Sets (line : List Char) (key value : String) : Prop :=
  ¬ Silent line ∧ ∃ before after, line = before ++ '=' :: after ∧ '=' ∉ before ∧
    key = String.ofList (trim before) ∧ value = String.ofList (trim after)

def LastSets (lines : List (List Char)) (key value : String) : Prop :=
  ∃ above line below, lines = above ++ line :: below ∧ Sets line key value ∧
    ∀ l ∈ below, ∀ other, ¬ Sets l key other

variable {line : List Char} {lines rows : List (List Char)} {ps : Properties} {key value : String}

theorem saysNothing_iff : saysNothing line = true ↔ Silent line := by
  simp [saysNothing, Silent]

theorem property?_eq_none_iff : property? line = none ↔ '=' ∉ line := by
  rw [property?, Option.map_eq_none_iff, cut_eq_none_iff, List.singleton_infix_iff]

theorem property?_append {before : List Char} (h : '=' ∉ before) (after : List Char) :
    property? (before ++ '=' :: after) =
      some (String.ofList (trim before), String.ofList (trim after)) := by
  have hcut : cut ['='] (before ++ (['='] ++ after)) = some (before, after) :=
    cut_append_word List.not_mem_nil (by rwa [List.singleton_infix_iff]) after
  exact congrArg (Option.map _) hcut

theorem property?_eq_some_iff : property? line = some (key, value) ↔
    ∃ before after, line = before ++ '=' :: after ∧ '=' ∉ before ∧
      key = String.ofList (trim before) ∧ value = String.ofList (trim after) := by
  constructor
  · intro h
    obtain ⟨⟨before, after⟩, hcut, he⟩ := Option.map_eq_some_iff.1 h
    obtain ⟨hline, hfirst⟩ := cut_eq_some hcut
    cases he
    refine ⟨before, after, by simpa using hline, fun hm => ?_, rfl, rfl⟩
    -- an earlier equals sign would be where the line is cut
    obtain ⟨x, y, rfl⟩ := List.append_of_mem hm
    have hle := hfirst x (y ++ '=' :: after) (by simp [hline])
    rw [List.length_append, List.length_cons] at hle
    omega
  · rintro ⟨before, after, rfl, hbefore, rfl, rfl⟩
    exact property?_append hbefore after

def enter (ps : Properties) (line : List Char) : Properties :=
  match (if saysNothing line then none else property? line) with
  | some (key, value) => ps.insert key value
  | none => ps

theorem enter_cases (ps : Properties) (line : List Char) :
    (∃ key value, Sets line key value ∧ (∀ k v, Sets line k v → k = key ∧ v = value) ∧
      enter ps line = ps.insert key value) ∨
    (∀ key value, ¬ Sets line key value) ∧ enter ps line = ps := by
  by_cases hs : Silent line
  · right
    refine ⟨fun key value h => h.1 hs, ?_⟩
    rw [enter, if_pos (saysNothing_iff.2 hs)]
  · have hspeaks : ¬ saysNothing line = true := fun h => hs (saysNothing_iff.1 h)
    cases hp : property? line with
    | none =>
        right
        refine ⟨fun key value h => ?_, ?_⟩
        · have hsome := property?_eq_some_iff.2 h.2
          rw [hp] at hsome
          cases hsome
        · rw [enter, if_neg hspeaks, hp]
    | some entry =>
        obtain ⟨key, value⟩ := entry
        left
        refine ⟨key, value, ⟨hs, property?_eq_some_iff.1 hp⟩, fun k v h => ?_, ?_⟩
        · have hsome := property?_eq_some_iff.2 h.2
          rw [hp] at hsome
          cases hsome
          exact ⟨rfl, rfl⟩
        · rw [enter, if_neg hspeaks, hp]

theorem ordered_enter (h : ps.Ordered) (line : List Char) : (enter ps line).Ordered := by
  rcases enter_cases ps line with ⟨key, value, -, -, he⟩ | ⟨-, he⟩
  · rw [he]
    exact h.insert key value
  · rwa [he]

theorem find?_enter (ps : Properties) (line : List Char) (key value : String) :
    (enter ps line).find? key = some value ↔
      Sets line key value ∨ (∀ other, ¬ Sets line key other) ∧ ps.find? key = some value := by
  rcases enter_cases ps line with ⟨k, v, hsets, honly, he⟩ | ⟨hnone, he⟩
  · rw [he, Dictionary.find?_insert]
    split
    · rename_i hk
      subst hk
      constructor
      · intro h
        cases h
        exact .inl hsets
      · rintro (h | ⟨h, -⟩)
        · rw [(honly _ _ h).2]
        · exact absurd hsets (h v)
    · rename_i hk
      have hno : ∀ other, ¬ Sets line key other := fun other h => hk (honly _ _ h).1
      simp [hno]
  · simp [he, hnone]

theorem lastSets_append_singleton : LastSets (lines ++ [line]) key value ↔
    Sets line key value ∨ (∀ other, ¬ Sets line key other) ∧ LastSets lines key value := by
  constructor
  · rintro ⟨above, l, below, he, hsets, hbelow⟩
    rcases List.eq_nil_or_concat below with rfl | ⟨init, last, rfl⟩
    · obtain ⟨-, hl⟩ := List.append_inj' he rfl
      cases hl
      exact .inl hsets
    · have hsplit : lines ++ [line] = (above ++ l :: init) ++ [last] := by simp [he]
      obtain ⟨rfl, hl⟩ := List.append_inj' hsplit rfl
      cases hl
      refine .inr ⟨hbelow line (by simp), above, l, init, rfl, hsets, fun m hm => hbelow m (by simp [hm])⟩
  · rintro (hsets | ⟨hno, above, l, below, rfl, hsets, hbelow⟩)
    · exact ⟨lines, line, [], rfl, hsets, nofun⟩
    · refine ⟨above, l, below ++ [line], by simp, hsets, fun m hm => ?_⟩
      rcases List.mem_append.1 hm with hm | hm
      · exact hbelow m hm
      · rw [List.mem_singleton.1 hm]
        exact hno

theorem find?_entered (lines : List (List Char)) (key value : String) :
    (lines.foldl enter .empty).find? key = some value ↔ LastSets lines key value := by
  induction lines using List.reverseRecOn with
  | nil =>
      refine iff_of_false nofun ?_
      rintro ⟨above, line, below, he, -⟩
      simp at he
  | append_singleton lines line ih =>
      rw [List.foldl_append, List.foldl_cons, List.foldl_nil, find?_enter, ih, lastSets_append_singleton]

theorem ordered_entered (lines : List (List Char)) : (lines.foldl enter .empty).Ordered := by
  induction lines using List.reverseRecOn with
  | nil => exact Dictionary.ordered_empty
  | append_singleton lines line ih =>
      rw [List.foldl_append]
      exact ordered_enter ih line

theorem exists_lastSets (h : ∃ line ∈ lines, ∃ value, Sets line key value) :
    ∃ value, LastSets lines key value := by
  induction lines using List.reverseRecOn with
  | nil =>
      obtain ⟨line, hm, -⟩ := h
      cases hm
  | append_singleton lines line ih =>
      by_cases hl : ∃ value, Sets line key value
      · obtain ⟨value, hl⟩ := hl
        exact ⟨value, lastSets_append_singleton.2 (.inl hl)⟩
      · obtain ⟨l, hm, other, hsets⟩ := h
        have hno : ∀ other, ¬ Sets line key other := fun other h => hl ⟨other, h⟩
        rcases List.mem_append.1 hm with hm | hm
        · obtain ⟨value, hlast⟩ := ih ⟨l, hm, other, hsets⟩
          exact ⟨value, lastSets_append_singleton.2 (.inr ⟨hno, hlast⟩)⟩
        · rw [List.mem_singleton.1 hm] at hsets
          exact absurd hsets (hno other)

structure ReadFrom (lines : List (List Char)) (ps : Properties) : Prop where
  ordered : ps.Ordered
  keys : ∀ key, key ∈ ps.keys ↔ ∃ line ∈ lines, ∃ value, Sets line key value
  values : ∀ key value, ps.find? key = some value ↔ LastSets lines key value

theorem readFrom_entered (lines : List (List Char)) : ReadFrom lines (lines.foldl enter .empty) where
  ordered := ordered_entered lines
  keys key := by
    rw [Dictionary.mem_keys_iff]
    constructor
    · rintro ⟨value, h⟩
      obtain ⟨above, line, below, rfl, hsets, -⟩ := (find?_entered lines key value).1 h
      exact ⟨line, by simp, value, hsets⟩
    · intro h
      obtain ⟨value, hlast⟩ := exists_lastSets h
      exact ⟨value, (find?_entered lines key value).2 hlast⟩
  values := find?_entered lines

theorem ReadFrom.unique {ps' : Properties} (h : ReadFrom lines ps) (h' : ReadFrom lines ps') : ps = ps' :=
  h.ordered.ext h'.ordered fun key value => (h.values key value).trans (h'.values key value).symm

theorem addLines_of_broken (n : Nat) (ps : Properties) {row : List Char} (h : Broken (trim row))
    (rest : List (List Char)) :
    addLines n ps (row :: rest) = .error ⟨n, String.ofList (trim row)⟩ := by
  have hspeaks : ¬ saysNothing (trim row) = true := fun hs => h.1 (saysNothing_iff.1 hs)
  rw [addLines, if_neg hspeaks, property?_eq_none_iff.2 h.2]

theorem addLines_of_not_broken (n : Nat) (ps : Properties) {row : List Char} (h : ¬ Broken (trim row))
    (rest : List (List Char)) :
    addLines n ps (row :: rest) = addLines (n + 1) (enter ps (trim row)) rest := by
  rw [addLines, enter]
  cases hsilence : saysNothing (trim row) with
  | true => rfl
  | false =>
      cases hp : property? (trim row) with
      | none =>
          have hsilent : ¬ Silent (trim row) := by
            rw [← saysNothing_iff, hsilence]
            exact Bool.false_ne_true
          exact absurd ⟨hsilent, property?_eq_none_iff.1 hp⟩ h
      | some entry => rfl

/-- Lines of which none is broken are read over; only the count and what they add remain. -/
theorem addLines_append {above : List (List Char)} (h : ∀ line ∈ above.map trim, ¬ Broken line) (n : Nat)
    (ps : Properties) (below : List (List Char)) :
    addLines n ps (above ++ below) = addLines (n + above.length) ((above.map trim).foldl enter ps) below := by
  induction above generalizing n ps with
  | nil => rfl
  | cons row above ih =>
      obtain ⟨hrow, habove⟩ := List.forall_mem_cons.1 h
      rw [List.cons_append, addLines_of_not_broken n ps hrow, ih habove, List.map_cons, List.foldl_cons,
        List.length_cons, Nat.add_assoc, Nat.add_comm 1]

theorem exists_first_broken (h : ∃ line ∈ lines, Broken line) :
    ∃ above line below, lines = above ++ line :: below ∧ (∀ l ∈ above, ¬ Broken l) ∧ Broken line := by
  classical
  obtain ⟨line, hfind⟩ := Option.isSome_iff_exists.1 (List.find?_isSome.2
    (by simpa using h : ∃ line ∈ lines, decide (Broken line) = true))
  obtain ⟨hbroken, above, below, he, habove⟩ := List.find?_eq_some_iff_append.1 hfind
  exact ⟨above, line, below, he, by simpa using habove, by simpa using hbroken⟩

def trimmedLines (text : String) : List (List Char) := (Text.lines (withoutMark text.toList)).map trim

variable {text : String}

theorem parse_of_not_broken (h : ∀ line ∈ trimmedLines text, ¬ Broken line) :
    parse text = .ok ((trimmedLines text).foldl enter .empty) := by
  have happend := addLines_append h 1 .empty []
  rwa [List.append_nil] at happend

theorem parse_of_broken {above below : List (List Char)} (hlines : trimmedLines text = above ++ line :: below)
    (habove : ∀ l ∈ above, ¬ Broken l) (hbroken : Broken line) :
    parse text = .error ⟨above.length + 1, String.ofList line⟩ := by
  obtain ⟨rows, rest, hrows, rfl, hrest⟩ := List.map_eq_append_iff.1 hlines
  obtain ⟨row, rest, rfl, rfl, -⟩ := List.map_eq_cons_iff.1 hrest
  rw [parse, hrows, addLines_append habove, addLines_of_broken _ _ hbroken, List.length_map, Nat.add_comm]

theorem parse_eq_error_iff {b : BadLine} : parse text = .error b ↔
    ∃ above line below, trimmedLines text = above ++ line :: below ∧ (∀ l ∈ above, ¬ Broken l) ∧
      Broken line ∧ b = ⟨above.length + 1, String.ofList line⟩ := by
  constructor
  · intro h
    by_cases hbroken : ∃ line ∈ trimmedLines text, Broken line
    · obtain ⟨above, line, below, hlines, habove, hline⟩ := exists_first_broken hbroken
      rw [parse_of_broken hlines habove hline] at h
      exact ⟨above, line, below, hlines, habove, hline, (Except.error.inj h).symm⟩
    · rw [parse_of_not_broken fun line hm hline => hbroken ⟨line, hm, hline⟩] at h
      cases h
  · rintro ⟨above, line, below, hlines, habove, hline, rfl⟩
    exact parse_of_broken hlines habove hline

theorem parse_eq_ok_iff : parse text = .ok ps ↔
    (∀ line ∈ trimmedLines text, ¬ Broken line) ∧ ReadFrom (trimmedLines text) ps := by
  constructor
  · intro h
    have hsound : ∀ line ∈ trimmedLines text, ¬ Broken line := by
      intro line hm hline
      obtain ⟨above, l, below, hlines, habove, hl⟩ := exists_first_broken ⟨line, hm, hline⟩
      rw [parse_of_broken hlines habove hl] at h
      cases h
    rw [parse_of_not_broken hsound] at h
    cases h
    exact ⟨hsound, readFrom_entered _⟩
  · rintro ⟨hsound, hread⟩
    rw [parse_of_not_broken hsound, (readFrom_entered _).unique hread]

end SketchPrep.Properties
