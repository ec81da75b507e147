import SketchPrep.Proofs.Properties.Reading

namespace SketchPrep.Properties

open Text

variable {line : List Char} {rows : List (List Char)} {ps : Properties} {key value : String}

def joined (rows : List (List Char)) : String := String.ofList (['\n'].intercalate rows)

def entryLine (e : String × String) : List Char := e.1.toList ++ '=' :: e.2.toList

structure Writable (e : String × String) : Prop where
  trim_key : trim e.1.toList = e.1.toList
  equals_not_mem : '=' ∉ e.1.toList
  feed_not_mem_key : '\n' ∉ e.1.toList
  head_ne_hash : e.1.toList.head? ≠ some '#'
  head_ne_mark : e.1.toList.head? ≠ some byteOrderMark
  trim_value : trim e.2.toList = e.2.toList
  feed_not_mem_value : '\n' ∉ e.2.toList

/-- The rows are the lines of the entries in any order, each ended with or without a carriage return, and
among them blank rows and comments. -/
structure Writes (rows : List (List Char)) (ps : Properties) : Prop where
  only : ∀ row ∈ rows, (Silent (trim row) ∧ '\n' ∉ row) ∨ ∃ e ∈ ps.entries, dropReturn row = entryLine e
  every : ∀ e ∈ ps.entries, ∃ row ∈ rows, dropReturn row = entryLine e

namespace Writable

variable {e : String × String}

theorem head?_entryLine (e : String × String) :
    (entryLine e).head? = e.1.toList.head? ∨ (entryLine e).head? = some '=' := by
  rw [entryLine]
  cases e.1.toList with
  | nil => exact .inr rfl
  | cons c s => exact .inl rfl

theorem trim_entryLine (h : Writable e) : trim (entryLine e) = entryLine e := by
  apply trim_eq_self_iff.2
  constructor
  · intro c hc
    rcases head?_entryLine e with hhead | hhead
    · exact (trim_eq_self_iff.1 h.trim_key).1 c (hhead ▸ hc)
    · rw [hhead] at hc
      cases hc
      rfl
  · intro c hc
    rw [entryLine, List.getLast?_append, List.getLast?_cons] at hc
    cases hv : e.2.toList.getLast? with
    | none =>
        simp [hv] at hc
        rw [← hc]
        rfl
    | some d =>
        simp [hv] at hc
        rw [← hc]
        exact (trim_eq_self_iff.1 h.trim_value).2 d hv

theorem trim_of_line (h : Writable e) {row : List Char} (hline : dropReturn row = entryLine e) :
    trim row = entryLine e := by
  rw [← trim_dropReturn, hline, h.trim_entryLine]

theorem not_silent (h : Writable e) : ¬ Silent (entryLine e) := by
  rintro (hnil | hhash)
  · simp [entryLine] at hnil
  · rcases head?_entryLine e with hhead | hhead
    · exact h.head_ne_hash (hhead ▸ hhash)
    · rw [hhead] at hhash
      cases hhash

theorem sets_iff (h : Writable e) : Sets (entryLine e) key value ↔ (key, value) = e := by
  have hproperty : property? (entryLine e) = some e := by
    rw [entryLine, property?_append h.equals_not_mem, h.trim_key, h.trim_value]
    simp
  rw [Sets, ← property?_eq_some_iff, hproperty]
  simp [h.not_silent, eq_comm]

end Writable

namespace Writes

variable (h : Writes rows ps) (hps : ∀ e ∈ ps.entries, Writable e)

include h hps

theorem feed_not_mem : ∀ row ∈ rows, '\n' ∉ row := by
  intro row hrow hfeed
  rcases h.only row hrow with ⟨-, hnot⟩ | ⟨e, he, hline⟩
  · exact hnot hfeed
  · have hm := mem_dropReturn (by decide) hfeed
    rw [hline, entryLine, List.mem_append, List.mem_cons] at hm
    rcases hm with hm | hm | hm
    · exact (hps e he).feed_not_mem_key hm
    · cases hm
    · exact (hps e he).feed_not_mem_value hm

theorem trim_row {row : List Char} (hrow : row ∈ rows) :
    Silent (trim row) ∨ ∃ e ∈ ps.entries, trim row = entryLine e := by
  rcases h.only row hrow with ⟨hsilent, -⟩ | ⟨e, he, hline⟩
  · exact .inl hsilent
  · exact .inr ⟨e, he, (hps e he).trim_of_line hline⟩

theorem withoutMark_eq : withoutMark (['\n'].intercalate rows) = ['\n'].intercalate rows := by
  apply if_neg
  intro hmark
  rcases head?_intercalate hmark with hfeed | ⟨row, hrow, hhead⟩
  · cases hfeed
  · have htrim : (trim row).head? = some byteOrderMark := head?_trim hhead (by decide)
    rcases h.trim_row hps hrow with hsilent | ⟨e, he, hline⟩
    · rcases hsilent with hnil | hhash
      · rw [hnil] at htrim
        cases htrim
      · rw [hhash] at htrim
        cases htrim
    · rw [hline] at htrim
      rcases Writable.head?_entryLine e with hkey | hkey
      · exact (hps e he).head_ne_mark (hkey ▸ htrim)
      · rw [hkey] at htrim
        cases htrim

theorem mem_trimmedLines (hne : line ≠ []) :
    line ∈ trimmedLines (joined rows) ↔ line ∈ rows.map trim := by
  rw [trimmedLines, joined, String.toList_ofList, h.withoutMark_eq hps, mem_map_trim_lines hne (h.feed_not_mem hps)]

/-- A line that is read is blank, a comment, or the line of an entry; and each of these is read. -/
theorem line_cases : ∀ line ∈ trimmedLines (joined rows),
    Silent line ∨ ∃ e ∈ ps.entries, line = entryLine e := by
  intro line hm
  by_cases hne : line = []
  · exact .inl (.inl hne)
  · obtain ⟨row, hrow, rfl⟩ := List.mem_map.1 ((h.mem_trimmedLines hps hne).1 hm)
    exact h.trim_row hps hrow

theorem entryLine_mem {e : String × String} (he : e ∈ ps.entries) :
    entryLine e ∈ trimmedLines (joined rows) := by
  obtain ⟨row, hrow, hline⟩ := h.every e he
  have htrim : trim row = entryLine e := (hps e he).trim_of_line hline
  have hne : entryLine e ≠ [] := by simp [entryLine]
  exact (h.mem_trimmedLines hps hne).2 (List.mem_map.2 ⟨row, hrow, htrim⟩)

theorem exists_sets_iff (key value : String) :
    (∃ line ∈ trimmedLines (joined rows), Sets line key value) ↔
      (key, value) ∈ ps.entries := by
  constructor
  · rintro ⟨line, hm, hsets⟩
    rcases h.line_cases hps line hm with hsilent | ⟨e, he, rfl⟩
    · exact absurd hsilent hsets.1
    · rwa [(hps e he).sets_iff.1 hsets]
  · intro hm
    exact ⟨_, h.entryLine_mem hps hm, (hps _ hm).sets_iff.2 rfl⟩

theorem not_broken : ∀ line ∈ trimmedLines (joined rows), ¬ Broken line := by
  rintro line hm ⟨hspeaks, hequals⟩
  rcases h.line_cases hps line hm with hsilent | ⟨e, he, rfl⟩
  · exact hspeaks hsilent
  · exact hequals (by simp [entryLine])

theorem parse_eq (hordered : ps.Ordered) : parse (joined rows) = .ok ps := by
  have hread := readFrom_entered (trimmedLines (joined rows))
  have hof {key value : String} (hlast : LastSets (trimmedLines (joined rows)) key value) :
      (key, value) ∈ ps.entries := by
    obtain ⟨above, line, below, hlines, hsets, -⟩ := hlast
    exact (h.exists_sets_iff hps key value).1 ⟨line, by simp [hlines], hsets⟩
  rw [parse_of_not_broken (h.not_broken hps)]
  apply congrArg
  apply hread.ordered.ext hordered
  intro key value
  rw [← hordered.mem_entries_iff, hread.values]
  constructor
  · exact hof
  · intro hm
    obtain ⟨line, hline, hsets⟩ := (h.exists_sets_iff hps key value).2 hm
    obtain ⟨other, hlast⟩ := exists_lastSets ⟨line, hline, value, hsets⟩
    -- no second value can stand in a line, since the map has one value for a key
    have hsame := (hordered.mem_entries_iff.1 (hof hlast)).symm.trans (hordered.mem_entries_iff.1 hm)
    rwa [← Option.some.inj hsame]

end Writes

/-- The first broken line of a text is the error that it gives. Without one, the last line that sets a key
decides on its value, and no line but those sets a key. So a map that is written down is read back. -/
theorem parse_lines :
    (∀ text : String,
      ((∃ b, parse text = .error b) ↔ ∃ line ∈ trimmedLines text, Broken line) ∧
      (∀ b, parse text = .error b ↔
        ∃ above line below, trimmedLines text = above ++ line :: below ∧ (∀ l ∈ above, ¬ Broken l) ∧
          Broken line ∧ b = ⟨above.length + 1, String.ofList line⟩) ∧
      ∀ ps, parse text = .ok ps ↔
        (∀ line ∈ trimmedLines text, ¬ Broken line) ∧ ReadFrom (trimmedLines text) ps) ∧
    ∀ (ps : Properties) (rows : List (List Char)),
      ps.Ordered → (∀ e ∈ ps.entries, Writable e) → Writes rows ps → parse (joined rows) = .ok ps := by
  refine ⟨fun text => ⟨?_, fun b => parse_eq_error_iff, fun ps => parse_eq_ok_iff⟩, ?_⟩
  · constructor
    · rintro ⟨b, h⟩
      obtain ⟨above, line, below, hlines, -, hbroken, -⟩ := parse_eq_error_iff.1 h
      exact ⟨line, by simp [hlines], hbroken⟩
    · intro h
      obtain ⟨above, line, below, hlines, habove, hbroken⟩ := exists_first_broken h
      exact ⟨_, parse_of_broken hlines habove hbroken⟩
  · intro ps rows hordered hps h
    exact h.parse_eq hps hordered

def servo : Properties := ⟨[("", "#"), ("name", "Servo"), ("url", "http://x?a=b")]⟩

def servoRows : List (List Char) :=
  ["url=http://x?a=b\r", " # name=Stepper", "=#", "", "name=Servo"].map String.toList

theorem parse_lines_servo :
    servo.Ordered ∧ (∀ e ∈ servo.entries, Writable e) ∧ Writes servoRows servo ∧
      parse (joined servoRows) = .ok servo := by
  have hordered : servo.Ordered := by
    unfold Dictionary.Ordered
    decide
  have hwritable : ∀ e ∈ servo.entries, Writable e := by
    intro e he
    simp only [servo, List.mem_cons, List.not_mem_nil, or_false] at he
    rcases he with rfl | rfl | rfl <;> constructor <;> decide
  have hwrites : Writes servoRows servo := by
    constructor
    · unfold Silent
      decide
    · decide
  exact ⟨hordered, hwritable, hwrites, parse_lines.2 servo servoRows hordered hwritable hwrites⟩

end SketchPrep.Properties
