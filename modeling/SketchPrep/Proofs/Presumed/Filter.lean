import Mathlib.Data.List.Induction
import SketchPrep.Sketch.Basic
import SketchPrep.Proofs.Presumed.Position

namespace SketchPrep

variable {line : List Char} {lines above : List (List Char)}

namespace LineMarker

def digitOf (c : Char) : Nat :=
  let run := Text.decimalDigits.find? fun (first, last) => first ≤ c.toNat && c.toNat ≤ last
  (run.map fun (first, _) => (c.toNat - first) % 10).getD 0

def lineOf (marker : List Char) : Nat :=
  let digits := (afterLineWord (Text.trimStart marker.tail)).takeWhile Text.isDecimal
  digits.foldl (fun n d => n * 10 + digitOf d) 0

def owner? (lines : List (List Char)) : Option String :=
  (lines.reverse.findSome? nameOf?).map String.ofList

theorem owner?_append_singleton (above : List (List Char)) (line : List Char) :
    owner? (above ++ [line]) = ((nameOf? line).map String.ofList <|> owner? above) := by
  rw [owner?, List.reverse_append, List.reverse_singleton, List.singleton_append, List.findSome?_cons,
    owner?]
  cases nameOf? line <;> rfl

end LineMarker

namespace Position

/-- The position below a line at `p`: a marker gives file and line, a bare directive gives the line. -/
def after (p : Position) (line : List Char) : Position :=
  match LineMarker.nameOf? line with
  | some name => ⟨some (String.ofList name), LineMarker.lineOf line⟩
  | none =>
    match Directive.read? line with
    | some ⟨number, none⟩ => ⟨p.file, number⟩
    | _ => ⟨p.file, p.line + 1⟩

def afterAll (lines : List (List Char)) : Position := lines.foldl after start

theorem afterAll_append_singleton (above : List (List Char)) (line : List Char) :
    afterAll (above ++ [line]) = (afterAll above).after line := by
  rw [afterAll, List.foldl_append]
  rfl

theorem after_of_marker {name : List Char} (h : LineMarker.nameOf? line = some name) (p : Position) :
    p.after line = ⟨some (String.ofList name), LineMarker.lineOf line⟩ := by
  rw [after, h]

theorem file_after (p : Position) (line : List Char) :
    (p.after line).file = ((LineMarker.nameOf? line).map String.ofList <|> p.file) := by
  unfold after
  split
  · rename_i hname
    rw [hname]
    rfl
  · rename_i hname
    rw [hname]
    split <;> rfl

theorem file_afterAll (lines : List (List Char)) : (afterAll lines).file = LineMarker.owner? lines := by
  induction lines using List.reverseRecOn with
  | nil => rfl
  | append_singleton above line ih =>
      rw [afterAll_append_singleton, file_after, ih, LineMarker.owner?_append_singleton]

end Position

namespace Sketch

variable {s : Sketch}

/-- Whether the nearest marker at or above the last of the lines names a merged file. -/
def Owns (s : Sketch) (lines : List (List Char)) : Prop :=
  ∃ f ∈ s.mergedFiles, LineMarker.owner? lines = some f.path.text

instance (s : Sketch) (lines : List (List Char)) : Decidable (s.Owns lines) :=
  inferInstanceAs (Decidable (∃ f ∈ s.mergedFiles, LineMarker.owner? lines = some f.path.text))

def kept (s : Sketch) (lines : List (List Char)) : List (List Char × Nat) :=
  lines.zipIdx.filter fun (_, i) => s.Owns (lines.take (i + 1))

theorem not_owns_nil (s : Sketch) : ¬ s.Owns [] := by
  rintro ⟨f, -, h⟩
  exact absurd h (by simp [LineMarker.owner?])

theorem owns_append_marker {name : List Char} (h : LineMarker.nameOf? line = some name) :
    s.Owns (above ++ [line]) ↔ (s.mergedFiles.map (·.path.text)).contains (String.ofList name) = true := by
  have howner : LineMarker.owner? (above ++ [line]) = some (String.ofList name) := by
    rw [LineMarker.owner?_append_singleton, h]
    rfl
  simp [Owns, howner, eq_comm]

theorem owns_append_plain (h : LineMarker.nameOf? line = none) :
    s.Owns (above ++ [line]) ↔ s.Owns above := by
  rw [Owns, LineMarker.owner?_append_singleton, h]
  rfl

theorem kept_append_singleton (s : Sketch) (above : List (List Char)) (line : List Char) :
    s.kept (above ++ [line]) =
      s.kept above ++ if s.Owns (above ++ [line]) then [(line, above.length)] else [] := by
  have hwhole : (above ++ [line]).take (above.length + 1) = above ++ [line] :=
    List.take_of_length_le (by simp)
  rw [kept, List.zipIdx_append, List.filter_append, kept]
  congr 1
  · refine List.filter_congr fun place hplace => ?_
    have hlt : place.2 < above.length := by
      simpa using List.snd_lt_of_mem_zipIdx hplace
    simp only [List.take_append_of_le_length (Nat.succ_le_of_lt hlt)]
  · simp [List.filter_cons, hwhole]

theorem linesOfFiles_cons (s : Sketch) (above : List (List Char)) (line : List Char)
    (rest : List (List Char)) :
    linesOfFiles (s.mergedFiles.map (·.path.text)) (s.Owns above) (line :: rest) =
      (if s.Owns (above ++ [line]) then [line] else []) ++
        linesOfFiles (s.mergedFiles.map (·.path.text)) (s.Owns (above ++ [line])) rest := by
  rw [linesOfFiles]
  cases hname : LineMarker.nameOf? line with
  | none =>
      simp only [owns_append_plain hname, decide_eq_true_eq]
      split <;> rfl
  | some name =>
      simp only [owns_append_marker hname, Bool.decide_eq_true]
      split <;> rfl

theorem linesOfFiles_eq_filter (s : Sketch) (above lines : List (List Char)) :
    linesOfFiles (s.mergedFiles.map (·.path.text)) (s.Owns above) lines =
      ((lines.zipIdx above.length).filter fun (_, i) => s.Owns ((above ++ lines).take (i + 1))).map
        Prod.fst := by
  induction lines generalizing above with
  | nil => rfl
  | cons line rest ih =>
      have hfirst : (above ++ line :: rest).take (above.length + 1) = above ++ [line] := by
        rw [List.append_cons]
        exact List.take_left' (by simp)
      have hrest := ih (above ++ [line])
      rw [List.length_append, List.length_singleton, ← List.append_cons] at hrest
      rw [linesOfFiles_cons, hrest, List.zipIdx_cons, List.filter_cons]
      simp only [hfirst, decide_eq_true_eq]
      split <;> rfl

theorem linesOfFiles_eq_kept (s : Sketch) (lines : List (List Char)) :
    linesOfFiles (s.mergedFiles.map (·.path.text)) false lines = (s.kept lines).map Prod.fst := by
  have h := linesOfFiles_eq_filter s [] lines
  rwa [decide_eq_false (not_owns_nil s)] at h

theorem linesOfFiles_twice (files : List String) {outer inner : Bool} (h : inner = true → outer = true)
    (lines : List (List Char)) :
    linesOfFiles files outer (linesOfFiles files inner lines) = linesOfFiles files inner lines := by
  induction lines generalizing outer inner with
  | nil => rfl
  | cons line rest ih =>
      rw [linesOfFiles]
      cases hname : LineMarker.nameOf? line with
      | some name =>
          simp only
          split
          · rename_i hfile
            rw [linesOfFiles, hname]
            simp only [hfile, if_true]
            rw [ih id]
          · rename_i hfile
            rw [Bool.not_eq_true] at hfile
            rw [hfile]
            exact ih (by simp)
      | none =>
          simp only
          split
          · rename_i hinner
            rw [linesOfFiles, hname]
            simp only [h hinner, if_true]
            rw [ih (fun _ => rfl)]
          · exact ih h

/-- The lines left out of a source leave no trace on the position below, if this one is the sketch's. -/
theorem afterAll_kept {lines : List (List Char)} (h : s.Owns lines) :
    Position.afterAll ((s.kept lines).map Prod.fst) = Position.afterAll lines := by
  induction lines using List.reverseRecOn with
  | nil => rfl
  | append_singleton above line ih =>
      rw [kept_append_singleton, if_pos h, List.map_append, List.map_singleton,
        Position.afterAll_append_singleton, Position.afterAll_append_singleton]
      cases hname : LineMarker.nameOf? line with
      | some name => rw [Position.after_of_marker hname, Position.after_of_marker hname]
      | none => rw [ih ((owns_append_plain hname).1 h)]

theorem getElem?_kept {k i : Nat} (h : (s.kept lines)[k]? = some (line, i)) :
    i < lines.length ∧ lines[i]? = some line ∧ (s.kept lines).take k = s.kept (lines.take i) := by
  induction lines using List.reverseRecOn generalizing k with
  | nil => simp [kept] at h
  | append_singleton above last ih =>
      rw [kept_append_singleton] at h ⊢
      by_cases hk : k < (s.kept above).length
      · rw [List.getElem?_append_left hk] at h
        obtain ⟨hi, hline, hkept⟩ := ih h
        rw [List.take_append_of_le_length (Nat.le_of_lt hk), List.getElem?_append_left hi,
          List.take_append_of_le_length (Nat.le_of_lt hi)]
        exact ⟨by simp; omega, hline, hkept⟩
      · rw [List.getElem?_append_right (Nat.le_of_not_lt hk)] at h
        split at h
        · rw [List.getElem?_singleton] at h
          split at h
          · obtain rfl : k = (s.kept above).length := by omega
            obtain ⟨rfl, rfl⟩ := Prod.ext_iff.1 (Option.some.inj h)
            simp
          · simp at h
        · simp at h

theorem owns_of_kept {k i : Nat} (h : (s.kept lines)[k]? = some (line, i)) : s.Owns (lines.take (i + 1)) :=
  of_decide_eq_true (List.mem_filter.1 (List.mem_of_getElem? h)).2

theorem mem_lines_of_kept (h : line ∈ (s.kept lines).map Prod.fst) : line ∈ lines := by
  obtain ⟨⟨_, i⟩, hkept, rfl⟩ := List.mem_map.1 h
  exact List.fst_mem_of_mem_zipIdx (List.mem_filter.1 hkept).1

theorem toList_filterSource (s : Sketch) (text : String) :
    (s.filterSource text).toList = Text.ended ((s.kept (Text.lines text.toList)).map Prod.fst) := by
  rw [← linesOfFiles_eq_kept, filterSource, String.toList_ofList]
  rfl

theorem lines_filterSource (s : Sketch) {text : String} (hreturn : '\r' ∉ text.toList) :
    Text.lines (s.filterSource text).toList = (s.kept (Text.lines text.toList)).map Prod.fst := by
  rw [toList_filterSource]
  refine Text.lines_ended (fun line hline => ?_) (fun line hline hr => ?_)
  · exact Text.feed_not_mem_of_mem_lines (mem_lines_of_kept hline)
  · exact hreturn (Text.mem_of_mem_lines (mem_lines_of_kept hline) hr)

theorem filterSource_filterSource (s : Sketch) {text : String} (hreturn : '\r' ∉ text.toList) :
    s.filterSource (s.filterSource text) = s.filterSource text := by
  apply String.toList_inj.1
  rw [toList_filterSource s (s.filterSource text), lines_filterSource s hreturn,
    ← linesOfFiles_eq_kept, ← linesOfFiles_eq_kept, linesOfFiles_twice _ id, linesOfFiles_eq_kept,
    toList_filterSource]

/-- The lines that a sketch keeps of a preprocessed text are those that its files own. They stand where
they stood, in one of its files, and nothing more is left out when the result is filtered again. -/
theorem filterSource_owned (s : Sketch) (text : String) (hreturn : '\r' ∉ text.toList) :
    let lines := Text.lines text.toList
    let output := Text.lines (s.filterSource text).toList
    (s.filterSource text).toList = Text.ended output ∧
    output = (s.kept lines).map Prod.fst ∧
    (∀ k line i, (s.kept lines)[k]? = some (line, i) → LineMarker.nameOf? line = none →
      Position.afterAll (output.take k) = Position.afterAll (lines.take i) ∧
      ∃ f ∈ s.mergedFiles, (Position.afterAll (lines.take i)).file = some f.path.text) ∧
    s.filterSource (s.filterSource text) = s.filterSource text := by
  intro lines output
  have houtput : output = (s.kept lines).map Prod.fst := lines_filterSource s hreturn
  refine ⟨?_, houtput, fun k line i hk hplain => ?_, filterSource_filterSource s hreturn⟩
  · rw [toList_filterSource, houtput]
  · obtain ⟨hi, hline, htake⟩ := getElem?_kept hk
    have howns : s.Owns (lines.take i) := by
      have hat := owns_of_kept hk
      rw [List.take_add_one, hline] at hat
      exact (owns_append_plain hplain).1 hat
    rw [houtput, ← List.map_take, htake, afterAll_kept howns, Position.file_afterAll]
    exact ⟨rfl, howns⟩

def preprocessedBlink : String := String.join
  [ "# 1 \"/opt/Arduino.h\" 1\n", "int digitalRead(int);\n",
    "# 2 \"/Blink/Blink.ino\" 2\n", "void setup();\n", "#line 40\n", "int led;\n",
    "# 1 \"/opt/Servo.h\" 1\n", "int hidden;\n",
    "# 3 \"/Blink/Blink.ino\" 2\n", "void loop();\n" ]

def blinkSketch : Sketch := ⟨⟨"/Blink"⟩, ⟨⟨"/Blink/Blink.ino"⟩, ""⟩, [], []⟩

theorem filterSource_owned_blink :
    '\r' ∉ preprocessedBlink.toList ∧
    (blinkSketch.filterSource preprocessedBlink).toList =
      Text.ended (Text.lines (blinkSketch.filterSource preprocessedBlink).toList) ∧
    Position.afterAll ((Text.lines (blinkSketch.filterSource preprocessedBlink).toList).take 3) =
      Position.afterAll ((Text.lines preprocessedBlink.toList).take 5) := by
  have hreturn : '\r' ∉ preprocessedBlink.toList := by
    rw [preprocessedBlink, String.toList_join]
    decide +kernel
  have hled : (blinkSketch.kept (Text.lines preprocessedBlink.toList))[3]? =
      some ("int led;".toList, 5) := by
    rw [preprocessedBlink, String.toList_join]
    decide +kernel
  obtain ⟨hended, -, hplaces, -⟩ := filterSource_owned blinkSketch preprocessedBlink hreturn
  exact ⟨hreturn, hended, (hplaces 3 _ 5 hled (by decide +kernel)).1⟩

end Sketch

end SketchPrep
