import Mathlib.Data.List.Infix
import SketchPrep.Proofs.Presumed.Directive
import SketchPrep.Proofs.Text.Occurrence
import SketchPrep.Proofs.Text.Pieces
import SketchPrep.Tag.Record

namespace SketchPrep

inductive Field where
  | kind (text : String)
  | line (n : Nat)
  | typeref (text : String)
  | signature (text : String)
  | returnType (text : String)
  | scope (s : Scope)

namespace Field

def key : Field → String
  | .kind _ => "kind"
  | .line _ => "line"
  | .typeref _ => "typeref"
  | .signature _ => "signature"
  | .returnType _ => "returntype"
  | .scope (.inClass _) => "class"
  | .scope (.inStruct _) => "struct"
  | .scope (.inNamespace _) => "namespace"

def keys : List String :=
  ["kind", "line", "typeref", "signature", "returntype", "class", "struct", "namespace"]

def value : Field → String
  | .kind text | .typeref text | .signature text | .returnType text => text
  | .line n => toString n
  | .scope (.inClass name) | .scope (.inStruct name) | .scope (.inNamespace name) => name

def column (f : Field) : String := f.key ++ ":" ++ f.value

def set (t : Tag) : Field → Tag
  | .kind text => { t with kind := .ofText text }
  | .line n => { t with line := n }
  | .typeref text => { t with typeref := some text }
  | .signature text => { t with signature := some text }
  | .returnType text => { t with returnType := some text }
  | .scope s => t.within s

theorem key_mem_keys (f : Field) : f.key ∈ keys := by
  cases f with
  | scope s => cases s <;> simp [key, keys]
  | kind | line | typeref | signature | returnType => simp [key, keys]

end Field

structure Symbol where
  name : String
  file : String
  code : String
  kind : String
  line : Nat
  scope : Option Scope
  typeref : Option String
  signature : Option String
  returnType : Option String

namespace Symbol

def fields (s : Symbol) : List Field :=
  [.kind s.kind, .line s.line] ++ (s.scope.map .scope).toList ++ (s.typeref.map .typeref).toList ++
    (s.signature.map .signature).toList ++ (s.returnType.map .returnType).toList

def tag (s : Symbol) : Tag :=
  { Tag.bare s.name s.file with
    kind := .ofText s.kind
    line := s.line
    code := s.code
    scope := s.scope
    typeref := s.typeref
    signature := s.signature
    returnType := s.returnType }

def row (s : Symbol) (fields : List Field) : String :=
  "\t".intercalate ([s.name, s.file, "/^" ++ s.code ++ "$/;\x22"] ++ fields.map Field.column)

/-- No part of the symbol's row can be taken for another. -/
@[mk_iff] structure IsPlain (s : Symbol) : Prop where
  named : s.name ≠ ""
  line_lt : s.line < UInt64.size
  no_tab : ∀ text ∈ s.name :: s.file :: s.fields.map Field.value, '\t' ∉ text.toList
  no_feed : ∀ text ∈ s.name :: s.file :: s.code :: s.fields.map Field.value, '\n' ∉ text.toList
  trimmed : ∀ text ∈ s.name :: s.fields.map Field.value, Text.trim text.toList = text.toList
  no_start : ∀ text ∈ [s.name, s.file], ¬ Tag.codeStart <:+: text.toList
  no_end : ∀ text ∈ [s.name, s.file, s.code], ¬ Tag.codeEnd <:+: text.toList
  no_field : ∀ piece ∈ (s.code.toList.splitOn '\t').tail, ∀ key ∈ Field.keys,
    ¬ (key ++ ":").toList <+: piece

instance (s : Symbol) : Decidable s.IsPlain :=
  decidable_of_iff _ (isPlain_iff s).symm

end Symbol

/-- Lines in which the symbols have a row each, in their order. Any other line has one column at most. -/
inductive Lists : List Symbol → List String → Prop
  | nil : Lists [] []
  | row {symbols lines} (s : Symbol) (fields : List Field) (order : fields.Perm s.fields) :
      Lists symbols lines → Lists (s :: symbols) (s.row fields :: lines)
  | stray {symbols lines} (line : String) (feed : '\n' ∉ line.toList)
      (column : '\t' ∉ Text.trim line.toList) : Lists symbols lines → Lists symbols (line :: lines)

namespace Tag

variable {t : Tag} {s : Symbol} {f g : Field} {fields : List Field} {column : List Char}

theorem lineNumber?_toString {n : Nat} (h : n < UInt64.size) :
    Text.lineNumber? (toString n).toList = some n := by
  have hdigits : ∀ c ∈ (toString n).toList, c.isDigit = true := fun c hc =>
    Nat.isDigit_of_mem_toDigits (b := 10) (n := n) (by decide) (by decide) (by simpa using hc)
  have hvalue : Text.digitsValue (toString n).toList = n := by
    simpa using Directive.digitsValue_toDigits n
  have hne : (toString n).toList ≠ [] := by simp [Nat.toDigits_ne_nil]
  obtain ⟨c, rest, hcs⟩ := List.exists_cons_of_ne_nil hne
  have hplus : c ≠ '+' := by
    rintro rfl
    exact absurd (hdigits '+' (hcs ▸ List.mem_cons_self)) (by decide)
  rw [hcs] at hdigits hvalue ⊢
  have hall : (c :: rest).all Char.isDigit = true := List.all_eq_true.2 hdigits
  unfold Text.lineNumber?
  split
  · rename_i he
    exact absurd (List.cons.inj he).1 hplus
  · simp [hall, hvalue, h]

theorem setField_key_value (hline : ∀ n, f = .line n → n < UInt64.size) (t : Tag) :
    t.setField (f.key, f.value) = f.set t := by
  cases f with
  | line n =>
      have hread := lineNumber?_toString (hline n rfl)
      change { t with line := (Text.lineNumber? (toString n).toList).getD 0 } = { t with line := n }
      rw [hread, Option.getD_some]
  | scope s => cases s <;> rfl
  | kind | typeref | signature | returnType => rfl

theorem setField_of_not_mem {field : String × String} (h : field.1 ∉ Field.keys) (t : Tag) :
    t.setField field = t := by
  unfold setField
  split <;> first | rfl | simp [Field.keys] at h

theorem set_right_comm (hf : f ∈ s.fields) (hg : g ∈ s.fields) (t : Tag) :
    g.set (f.set t) = f.set (g.set t) := by
  simp only [Symbol.fields, List.mem_append, List.mem_cons, List.not_mem_nil, or_false,
    Option.mem_toList, Option.map_eq_some_iff] at hf hg
  cases f <;> cases g <;> simp_all [Field.set, within]

theorem foldl_set_fields (s : Symbol) : s.fields.foldl Field.set (bare s.name s.file) =
    { s.tag with code := "" } := by
  obtain ⟨name, file, code, kind, line, scope, typeref, signature, returnType⟩ := s
  cases scope <;> cases typeref <;> cases signature <;> cases returnType <;> rfl

theorem cut_colon {key : String} (h : key ∈ Field.keys) (value : List Char) :
    Text.cut [':'] (key.toList ++ ':' :: value) = some (key.toList, value) := by
  have hcolon : ∀ key ∈ Field.keys, ':' ∉ key.toList := by decide
  refine Text.cut_append_word List.not_mem_nil (fun hin => ?_) value
  exact hcolon key h (hin.subset List.mem_cons_self)

theorem field?_column (h : Text.trim f.value.toList = f.value.toList) :
    field? f.column.toList = some (f.key, f.value) := by
  have hcolumn : f.column.toList = f.key.toList ++ ':' :: f.value.toList := by
    simp [Field.column, String.toList_append]
  rw [field?, hcolumn, cut_colon f.key_mem_keys, Option.map_some]
  simp only [h, String.ofList_toList]

/-- A column that does not begin with the key of a field says nothing. -/
theorem key_not_mem_keys (h : ∀ key ∈ Field.keys, ¬ (key ++ ":").toList <+: column)
    {field : String × String} (hf : field? column = some field) : field.1 ∉ Field.keys := by
  obtain ⟨⟨before, after⟩, hcut, rfl⟩ := Option.map_eq_some_iff.1 hf
  obtain ⟨hcolumn, -⟩ := Text.cut_eq_some hcut
  intro hkey
  refine h _ hkey ⟨after, ?_⟩
  rw [hcolumn]
  simp [String.toList_append]

theorem foldl_setField_eq_self {columns : List (List Char)}
    (h : ∀ column ∈ columns, ∀ key ∈ Field.keys, ¬ (key ++ ":").toList <+: column) (t : Tag) :
    (columns.filterMap field?).foldl setField t = t := by
  induction columns generalizing t with
  | nil => rfl
  | cons column columns ih =>
      obtain ⟨hcolumn, hcolumns⟩ := List.forall_mem_cons.1 h
      cases hf : field? column with
      | none =>
          rw [List.filterMap_cons_none hf]
          exact ih hcolumns t
      | some field =>
          rw [List.filterMap_cons_some hf, List.foldl_cons,
            setField_of_not_mem (key_not_mem_keys hcolumn hf)]
          exact ih hcolumns t

end Tag

namespace Symbol.IsPlain

open Tag

variable {s : Symbol} {fields : List Field}

theorem column (h : s.IsPlain) {f : Field} (hf : f ∈ s.fields) :
    '\t' ∉ f.column.toList ∧ '\n' ∉ f.column.toList ∧ Text.trim f.value.toList = f.value.toList ∧
      ∀ c ∈ f.column.toList.getLast?, Text.isBlank c = false := by
  have hvalue : f.value ∈ s.fields.map Field.value := List.mem_map_of_mem hf
  have hkeys : ∀ key ∈ Field.keys, '\t' ∉ key.toList ∧ '\n' ∉ key.toList := by decide
  obtain ⟨hkt, hkn⟩ := hkeys f.key f.key_mem_keys
  have hcolumn : f.column.toList = f.key.toList ++ ':' :: f.value.toList := by
    simp [Field.column, String.toList_append]
  have htab := h.no_tab f.value (by simp [hvalue])
  have hfeed := h.no_feed f.value (by simp [hvalue])
  have htrim := h.trimmed f.value (by simp [hvalue])
  refine ⟨by simp [hcolumn, hkt, htab], by simp [hcolumn, hkn, hfeed], htrim, fun c hc => ?_⟩
  rw [hcolumn, List.getLast?_append_cons] at hc
  cases hv : f.value.toList with
  | nil =>
      rw [hv] at hc
      obtain rfl : ':' = c := by simpa using hc
      decide
  | cons first rest =>
      refine (Text.trim_eq_self_iff.1 htrim).2 c ?_
      rw [hv] at hc ⊢
      simpa using hc

/-- What is between tabs inside the code, its marks included, is no field. -/
theorem code_columns (h : s.IsPlain) :
    ∀ piece ∈ (codeStart ++ s.code.toList ++ (codeEnd ++ ['\x22'])).splitOn '\t',
      ∀ key ∈ Field.keys, ¬ (key ++ ":").toList <+: piece := by
  have hslash : ∀ key ∈ Field.keys, '/' ∉ (key ++ ":").toList := by decide
  have hdollar : ∀ key ∈ Field.keys, '$' ∉ (key ++ ":").toList ∧ (key ++ ":").toList ≠ [] := by decide
  cases hsplit : s.code.toList.splitOn '\t' with
  | nil => exact absurd hsplit (List.splitOn_ne_nil _ _)
  | cons first rest =>
      obtain ⟨head, tail, hpieces, ⟨more, rfl⟩, htail⟩ :=
        Text.splitOn_append_of_not_mem (a := codeStart) (b := codeEnd ++ ['\x22']) (by decide) (by decide)
          hsplit
      rw [hpieces]
      intro piece hp key hkey hprefix
      obtain ⟨hfree, hne⟩ := hdollar key hkey
      rcases List.mem_cons.1 hp with rfl | hp
      · cases hk : (key ++ ":").toList with
        | nil => exact hne hk
        | cons c word =>
            rw [hk] at hprefix
            obtain ⟨rfl, -⟩ := List.cons_prefix_cons.1 hprefix
            exact hslash key hkey (hk ▸ List.mem_cons_self)
      · obtain ⟨inner, hinner, hpiece⟩ := htail piece hp
        have hcode := h.no_field inner (by rw [hsplit]; exact hinner) key hkey
        obtain rfl | rfl := hpiece
        · exact hcode hprefix
        · -- a key does not reach into the mark at the end
          exact hcode (Text.prefix_of_prefix_append_cons hfree hprefix)

theorem toList_row (s : Symbol) (fields : List Field) : (s.row fields).toList =
    ['\t'].intercalate ([s.name.toList, s.file.toList,
      codeStart ++ s.code.toList ++ (codeEnd ++ ['\x22'])] ++ fields.map (·.column.toList)) := by
  have hcode : ("/^" ++ s.code ++ "$/;\x22").toList = codeStart ++ s.code.toList ++ (codeEnd ++ ['\x22']) := by
    simp [codeStart, codeEnd, String.toList_append]
  rw [row, String.toList_intercalate, List.map_append, List.map_map, List.map_cons, List.map_cons,
    List.map_cons, hcode]
  rfl

theorem code_row (h : s.IsPlain) (tail : List Char) :
    codeOf (s.name.toList ++ '\t' :: (s.file.toList ++ '\t' ::
      (codeStart ++ s.code.toList ++ (codeEnd ++ tail)))) = s.code.toList := by
  have hname := h.no_start s.name (by simp)
  have hfile := h.no_start s.file (by simp)
  have hmarked : ¬ codeEnd <:+: codeStart ++ s.code.toList := by
    have hcode := h.no_end s.code (by simp)
    simp [codeStart, codeEnd, List.infix_cons_iff, List.cons_prefix_cons] at hcode ⊢
    exact hcode
  have hstart : Text.cut codeStart (codeStart ++ s.code.toList ++ (codeEnd ++ tail)) =
      some ([], s.code.toList ++ (codeEnd ++ tail)) := by
    rw [List.append_assoc]
    exact Text.cut_append _ _
  have hend : Text.cut codeEnd (codeStart ++ s.code.toList ++ (codeEnd ++ tail)) =
      some (codeStart ++ s.code.toList, tail) := Text.cut_append_word (by decide) hmarked tail
  unfold codeOf
  rw [Text.cut_append_cons (by decide) hname, Text.cut_append_cons (by decide) hfile, hstart,
    Text.cut_append_cons (by decide) (h.no_end s.name (by simp)),
    Text.cut_append_cons (by decide) (h.no_end s.file (by simp)), hend]
  simp only [Option.map_some, List.length_append, List.length_cons, List.length_nil]
  rw [List.take_append_of_le_length (by omega)]
  exact List.take_of_length_le (by omega)

theorem foldl_columns (h : s.IsPlain) (order : fields.Perm s.fields) :
    ((fields.map (·.column.toList)).filterMap field?).foldl setField (bare s.name s.file) =
      { s.tag with code := "" } := by
  have hread : (fields.map (·.column.toList)).filterMap field? = fields.map fun f => (f.key, f.value) := by
    rw [List.filterMap_map, ← List.filterMap_eq_map']
    refine List.filterMap_congr fun f hf => ?_
    exact field?_column (h.column (order.subset hf)).2.2.1
  have hline : ∀ f ∈ fields, ∀ n, f = .line n → n < UInt64.size := by
    rintro f hf n rfl
    have hn : n = s.line := by
      simpa [Symbol.fields, Option.map_eq_some_iff] using order.subset hf
    exact hn ▸ h.line_lt
  have hset (us : List Field) (hus : us ⊆ fields) (t : Tag) :
      (us.map fun f => (f.key, f.value)).foldl setField t = us.foldl Field.set t := by
    induction us generalizing t with
    | nil => rfl
    | cons f us ih =>
        obtain ⟨hf, hus⟩ := List.cons_subset.1 hus
        rw [List.map_cons, List.foldl_cons, setField_key_value (hline f hf), ih hus, List.foldl_cons]
  rw [hread, hset fields (List.Subset.refl _), ← foldl_set_fields]
  refine order.foldl_eq' (fun f hf g hg t => ?_) _
  exact set_right_comm (order.subset hf) (order.subset hg) t

theorem exists_row (s : Symbol) (fields : List Field) : ∃ tail, (s.row fields).toList =
    s.name.toList ++ '\t' :: (s.file.toList ++ '\t' ::
      (codeStart ++ s.code.toList ++ (codeEnd ++ tail))) := by
  obtain ⟨below, hbelow⟩ := Text.exists_intercalate_cons '\t'
    (codeStart ++ s.code.toList ++ (codeEnd ++ ['\x22'])) (fields.map (·.column.toList))
  refine ⟨'\x22' :: below, ?_⟩
  rw [toList_row, List.cons_append, List.cons_append, List.cons_append, List.nil_append,
    List.intercalate_cons_cons, List.intercalate_cons_cons, hbelow]
  simp

theorem ofRow?_row (h : s.IsPlain) (order : fields.Perm s.fields) :
    ofRow? (s.row fields).toList = some s.tag := by
  have hname := h.no_tab s.name (by simp)
  have hfile := h.no_tab s.file (by simp)
  have hcolumns : (fields.map (·.column.toList)).flatMap (·.splitOn '\t') =
      fields.map (·.column.toList) := by
    refine Text.flatMap_splitOn_eq_self fun column hcolumn => ?_
    obtain ⟨f, hf, rfl⟩ := List.mem_map.1 hcolumn
    exact (h.column (order.subset hf)).1
  have hsplit : (s.row fields).toList.splitOn '\t' = s.name.toList :: s.file.toList ::
      ((codeStart ++ s.code.toList ++ (codeEnd ++ ['\x22'])).splitOn '\t' ++
        fields.map (·.column.toList)) := by
    rw [toList_row, Text.splitOn_intercalate_flatMap _ (by simp), List.flatMap_append, hcolumns]
    simp [List.splitOn_eq_singleton hname, List.splitOn_eq_singleton hfile]
  have hcode : codeOf (s.row fields).toList = s.code.toList := by
    obtain ⟨tail, hrow⟩ := exists_row s fields
    rw [hrow, h.code_row]
  unfold ofRow?
  rw [hsplit]
  simp only
  rw [List.filterMap_append, List.foldl_append, foldl_setField_eq_self h.code_columns,
    String.ofList_toList, String.ofList_toList, h.foldl_columns order, hcode, String.ofList_toList]
  rfl

theorem feed_not_mem_row (h : s.IsPlain) (order : fields.Perm s.fields) : '\n' ∉ (s.row fields).toList := by
  have hcode := h.no_feed s.code (by simp)
  rw [toList_row]
  refine Text.not_mem_intercalate (by decide) fun piece hp => ?_
  simp only [List.mem_append, List.mem_cons, List.not_mem_nil, or_false, List.mem_map] at hp
  obtain (rfl | rfl | rfl) | ⟨f, hf, rfl⟩ := hp
  · exact h.no_feed s.name (by simp)
  · exact h.no_feed s.file (by simp)
  · simp [codeStart, codeEnd, hcode]
  · exact (h.column (order.subset hf)).2.1

/-- A row begins with a name and ends with a field, and neither has blanks there. -/
theorem trim_row (h : s.IsPlain) (order : fields.Perm s.fields) :
    Text.trim (s.row fields).toList = (s.row fields).toList := by
  have htrim := (Text.trim_eq_self_iff.1 (h.trimmed s.name (by simp))).1
  refine Text.trim_eq_self_iff.2 ⟨fun c hc => htrim c ?_, fun c hc => ?_⟩
  · obtain ⟨tail, hrow⟩ := exists_row s fields
    obtain ⟨first, rest, hname⟩ := List.exists_cons_of_ne_nil (l := s.name.toList) (by simpa using h.named)
    rw [hrow, hname] at hc
    rw [hname]
    exact hc
  · have hsome : fields ≠ [] := by
      rintro rfl
      simpa [Symbol.fields] using order.length_eq
    obtain ⟨others, f, rfl⟩ := (List.eq_nil_or_concat' fields).resolve_left hsome
    have hlast : f ∈ s.fields := order.subset (by simp)
    obtain ⟨above, habove⟩ := Text.exists_intercalate_concat '\t' ([s.name.toList, s.file.toList,
      codeStart ++ s.code.toList ++ (codeEnd ++ ['\x22'])] ++ others.map (·.column.toList)) f.column.toList
    rw [toList_row, List.map_append, List.map_singleton, ← List.append_assoc, habove] at hc
    refine (h.column hlast).2.2.2 c ?_
    rw [List.getLast?_append_of_ne_nil] at hc
    · exact hc
    · simp [Field.column]

end Symbol.IsPlain

namespace Tag

def ofLine? (line : List Char) : Option Tag :=
  let row := Text.trim line
  if row.isEmpty then none else ofRow? row

theorem filterMap_ofRow?_eq (lines : List (List Char)) :
    ((lines.map Text.trim).filter (!·.isEmpty)).filterMap ofRow? = lines.filterMap ofLine? := by
  rw [List.filterMap_filter, List.filterMap_map]
  refine List.filterMap_congr fun line _ => ?_
  rw [Function.comp_apply, ofLine?]
  cases (Text.trim line).isEmpty <;> rfl

theorem filterMap_linesOf (pieces : List (List Char)) :
    (Text.linesOf pieces).filterMap ofLine? = pieces.filterMap ofLine? := by
  have hreturn (piece : List Char) : ofLine? (Text.dropReturn piece) = ofLine? piece := by
    rw [ofLine?, ofLine?, Text.trim_dropReturn]
  induction pieces with
  | nil => rfl
  | cons piece rest ih =>
      cases rest with
      | nil =>
          rw [Text.linesOf]
          cases piece <;> rfl
      | cons next rest =>
          rw [Text.linesOf, List.filterMap_cons, List.filterMap_cons, hreturn, ih]

theorem parse_intercalate {lines : List String} (h : ∀ line ∈ lines, '\n' ∉ line.toList) :
    parse ("\n".intercalate lines) = lines.filterMap fun line => ofLine? line.toList := by
  have htext : ("\n".intercalate lines).toList = ['\n'].intercalate (lines.map String.toList) := by
    simp
  rw [parse, filterMap_ofRow?_eq, Text.lines, htext, filterMap_linesOf]
  by_cases hne : lines = []
  · subst hne
    rfl
  · rw [List.splitOn_intercalate '\n' (by simpa using h) (by simpa using hne), List.filterMap_map]
    rfl

/-- A listing is read back: the tags are those of its symbols, each as it was written and in its order. -/
theorem parse_listing {symbols : List Symbol} {lines : List String} (h : Lists symbols lines)
    (hplain : ∀ s ∈ symbols, s.IsPlain) : parse ("\n".intercalate lines) = symbols.map Symbol.tag := by
  have hfeed : ∀ line ∈ lines, '\n' ∉ line.toList := by
    induction h with
    | nil => exact List.forall_mem_nil _
    | row s fields order _ ih =>
        obtain ⟨hs, hsymbols⟩ := List.forall_mem_cons.1 hplain
        exact List.forall_mem_cons.2 ⟨hs.feed_not_mem_row order, ih hsymbols⟩
    | stray line feed _ _ ih => exact List.forall_mem_cons.2 ⟨feed, ih hplain⟩
  rw [parse_intercalate hfeed]
  clear hfeed
  induction h with
  | nil => rfl
  | row s fields order _ ih =>
      obtain ⟨hs, hsymbols⟩ := List.forall_mem_cons.1 hplain
      have hline : ofLine? (s.row fields).toList = some s.tag := by
        have hrow := hs.ofRow?_row order
        have hne : (s.row fields).toList.isEmpty = false := by
          cases hempty : (s.row fields).toList with
          | nil => rw [hempty] at hrow; cases hrow
          | cons => rfl
        simp only [ofLine?, hs.trim_row order, hne]
        exact hrow
      rw [List.filterMap_cons_some (f := fun line : String => ofLine? line.toList) hline, ih hsymbols,
        List.map_cons]
  | stray line _ column _ ih =>
      have hline : ofLine? line.toList = none := by
        simp only [ofLine?, ofRow?, List.splitOn_eq_singleton column]
        split <;> rfl
      rw [List.filterMap_cons_none (f := fun line : String => ofLine? line.toList) hline, ih hplain]

/-- A method with a tab in its code and a variable, and around them lines that are no record. -/
theorem parse_listing_pets :
    parse ("\n".intercalate ["",
      "speak\tPets.ino\t/^\tvoid speak() \x7b$/;\x22\tclass:Dog\tline:4\tkind:function",
      "lonely", "n\tPets.ino\t/^int n;$/;\x22\tkind:variable\tline:9", ""]) =
    [{ bare "speak" "Pets.ino" with
        kind := .function, line := 4, code := "\tvoid speak() \x7b", scope := some (.inClass "Dog") },
      { bare "n" "Pets.ino" with kind := .plainVariable, line := 9, code := "int n;" }] := by
  let speak : Symbol :=
    ⟨"speak", "Pets.ino", "\tvoid speak() \x7b", "function", 4, some (.inClass "Dog"), none, none, none⟩
  let n : Symbol := ⟨"n", "Pets.ino", "int n;", "variable", 9, none, none, none, none⟩
  have hlists : Lists [speak, n]
      ["", speak.row speak.fields.reverse, "lonely", n.row n.fields, ""] := by
    refine .stray "" (by decide) (by decide) (.row speak _ speak.fields.reverse_perm ?_)
    refine .stray "lonely" (by decide +kernel) (by decide +kernel) (.row n _ (.refl n.fields) ?_)
    exact .stray "" (by decide) (by decide) .nil
  have hspeak : speak.row speak.fields.reverse =
      "speak\tPets.ino\t/^\tvoid speak() \x7b$/;\x22\tclass:Dog\tline:4\tkind:function" := by decide +kernel
  have hn : n.row n.fields = "n\tPets.ino\t/^int n;$/;\x22\tkind:variable\tline:9" := by decide +kernel
  have hplain : ∀ s ∈ [speak, n], s.IsPlain := by decide +kernel
  rw [← hspeak, ← hn, parse_listing hlists hplain]
  decide +kernel

end Tag

end SketchPrep
