import SketchPrep.Proofs.FileTree.Growth
import SketchPrep.Proofs.FileTree.Stages
import SketchPrep.Proofs.Preparation

namespace SketchPrep

open FileTree

variable {σ τ α β : Type} {t t' u : FileTree} {s s' : σ} {S : Location → Prop} {p q : Path}

theorem exists_of_run_ok {x : ExceptT Failure (StateM τ) α} {f : α → ExceptT Failure (StateM τ) β} {v w : τ}
    {b : β} (h : (x >>= f).run.run v = (.ok b, w)) :
    ∃ a v', x.run.run v = (.ok a, v') ∧ (f a).run.run v' = (.ok b, w) := by
  rcases hx : x.run.run v with ⟨_ | a, v'⟩
  · rw [StaysBelow.run_bind_error hx] at h
    cases h
  · rw [StaysBelow.run_bind_ok hx] at h
    exact ⟨a, v', rfl, h⟩

theorem eq_of_run_pure {a b : α} {v w : τ}
    (h : (pure a : ExceptT Failure (StateM τ) α).run.run v = (.ok b, w)) : a = b ∧ v = w := by
  cases h
  exact ⟨rfl, rfl⟩

namespace FileWork

theorem change_ok {activity : Activity} {f : FileTree → Except Failure FileTree}
    (h : (change activity f).run.run t = (.ok (), t')) : f t = .ok t' := by
  have hget : (get : FileWork FileTree).run.run t = (.ok t, t) := rfl
  rw [change, StaysBelow.run_bind_ok hget] at h
  cases hf : f t with
  | error e => rw [hf] at h; cases h
  | ok u => rw [hf] at h; cases h; rfl

theorem ensureFolder_grows (h : (ensureFolder p).run.run t = (.ok (), t')) : Grows S t t' := by
  have hget : (get : FileWork FileTree).run.run t = (.ok t, t) := rfl
  rw [ensureFolder, StaysBelow.run_bind_ok hget] at h
  cases hf : t.ensureFolder p with
  | error failed => rw [hf] at h; cases h
  | ok u =>
      rw [hf] at h
      cases h
      exact FileTree.ensureFolder_grows hf

theorem ensureParent_grows (h : (ensureParent p).run.run t = (.ok (), t')) : Grows S t t' := by
  unfold ensureParent at h
  split at h
  · exact ensureFolder_grows h
  · cases h
    exact .refl S t

theorem save_spec {text : String} (h : (save p text).run.run t = (.ok (), t')) :
    ∃ location runnable, Grows (· = location) t t' ∧
      t'.entry? p = .ok (location, .file text.toUTF8 runnable) := by
  obtain ⟨_, u, hparent, h⟩ := exists_of_run_ok h
  obtain ⟨location, runnable, hgrows, hfound⟩ := write_grows (ok_of_mapError (change_ok h))
  exact ⟨location, runnable, (ensureParent_grows hparent).trans hgrows, hfound⟩

theorem copy_spec (h : (copy p q).run.run t = (.ok (), t')) :
    ∃ location content runnable, Grows (· = location) t t' ∧
      t'.entry? q = .ok (location, .file content runnable) := by
  obtain ⟨_, u, hparent, h⟩ := exists_of_run_ok h
  obtain ⟨location, content, runnable, hgrows, hfound⟩ := copy_grows (ok_of_mapError (change_ok h))
  exact ⟨location, content, runnable, (ensureParent_grows hparent).trans hgrows, hfound⟩

end FileWork

namespace PreparationOrder

open Preparing

variable {o : PreparationOrder} {sketch : Sketch} {files : List SketchFile} {copies : List Path}

theorem change_ok {work : FileWork Unit}
    (h : (change work : Preparing σ Unit).run.run (t, s) = (.ok (), t', s')) :
    work.run.run t = (.ok (), t') ∧ s' = s := by
  have hrun : (change work : Preparing σ Unit).run.run (t, s) =
      ((work.run.run t).1, (work.run.run t).2, s) := rfl
  rw [hrun, Prod.mk.injEq, Prod.mk.injEq] at h
  exact ⟨Prod.ext h.1 h.2.1, h.2.2.symm⟩

def IsCopyPlace (o : PreparationOrder) (sketch : Sketch) (t : FileTree) (files : List SketchFile)
    (location : Location) : Prop :=
  ∃ f ∈ files, ∃ entry, t.entry? (o.copyOf sketch f) = .ok (location, entry)

theorem copyAdditional_spec
    (h : (o.copyAdditional sketch files : Preparing σ (List Path)).run.run (t, s) = (.ok copies, t', s')) :
    s' = s ∧ copies = (files.map (o.copyOf sketch)).filter isSourceFile ∧
      Grows (o.IsCopyPlace sketch t' files) t t' ∧
      ∀ f ∈ files, ∃ location content runnable,
        t'.entry? (o.copyOf sketch f) = .ok (location, .file content runnable) := by
  induction files generalizing t s copies with
  | nil =>
      cases h
      exact ⟨rfl, rfl, .refl _ _, List.forall_mem_nil _⟩
  | cons f files ih =>
      obtain ⟨_, ⟨u, s₁⟩, hchange, h⟩ := exists_of_run_ok h
      obtain ⟨rest, ⟨u', s₂⟩, hrest, h⟩ := exists_of_run_ok h
      obtain ⟨rfl, ⟨⟩⟩ := eq_of_run_pure h
      obtain ⟨hcopy, rfl⟩ := change_ok hchange
      obtain ⟨rfl, rfl, hgrows, hcopies⟩ := ih hrest
      obtain ⟨location, content, runnable, hfirst, hfound⟩ := FileWork.copy_spec hcopy
      obtain ⟨content', runnable', hagain⟩ := hgrows.file_again hfound
      refine ⟨rfl, ?_, ?_, ?_⟩
      · rw [List.map_cons, List.filter_cons]
      · refine (hfirst.mono ?_).trans (hgrows.mono ?_)
        · rintro _ rfl
          exact ⟨f, List.mem_cons_self, _, hagain⟩
        · rintro _ ⟨g, hg, hplace⟩
          exact ⟨g, List.mem_cons_of_mem _ hg, hplace⟩
      · exact List.forall_mem_cons.2 ⟨⟨location, content', runnable', hagain⟩, hcopies⟩

theorem copyAdditional_split {before after : List SketchFile} {f : SketchFile}
    (h : (o.copyAdditional sketch (before ++ f :: after) : Preparing σ (List Path)).run.run (t, s) =
      (.ok copies, t', s')) :
    ∃ copied rest t₁ t₂, (o.copyAdditional sketch before).run.run (t, s) = (.ok copied, t₁, s') ∧
      (FileWork.copy f.path (o.copyOf sketch f)).run.run t₁ = (.ok (), t₂) ∧
      (o.copyAdditional sketch after).run.run (t₂, s') = (.ok rest, t', s') := by
  induction before generalizing t s copies with
  | nil =>
      obtain ⟨_, ⟨u, s₁⟩, hchange, h⟩ := exists_of_run_ok h
      obtain ⟨rest, ⟨u', s₂⟩, hrest, h⟩ := exists_of_run_ok h
      obtain ⟨rfl, ⟨⟩⟩ := eq_of_run_pure h
      obtain ⟨hcopy, rfl⟩ := change_ok hchange
      obtain ⟨rfl, -⟩ := copyAdditional_spec hrest
      exact ⟨[], rest, t, u, rfl, hcopy, hrest⟩
  | cons g before ih =>
      obtain ⟨_, ⟨u, s₁⟩, hchange, h⟩ := exists_of_run_ok h
      obtain ⟨others, ⟨u', s₂⟩, hothers, h⟩ := exists_of_run_ok h
      obtain ⟨rfl, ⟨⟩⟩ := eq_of_run_pure h
      obtain ⟨copied, rest, t₁, t₂, hbefore, hcopy, hafter⟩ := ih hothers
      refine ⟨if isSourceFile (o.copyOf sketch g) then o.copyOf sketch g :: copied else copied, rest, t₁, t₂,
        ?_, hcopy, hafter⟩
      rw [copyAdditional, StaysBelow.run_bind_ok hchange, StaysBelow.run_bind_ok hbefore]
      rfl

theorem writeFiles_spec {tools : Tools σ}
    (h : (o.writeFiles tools sketch files).run.run (t, s) = (.ok copies, t', s')) :
    ∃ location runnable t₁, Grows (· = location) t t₁ ∧
      t₁.entry? (o.output sketch) = .ok (location, .file sketch.merge.source.toUTF8 runnable) ∧
      ∀ others, (o.writeFiles tools sketch others).run.run (t, s) =
        (o.copyAdditional sketch others).run.run (t₁, s') := by
  obtain ⟨_, ⟨u, s₁⟩, htell, h⟩ := exists_of_run_ok h
  obtain ⟨_, ⟨t₁, s₂⟩, hchange, h⟩ := exists_of_run_ok h
  obtain ⟨rfl, -⟩ := copyAdditional_spec h
  have hrun (others : List SketchFile) : (o.writeFiles tools sketch others).run.run (t, s) =
      (o.copyAdditional sketch others).run.run (t₁, s') := by
    rw [writeFiles, StaysBelow.run_bind_ok htell, StaysBelow.run_bind_ok hchange]
  cases htell
  obtain ⟨hsave, -⟩ := change_ok hchange
  obtain ⟨location, runnable, hgrows, hfound⟩ := FileWork.save_spec hsave
  exact ⟨location, runnable, t₁, hgrows, hfound, hrun⟩

theorem sketchFolder_text (o : PreparationOrder) :
    o.sketchFolder.text.toList ≠ [] ∧ o.sketchFolder.text.toList.getLast? ≠ some '/' := by
  have hsketch : ∃ text, o.sketchFolder.text.toList = text ++ "sketch".toList := by
    by_cases hb : o.buildFolder.text.toList = []
    · refine ⟨[], ?_⟩
      rw [show o.sketchFolder = ⟨"sketch"⟩ from Path.join_of_empty hb]
      rfl
    · obtain ⟨folder, -, hjoined⟩ := Path.exists_toList_join hb (q := ⟨"sketch"⟩) (by decide)
      refine ⟨folder ++ ['/'], ?_⟩
      rw [List.append_assoc]
      exact hjoined
  obtain ⟨text, htext⟩ := hsketch
  rw [htext]
  exact ⟨by simp, by rw [List.getLast?_append_of_ne_nil _ (by decide)]; decide⟩

structure IsTarget (o : PreparationOrder) (p : Path) (names : Location) : Prop where
  plain : names.IsPlain
  below : names ≠ []
  join : ∃ q : Path, p = o.sketchFolder.join q ∧ q.isAbsolute = false ∧ q.way = names

theorem output_isTarget (o : PreparationOrder) (sketch : Sketch) :
    o.IsTarget (o.output sketch) [sketch.name ++ ".cpp"] := by
  have hplain : Path.isPlain (sketch.name ++ ".cpp") = true := isPlain_sourceName sketch
  refine ⟨Location.isPlain_singleton.2 hplain, List.cons_ne_nil _ _, ⟨sketch.name ++ ".cpp"⟩, rfl, ?_, ?_⟩
  · exact Path.isAbsolute_of_not_mem (Path.isPlain_iff.1 hplain).1
  · exact Path.way_of_isPlain hplain

theorem copyOf_isTarget {base names : Location} {f : SketchFile} (hbase : base.IsPlain) (hn : names.IsPlain)
    (hne : names ≠ []) (hfolder : sketch.folder = base.path) (hf : f.path = (base ++ names).path) :
    o.IsTarget (o.copyOf sketch f) names := by
  obtain ⟨hway, habs⟩ := Location.way_ofComponents hn
  refine ⟨hn, hne, Path.ofComponents (names.map Component.name), ?_, habs, hway⟩
  rw [copyOf, hf, hfolder, Location.relativeTo_path hbase hn]

theorem exists_of_isTarget {names : Location} (hl : t.LinkFree o.sketchFolder) (hp : o.IsTarget p names)
    {found : Location × Entry} (hf : t.entry? p = .ok found) :
    ∃ place, t.entry? o.sketchFolder = .ok (place, .folder) ∧ found.1 = place ++ names := by
  obtain ⟨q, rfl, habs, rfl⟩ := hp.join
  obtain ⟨hne, hlast⟩ := o.sketchFolder_text
  exact exists_of_join hl hne hlast habs hp.plain hp.below hf

/-- Targets lead to one place only by the same names. -/
theorem apart_iff {names others : Location} (hl : t.LinkFree o.sketchFolder) (hp : o.IsTarget p names)
    (hq : o.IsTarget q others) {found found' : Location × Entry} (hfp : t.entry? p = .ok found)
    (hfq : t.entry? q = .ok found') : t.Apart p q ↔ names ≠ others := by
  obtain ⟨place, hplace, hlocation⟩ := exists_of_isTarget hl hp hfp
  obtain ⟨place', hplace', hlocation'⟩ := exists_of_isTarget hl hq hfq
  rw [hplace] at hplace'
  cases hplace'
  constructor
  · rintro hapart rfl
    refine hapart found.1 found.2 found'.2 hfp ?_
    rw [hlocation, ← hlocation', hfq]
  · intro hne location entry other hlp hlq
    rw [hlp] at hfp
    rw [hlq] at hfq
    cases hfp
    cases hfq
    exact hne (List.append_cancel_left (hlocation.symm.trans hlocation'))

section

variable (hnames : t.WellNamed) (hload : Sketch.load t o.sketch = .ok sketch)
  (hverbatim : Pattern.isVerbatim sketch.folder.text.toList = true) (hlinks : t'.LinkFree o.sketchFolder)
  (hcopied : ∀ f ∈ sketch.additional, ∃ found, t'.entry? (o.copyOf sketch f) = .ok found)

include hnames hload hverbatim hlinks hcopied

theorem pairwise_apart :
    sketch.additional.Pairwise fun f g => t'.Apart (o.copyOf sketch f) (o.copyOf sketch g) := by
  obtain ⟨base, hbase, hfolder, hadditional⟩ := Sketch.load_additional_of_verbatim hnames hload hverbatim
  refine (Sketch.pairwise_additional hload).imp_of_mem fun {f g} hf hg hpaths => ?_
  obtain ⟨names, hn, hne, hpath⟩ := hadditional f hf
  obtain ⟨others, ho, hoe, hpath'⟩ := hadditional g hg
  obtain ⟨_, hfound⟩ := hcopied f hf
  obtain ⟨_, hfound'⟩ := hcopied g hg
  apply (apart_iff hlinks (copyOf_isTarget hbase hn hne hfolder hpath)
    (copyOf_isTarget hbase ho hoe hfolder hpath') hfound hfound').2
  rintro rfl
  rw [hpath, hpath', Path.same_refl] at hpaths
  cases hpaths

theorem apart_output_iff {found : Location × Entry} (houtput : t'.entry? (o.output sketch) = .ok found)
    {f : SketchFile} (hf : f ∈ sketch.additional) : t'.Apart (o.output sketch) (o.copyOf sketch f) ↔
      f.path.same (sketch.folder / (sketch.name ++ ".cpp")) = false := by
  obtain ⟨base, hbase, hfolder, hadditional⟩ := Sketch.load_additional_of_verbatim hnames hload hverbatim
  obtain ⟨names, hn, hne, hpath⟩ := hadditional f hf
  obtain ⟨_, hfound⟩ := hcopied f hf
  have htarget := output_isTarget o sketch
  rw [apart_iff hlinks htarget (copyOf_isTarget hbase hn hne hfolder hpath) houtput hfound, hpath, hfolder,
    Location.path_div hbase (Location.isPlain_singleton.1 htarget.plain), ← Bool.not_eq_true,
    Location.same_path_iff (hbase.append hn) (hbase.append htarget.plain), List.append_cancel_left_eq]
  exact ne_comm

end

/-- A copy that is the only one at its place stays as it was made. -/
theorem copyAdditional_keeps {before after : List SketchFile} {f : SketchFile}
    (h : (o.copyAdditional sketch (before ++ f :: after) : Preparing σ (List Path)).run.run (t, s) =
      (.ok copies, t', s'))
    (hapart : ∀ g ∈ after, t'.Apart (o.copyOf sketch f) (o.copyOf sketch g)) :
    ∃ copied t₁ t₂ content, (o.copyAdditional sketch before).run.run (t, s) = (.ok copied, t₁, s') ∧
      (FileWork.copy f.path (o.copyOf sketch f)).run.run t₁ = (.ok (), t₂) ∧
      t₂.read (o.copyOf sketch f) = .ok content ∧ t'.read (o.copyOf sketch f) = .ok content := by
  obtain ⟨copied, rest, t₁, t₂, hbefore, hcopy, hafter⟩ := copyAdditional_split h
  obtain ⟨-, -, hlater, -⟩ := copyAdditional_spec hafter
  obtain ⟨place, content, runnable, -, hfound⟩ := FileWork.copy_spec hcopy
  obtain ⟨_, _, hfound'⟩ := hlater.file_again hfound
  have hplace : ¬ o.IsCopyPlace sketch t' after place := by
    rintro ⟨g, hg, entry, hother⟩
    exact hapart g hg place _ entry hfound' hother
  refine ⟨copied, t₁, t₂, content, hbefore, hcopy, ?_, ?_⟩
  · rw [FileTree.read, hfound]
  · rw [FileTree.read, hlater.entry?_of_not hplace rfl hfound]

/-- The search for libraries begins with the sources as they were written, as far as they have places of their
own: the merged source, if no file is copied to its place, and the copies. In a folder without links all copies
have such places, and the merged source has one unless an additional file of the sketch has the name of its file
and is beside the main file. -/
theorem writeFiles_keeps (o : PreparationOrder) (tools : Tools σ) (hnames : t.WellNamed)
    (hload : Sketch.load t o.sketch = .ok sketch)
    (hrun : (o.writeFiles tools sketch sketch.additional).run.run (t, s) = (.ok copies, t', s')) :
    (o.prepare tools).run.run (t, s) = (o.prepareFrom tools sketch copies).run.run (t', s') ∧
    copies = (sketch.additional.map (o.copyOf sketch)).filter isSourceFile ∧
    ((∀ f ∈ sketch.additional, t'.Apart (o.output sketch) (o.copyOf sketch f)) →
      t'.read (o.output sketch) = .ok sketch.merge.source.toUTF8) ∧
    (sketch.additional.Pairwise (fun f g => t'.Apart (o.copyOf sketch f) (o.copyOf sketch g)) →
      ∀ before f after, sketch.additional = before ++ f :: after → ∃ copied t₁ t₂ content,
        (o.writeFiles tools sketch before).run.run (t, s) = (.ok copied, t₁, s') ∧
          (FileWork.copy f.path (o.copyOf sketch f)).run.run t₁ = (.ok (), t₂) ∧
          t₂.read (o.copyOf sketch f) = .ok content ∧ t'.read (o.copyOf sketch f) = .ok content) ∧
    (Pattern.isVerbatim sketch.folder.text.toList = true → t'.LinkFree o.sketchFolder →
      sketch.additional.Pairwise (fun f g => t'.Apart (o.copyOf sketch f) (o.copyOf sketch g)) ∧
      ∀ f ∈ sketch.additional, t'.Apart (o.output sketch) (o.copyOf sketch f) ↔
        f.path.same (sketch.folder / (sketch.name ++ ".cpp")) = false) := by
  obtain ⟨location, runnable, t₁, -, houtput, hwrite⟩ := writeFiles_spec hrun
  have hcopying := (hwrite sketch.additional).symm.trans hrun
  obtain ⟨-, hcopies, hgrows, hfiles⟩ := copyAdditional_spec hcopying
  obtain ⟨_, _, houtput'⟩ := hgrows.file_again houtput
  refine ⟨?_, hcopies, fun hapart => ?_, fun hpairs before f after hsplit => ?_, fun hverbatim hlinks => ?_⟩
  · rw [run_prepare_of_load tools s hload, StaysBelow.run_bind_ok hrun]
  · -- the places of the copies are those in the last tree, so the merged source is looked up there too
    have hplace : ¬ o.IsCopyPlace sketch t' sketch.additional location := by
      rintro ⟨f, hf, entry, hfound⟩
      exact hapart f hf location _ entry houtput' hfound
    rw [FileTree.read, hgrows.entry?_of_not hplace rfl houtput]
  · rw [hsplit] at hcopying hpairs
    rw [hwrite before]
    exact copyAdditional_keeps hcopying (List.pairwise_cons.1 (List.pairwise_append.1 hpairs).2.1).1
  · have hcopied : ∀ f ∈ sketch.additional, ∃ found, t'.entry? (o.copyOf sketch f) = .ok found := by
      intro f hf
      obtain ⟨place, content, marked, hfound⟩ := hfiles f hf
      exact ⟨_, hfound⟩
    exact ⟨pairwise_apart hnames hload hverbatim hlinks hcopied,
      fun f hf => apart_output_iff hnames hload hverbatim hlinks hcopied houtput' hf⟩

theorem writeFiles_linkFree {tools : Tools σ} (hlinks : ∀ e ∈ t.entries, ∀ target, e.2 ≠ .link target)
    (h : (o.writeFiles tools sketch files).run.run (t, s) = (.ok copies, t', s')) (p : Path) : t'.LinkFree p := by
  obtain ⟨_, _, _, hfirst, -, hwrite⟩ := writeFiles_spec h
  obtain ⟨-, -, hgrows, -⟩ := copyAdditional_spec ((hwrite files).symm.trans h)
  intro place way target _ hlink
  exact noLinks_of_entries hlinks ⟨"/"⟩ _ target (.inr (List.nil_prefix)) (hfirst.links _ _ (hgrows.links _ _ hlink))

def spareTree (spare : String) : FileTree where
  entries := [(["Blink.ino"], .file "int led;".toUTF8 false), ([spare], .file "int spare;".toUTF8 false)]
  here := []

def spareOrder : PreparationOrder where
  sketch := ⟨"Blink.ino"⟩
  buildFolder := ⟨"build"⟩
  configured := []
  includeDirs := []
  platforms := ⟨⟨"avr", ⟨"/avr"⟩⟩, ⟨"avr", ⟨"/avr"⟩⟩⟩

def spareSketch (spare : String) : Sketch where
  folder := ⟨"/"⟩
  main := ⟨⟨"/Blink.ino"⟩, "int led;"⟩
  others := []
  additional := [⟨(⟨"/"⟩ : Path) / spare, "int spare;"⟩]

def spareSources (spare : String) : FileTree :=
  ((spareOrder.writeFiles contentTools (spareSketch spare) (spareSketch spare).additional).run.run
    (spareTree spare, ())).2.1

def spares : List String := ["Blink.ino.cpp", "twice.cpp"]

def withExtension (ext : String) : Pattern := [.anyText, .char '.'] ++ ext.toList.map .char

variable {spare ext : String}

theorem search_spareTree (hs : spare ∈ spares) (he : ext ∈ Sketch.mergedExtensions ++ Sketch.additionalExtensions)
    {parsed : PathPattern} (hp : PathPattern.parse ((⟨"/"⟩ : Path) / ("*." ++ ext)).text = .ok parsed) :
    (spareTree spare).search parsed =
      (["Blink.ino", spare].filter fun name => (withExtension ext).fits name.toList).map (inside ⟨"/"⟩) := by
  have hparse : ∀ ext ∈ Sketch.mergedExtensions ++ Sketch.additionalExtensions,
      (PathPattern.parse ((⟨"/"⟩ : Path) / ("*." ++ ext)).text).toOption.map
        (fun p => (p.start, p.components, p.onlyFolders)) = some (⟨"/"⟩, [withExtension ext], false) := by
    decide +kernel
  have hkind : ∀ ext ∈ Sketch.mergedExtensions ++ Sketch.additionalExtensions,
      (withExtension ext).literal? = none ∧ dotsFor (withExtension ext) = [] ∧
        (withExtension ext).isRecursive = false := by decide +kernel
  have hlisted : ∀ spare ∈ spares, (((spareTree spare).list ⟨"/"⟩).toOption.getD []).map (·.1) =
      ["Blink.ino", spare] ∧ ["Blink.ino", spare].Pairwise (· ≤ ·) := by decide +kernel
  have hparsed := hparse ext he
  rw [hp] at hparsed
  obtain ⟨hstart, hcomponents, honly⟩ :
      parsed.start = ⟨"/"⟩ ∧ parsed.components = [withExtension ext] ∧ parsed.onlyFolders = false := by
    simpa [Except.toOption] using hparsed
  obtain ⟨hliteral, hdots, hrecursive⟩ := hkind ext he
  obtain ⟨hnames, hsorted⟩ := hlisted spare hs
  obtain ⟨n, hbound⟩ : ∃ n, (spareTree spare).searchBound parsed = n + 2 :=
    Nat.exists_eq_add_of_le' (by simp [searchBound, hcomponents, spareTree, linkLimit])
  rw [search, hbound, hstart, hcomponents, honly, matching_names hliteral hdots hrecursive hnames hsorted]
  exact List.map_eq_flatMap.symm

theorem findFiles_spareTree (hs : spare ∈ spares) : (spareTree spare).findFiles ⟨"/"⟩ Sketch.patterns =
    .ok [⟨"/Blink.ino"⟩, (⟨"/"⟩ : Path) / spare] := by
  have hparse : ∀ text ∈ Sketch.patterns,
      (PathPattern.parse ((⟨"/"⟩ : Path) / text).text).toOption.isSome = true := by decide +kernel
  have hbelow : ∀ spare ∈ spares, ∀ ext ∈ Sketch.mergedExtensions ++ Sketch.additionalExtensions,
      (spareTree spare).foundBy ⟨"/"⟩ ("src/**/*." ++ ext) = [] := by decide +kernel
  have hnames : ∀ spare ∈ spares, ((Sketch.mergedExtensions ++ Sketch.additionalExtensions).flatMap fun ext =>
      (["Blink.ino", spare].filter fun name => (withExtension ext).fits name.toList).map (inside ⟨"/"⟩)) =
        [⟨"/Blink.ino"⟩, (⟨"/"⟩ : Path) / spare] := by decide +kernel
  have hkept : ∀ spare ∈ spares, [⟨"/Blink.ino"⟩, (⟨"/"⟩ : Path) / spare].filter (spareTree spare).isFile =
      [⟨"/Blink.ino"⟩, (⟨"/"⟩ : Path) / spare] := by decide +kernel
  have hsorted : ∀ spare ∈ spares, [⟨"/Blink.ino"⟩, (⟨"/"⟩ : Path) / spare].Pairwise (fun p q => p.le q) ∧
      Path.withoutRepeats [⟨"/Blink.ino"⟩, (⟨"/"⟩ : Path) / spare] =
        [⟨"/Blink.ino"⟩, (⟨"/"⟩ : Path) / spare] := by decide +kernel
  have hfound : Sketch.patterns.flatMap ((spareTree spare).foundBy ⟨"/"⟩) =
      [⟨"/Blink.ino"⟩, (⟨"/"⟩ : Path) / spare] := by
    rw [← hnames spare hs, Sketch.patterns, List.flatMap_assoc]
    refine List.flatMap_congr fun ext he => ?_
    rw [List.flatMap_cons, List.flatMap_singleton, hbelow spare hs ext he, List.append_nil, foundBy]
    have hsome := hparse ("*." ++ ext) (List.mem_flatMap.2 ⟨ext, he, List.mem_cons_self⟩)
    cases hp : PathPattern.parse ((⟨"/"⟩ : Path) / ("*." ++ ext)).text with
    | error => rw [hp] at hsome; cases hsome
    | ok parsed => exact search_spareTree hs he hp
  obtain ⟨hpairs, hdistinct⟩ := hsorted spare hs
  rw [findFiles_eq hparse, hfound, hkept spare hs, Path.sort, List.mergeSort_of_pairwise hpairs, hdistinct]

def spareRoles (spare : String) : List (Sketch.Role × SketchFile) :=
  (spareSketch spare).additional.map fun file => (.additional, file)

theorem load_spareTree (hs : spare ∈ spares) :
    Sketch.load (spareTree spare) spareOrder.sketch = .ok (spareSketch spare) := by
  have hplace : ∀ spare ∈ spares, ((spareTree spare).canonical spareOrder.sketch).toOption = some ⟨"/Blink.ino"⟩ ∧
      (Sketch.locate (spareTree spare) ⟨"/Blink.ino"⟩).toOption = some (⟨"/"⟩, ⟨"/Blink.ino"⟩) ∧
      (Sketch.loadFile (spareTree spare) ⟨"/Blink.ino"⟩).toOption = some (spareSketch spare).main := by
    decide +kernel
  have hroles : ∀ spare ∈ spares, (([(⟨"/Blink.ino"⟩ : Path), (⟨"/"⟩ : Path) / spare].filterMap fun p =>
      (Sketch.role? ⟨"/"⟩ ⟨"/Blink.ino"⟩ p).map fun role => (role, p)).mapM
        (fun ((role, p) : Sketch.Role × Path) => do
          return (role, ← Sketch.loadFile (spareTree spare) p))).toOption = some (spareRoles spare) := by
    decide +kernel
  obtain ⟨hcanonical, hlocate, hmain⟩ := hplace spare hs
  exact Sketch.load_eq (ok_of_toOption hcanonical) (ok_of_toOption hlocate) (by decide +kernel)
    (ok_of_toOption hmain) (findFiles_spareTree hs) (ok_of_toOption (hroles spare hs))

theorem writeFiles_spareTree (hs : spare ∈ spares) :
    (spareOrder.writeFiles contentTools (spareSketch spare) (spareSketch spare).additional).run.run
      (spareTree spare, ()) = (.ok [spareOrder.sketchFolder / spare], spareSources spare, ()) := by
  have hcopies : ∀ spare ∈ spares,
      ((spareOrder.writeFiles contentTools (spareSketch spare) (spareSketch spare).additional).run.run
        (spareTree spare, ())).1.toOption = some [spareOrder.sketchFolder / spare] := by decide +kernel
  exact run_eq_of_toOption (hcopies spare hs)

theorem writeFiles_keeps_twice :
    (spareTree "twice.cpp").WellNamed ∧
      Sketch.load (spareTree "twice.cpp") spareOrder.sketch = .ok (spareSketch "twice.cpp") ∧
      (spareSources "twice.cpp").read (spareOrder.output (spareSketch "twice.cpp")) =
        .ok (spareSketch "twice.cpp").merge.source.toUTF8 := by
  have hs : "twice.cpp" ∈ spares := by decide
  have hnames : (spareTree "twice.cpp").WellNamed := by
    unfold WellNamed
    decide +kernel
  have hload := load_spareTree hs
  have hrun := writeFiles_spareTree hs
  obtain ⟨-, -, hkept, -, hplaces⟩ := writeFiles_keeps spareOrder contentTools hnames hload hrun
  have hlinks := writeFiles_linkFree (by simp [spareTree]) hrun spareOrder.sketchFolder
  refine ⟨hnames, hload, hkept fun f hf => ((hplaces (by decide) hlinks).2 f hf).2 ?_⟩
  rw [List.mem_singleton.1 hf]
  decide +kernel

/-- An additional file with the name of the merged source is copied over it. -/
theorem output_overwritten : Sketch.load (spareTree "Blink.ino.cpp") spareOrder.sketch =
      .ok (spareSketch "Blink.ino.cpp") ∧
    ((spareSources "Blink.ino.cpp").readText (spareOrder.output (spareSketch "Blink.ino.cpp"))).toOption =
      some "int spare;" :=
  ⟨load_spareTree (by decide), by decide +kernel⟩

end PreparationOrder

end SketchPrep
