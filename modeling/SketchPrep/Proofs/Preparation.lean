import SketchPrep.Preparation
import SketchPrep.Proofs.FileTree.ChangedBelow
import SketchPrep.Proofs.Sketch.Load

namespace SketchPrep

open FileTree

variable {σ τ α β : Type} {view : τ → FileTree} {p : Path}

/-- However the work ends, it has changed nothing but what is below `p`. -/
def StaysBelow (view : τ → FileTree) (p : Path) (work : ExceptT Failure (StateM τ) α) : Prop :=
  ∀ s, (view s).NoLinks p → ChangedBelow p (view s) (view (work.run.run s).2)

namespace StaysBelow

theorem pure (a : α) : StaysBelow view p (Pure.pure a) := fun s _ => .refl p (view s)

theorem run_bind_ok {x : ExceptT Failure (StateM τ) α} {f : α → ExceptT Failure (StateM τ) β} {s s' : τ}
    {a : α} (h : x.run.run s = (.ok a, s')) : (x >>= f).run.run s = (f a).run.run s' := by
  rw [ExceptT.run_bind, StateT.run_bind, h]
  rfl

theorem run_bind_error {x : ExceptT Failure (StateM τ) α} {f : α → ExceptT Failure (StateM τ) β}
    {s s' : τ} {e : Failure} (h : x.run.run s = (.error e, s')) :
    (x >>= f).run.run s = (.error e, s') := by
  rw [ExceptT.run_bind, StateT.run_bind, h]
  rfl

theorem bind {x : ExceptT Failure (StateM τ) α} {f : α → ExceptT Failure (StateM τ) β}
    (hx : StaysBelow view p x) (hf : ∀ a, StaysBelow view p (f a)) : StaysBelow view p (x >>= f) := by
  intro s hl
  have hfirst := hx s hl
  rcases hr : x.run.run s with ⟨_ | a, s'⟩
  · rw [hr] at hfirst
    rw [run_bind_error hr]
    exact hfirst
  · rw [hr] at hfirst
    rw [run_bind_ok hr]
    exact hfirst.trans (hf a s' (hfirst.noLinks hl))

end StaysBelow

namespace FileWork

variable {q : Path}

theorem change_staysBelow (activity : Activity) {f : FileTree → Except Failure FileTree}
    (h : ∀ t t', t.NoLinks p → f t = .ok t' → ChangedBelow p t t') :
    StaysBelow id p (change activity f) := by
  intro t hl
  have hget : (get : FileWork FileTree).run.run t = (.ok t, t) := rfl
  rw [change, StaysBelow.run_bind_ok hget]
  cases hf : f t with
  | error e => exact .refl p t
  | ok t' => exact h t t' hl hf

theorem ensureFolder_staysBelow (h : q.Follows p) : StaysBelow id p (ensureFolder q) := by
  intro t hl
  have hget : (get : FileWork FileTree).run.run t = (.ok t, t) := rfl
  have hchanged : ChangedBelow p t (after (t.ensureFolder q)) := ensureFolder_changedBelow hl h
  rw [ensureFolder, StaysBelow.run_bind_ok hget]
  cases hm : t.ensureFolder q with
  | error failed =>
      rw [hm] at hchanged
      exact hchanged
  | ok t' =>
      rw [hm] at hchanged
      exact hchanged

theorem ensureParent_staysBelow (h : q.Follows p) : StaysBelow id p (ensureParent q) := by
  unfold ensureParent
  split
  · rename_i folder hfolder
    exact ensureFolder_staysBelow (h.parent? hfolder)
  · exact .pure ()

theorem save_staysBelow (h : q.Descends p) (text : String) : StaysBelow id p (save q text) := by
  refine .bind (ensureParent_staysBelow h.follows) fun _ => change_staysBelow _ fun t t' hl hw => ?_
  exact write_changedBelow hl h (ok_of_mapError hw)

theorem copy_staysBelow (source : Path) (h : q.Descends p) : StaysBelow id p (copy source q) := by
  refine .bind (ensureParent_staysBelow h.follows) fun _ => change_staysBelow _ fun t t' hl hc => ?_
  exact copy_changedBelow hl h (ok_of_mapError hc)

end FileWork

namespace Preparing

theorem tree_staysBelow : StaysBelow Prod.fst p (tree : Preparing σ FileTree) := fun s _ => .refl p s.1

theorem look_staysBelow (f : FileTree → Except Failure α) :
    StaysBelow Prod.fst p (look f : Preparing σ α) := fun s _ => .refl p s.1

theorem ask_staysBelow (question : FileTree → σ → Except Failure α × σ) :
    StaysBelow Prod.fst p (ask question) := fun s _ => .refl p s.1

theorem tell_staysBelow (tools : Tools σ) (es : List LogEvent) :
    StaysBelow Prod.fst p (tell tools es) := ask_staysBelow _

theorem change_staysBelow {work : FileWork Unit} (h : StaysBelow id p work) :
    StaysBelow Prod.fst p (change work : Preparing σ Unit) := fun s hl => h s.1 hl

end Preparing

namespace PreparationOrder

open Preparing

variable {o : PreparationOrder} {sketch : Sketch} {q : Path}

def output (o : PreparationOrder) (sketch : Sketch) : Path := o.sketchFolder / (sketch.name ++ ".cpp")

def writeFiles (o : PreparationOrder) (tools : Tools σ) (sketch : Sketch) (files : List SketchFile) :
    Preparing σ (List Path) := do
  tell tools [.debug ("preprocessing sketch " ++ sketch.main.path.text)]
  change (FileWork.save (o.output sketch) sketch.merge.source)
  o.copyAdditional sketch files

def prepareFrom (o : PreparationOrder) (tools : Tools σ) (sketch : Sketch) (copies : List Path) :
    Preparing σ PreparedSketch := do
  let merged := sketch.merge
  let found ← o.discoverLibraries tools (o.output sketch :: copies)
  let (prototypes, line) ← o.findPrototypes tools sketch (o.output sketch) found.includeDirs
  let source := patchSource merged.source prototypes line merged.lineOffset
  tell tools (missedLine merged.source prototypes line merged.lineOffset)
  change (FileWork.save (o.output sketch) source)
  return ⟨source, o.output sketch, found, prototypes, line⟩

theorem prepare_eq (o : PreparationOrder) (tools : Tools σ) : o.prepare tools = (do
    let sketch ← look (Sketch.load · o.sketch)
    let copies ← o.writeFiles tools sketch sketch.additional
    o.prepareFrom tools sketch copies) := by
  simp only [prepare, writeFiles, prepareFrom, bind_assoc]
  rfl

theorem copyAdditional_staysBelow (files : List SketchFile)
    (h : ∀ f ∈ files, (o.copyOf sketch f).Descends p) :
    StaysBelow Prod.fst p (o.copyAdditional sketch files : Preparing σ (List Path)) := by
  induction files with
  | nil => exact .pure []
  | cons file files ih =>
      obtain ⟨hfile, hfiles⟩ := List.forall_mem_cons.1 h
      refine .bind (change_staysBelow (FileWork.copy_staysBelow _ hfile)) fun _ => ?_
      exact .bind (ih hfiles) fun _ => .pure _

theorem discoverLibraries_staysBelow (tools : Tools σ) (sources : List Path) :
    StaysBelow Prod.fst p (o.discoverLibraries tools sources) := by
  refine .bind tree_staysBelow fun _ => .bind tree_staysBelow fun _ => .bind (tell_staysBelow _ _) fun _ => ?_
  refine .bind (look_staysBelow _) fun _ => .bind (look_staysBelow _) fun _ => ?_
  refine .bind (tell_staysBelow _ _) fun _ => .bind (ask_staysBelow _) fun _ => ?_
  exact .bind (tell_staysBelow _ _) fun _ => .pure _

theorem findPrototypes_staysBelow (tools : Tools σ) (output : Path) (includeDirs : List Path)
    (h : o.listedFile.Descends p) :
    StaysBelow Prod.fst p (o.findPrototypes tools sketch output includeDirs) := by
  refine .bind (ask_staysBelow _) fun _ => .bind (change_staysBelow (FileWork.save_staysBelow h _)) fun _ => ?_
  refine .bind (ask_staysBelow _) fun _ => .bind tree_staysBelow fun _ => ?_
  exact .bind (tell_staysBelow _ _) fun _ => .bind (tell_staysBelow _ _) fun _ => .pure _

theorem sketchFolder_descends (o : PreparationOrder) : o.sketchFolder.Descends o.buildFolder :=
  Path.descends_join o.buildFolder rfl (by decide) (by decide)

theorem listedFile_descends (o : PreparationOrder) : o.listedFile.Descends o.buildFolder :=
  (Path.descends_join o.buildFolder rfl (by decide) (by decide)).join rfl (by decide)

/-- A source in the build folder has a name with an extension, which is no name of dots. -/
theorem isPlain_sourceName (s : Sketch) : Path.isPlain (s.name ++ ".cpp") = true := by
  have hslash := Path.slash_not_mem_fileName s.main.path
  have htext : (s.name ++ ".cpp").toList = s.main.path.fileName.toList ++ ['.', 'c', 'p', 'p'] := by
    rw [String.toList_append]
    rfl
  have hlength : (s.name ++ ".cpp").toList.length = s.main.path.fileName.toList.length + 4 := by
    rw [htext, List.length_append]
    rfl
  rw [Path.isPlain_iff]
  refine ⟨?_, ?_, fun he => ?_⟩
  · rw [htext, List.mem_append]
    rintro (h | h)
    · exact hslash h
    · exact absurd h (by decide)
  · rw [htext]
    cases s.main.path.fileName.toList <;> simp [Path.isFiller]
  · rw [he] at hlength
    exact absurd hlength (by simp)

theorem output_descends (o : PreparationOrder) (s : Sketch) : (o.output s).Descends o.buildFolder := by
  have hplain := isPlain_sourceName s
  refine o.sketchFolder_descends.join (Path.isAbsolute_of_not_mem (Path.isPlain_iff.1 hplain).1) ?_
  rw [Path.way_of_isPlain hplain, List.mem_singleton]
  exact (Path.isPlain_iff.1 hplain).2.2.symm

theorem copyOf_descends {location names : Location} {f : SketchFile} (hl : location.IsPlain)
    (hn : names.IsPlain) (hfolder : sketch.folder = location.path)
    (hf : f.path = (location ++ names).path) : (o.copyOf sketch f).Descends o.buildFolder := by
  obtain ⟨hway, hrel⟩ := Location.way_ofComponents hn
  rw [copyOf, hf, hfolder, Location.relativeTo_path hl hn]
  refine o.sketchFolder_descends.join hrel ?_
  rw [hway]
  exact fun hup => absurd (hn ".." hup) (by decide)

theorem saveOutput_staysBelow (o : PreparationOrder) (s : Sketch) (text : String) :
    StaysBelow Prod.fst o.buildFolder (change (FileWork.save (o.output s) text) : Preparing σ Unit) :=
  change_staysBelow (FileWork.save_staysBelow (output_descends o s) text)

theorem writeFiles_staysBelow (tools : Tools σ) (files : List SketchFile)
    (h : ∀ f ∈ files, (o.copyOf sketch f).Descends o.buildFolder) :
    StaysBelow Prod.fst o.buildFolder (o.writeFiles tools sketch files) := by
  refine .bind (tell_staysBelow _ _) fun _ => ?_
  exact .bind (saveOutput_staysBelow o sketch _) fun _ => copyAdditional_staysBelow files h

theorem prepareFrom_staysBelow (o : PreparationOrder) (tools : Tools σ) (sketch : Sketch) (copies : List Path) :
    StaysBelow Prod.fst o.buildFolder (o.prepareFrom tools sketch copies) := by
  refine .bind (discoverLibraries_staysBelow tools _) fun _ => ?_
  refine .bind (findPrototypes_staysBelow tools _ _ (listedFile_descends o)) fun _ => ?_
  exact .bind (tell_staysBelow _ _) fun _ => .bind (saveOutput_staysBelow o sketch _) fun _ => .pure _

theorem run_prepare_of_load (tools : Tools σ) {t : FileTree} (s : σ) (hload : Sketch.load t o.sketch = .ok sketch) :
    (o.prepare tools).run.run (t, s) =
      (o.writeFiles tools sketch sketch.additional >>= o.prepareFrom tools sketch).run.run (t, s) := by
  have hrun : (look (Sketch.load · o.sketch) : Preparing σ Sketch).run.run (t, s) = (.ok sketch, t, s) := by
    rw [← hload]
    rfl
  rw [prepare_eq, StaysBelow.run_bind_ok hrun]

theorem run_eq_of_toOption {α τ : Type} {r : Except Failure α × τ × Unit} {a : α} (h : r.1.toOption = some a) :
    r = (.ok a, r.2.1, ()) := by
  rw [← ok_of_toOption h]

/-- Once the sources are written, nothing is changed but what is below the build folder. -/
theorem prepare_changedBelow_of_written (tools : Tools σ) {t t' : FileTree} {s s' : σ} {copies : List Path}
    (hload : Sketch.load t o.sketch = .ok sketch)
    (hwritten : (o.writeFiles tools sketch sketch.additional).run.run (t, s) = (.ok copies, t', s'))
    (hlinks : t'.NoLinks o.buildFolder) :
    ChangedBelow o.buildFolder t' ((o.prepare tools).run.run (t, s)).2.1 := by
  rw [run_prepare_of_load tools s hload, StaysBelow.run_bind_ok hwritten]
  exact o.prepareFrom_staysBelow tools sketch copies (t', s') hlinks

/-- A preparation changes nothing but what is below the build folder, and makes this folder and those above
it if they are missing. The text of the path of the sketch's folder must not have wildcards. -/
theorem prepare_changedBelow (o : PreparationOrder) (tools : Tools σ) {t : FileTree} (s : σ)
    (hnames : t.WellNamed) (hlinks : t.NoLinks o.buildFolder)
    (hverbatim : ∀ p place, t.canonical o.sketch = .ok p → Sketch.locate t p = .ok place →
      Pattern.isVerbatim place.1.text.toList = true) :
    ChangedBelow o.buildFolder t ((o.prepare tools).run.run (t, s)).2.1 := by
  cases hload : Sketch.load t o.sketch with
  | error e =>
      have hrun : (look (Sketch.load · o.sketch) : Preparing σ Sketch).run.run (t, s) = (.error e, t, s) := by
        rw [← hload]
        rfl
      rw [prepare_eq, StaysBelow.run_bind_error hrun]
      exact .refl o.buildFolder t
  | ok sketch =>
      obtain ⟨location, hl, hfolder, hadditional⟩ := Sketch.load_additional hnames hverbatim hload
      have hcopies : ∀ f ∈ sketch.additional, (o.copyOf sketch f).Descends o.buildFolder := by
        intro f hf
        obtain ⟨names, hn, -, hpath⟩ := hadditional f hf
        exact copyOf_descends hl hn hfolder hpath
      rw [run_prepare_of_load tools s hload]
      refine (?_ : StaysBelow Prod.fst o.buildFolder _) (t, s) hlinks
      exact .bind (writeFiles_staysBelow tools _ hcopies) fun copies => o.prepareFrom_staysBelow tools sketch copies

def contentTools : Tools Unit where
  compiler _ :=
    { discover := fun _ _ s => (.ok .clean, s)
      diagnose := fun _ _ s => (.ok "", s)
      preprocess := fun _ _ s => (.ok "", s)
      note := fun _ s => s }
  listSymbols _ _ s := (.ok "", s)

def blinkTree : FileTree where
  entries :=
    [ (["Blink"], .folder), (["Blink", "Blink.ino"], .file "int led;".toUTF8 false),
      (["Blink", "util.h"], .file "int twice(int);".toUTF8 false) ]
  here := ["Blink"]

def blinkOrder : PreparationOrder where
  sketch := ⟨"."⟩
  buildFolder := ⟨"build"⟩
  configured := []
  includeDirs := []
  platforms := ⟨⟨"avr", ⟨"/avr"⟩⟩, ⟨"avr", ⟨"/avr"⟩⟩⟩

theorem prepare_changedBelow_blink :
    blinkTree.WellNamed ∧ blinkTree.NoLinks ⟨"build"⟩ ∧
      ChangedBelow ⟨"build"⟩ blinkTree
        ((blinkOrder.prepare contentTools).run.run (blinkTree, ())).2.1 := by
  have hnames : blinkTree.WellNamed := by
    unfold WellNamed
    decide +kernel
  have hlinks : blinkTree.NoLinks ⟨"build"⟩ := noLinks_of_entries (by simp [blinkTree]) _
  refine ⟨hnames, hlinks, prepare_changedBelow blinkOrder contentTools () hnames hlinks ?_⟩
  intro p place hp hplace
  have hcanonical : (blinkTree.canonical ⟨"."⟩).toOption = some ⟨"/Blink"⟩ := by decide +kernel
  have hlocated : (Sketch.locate blinkTree ⟨"/Blink"⟩).toOption = some (⟨"/Blink"⟩, ⟨"/Blink/Blink.ino"⟩) := by
    decide +kernel
  rw [show blinkTree.canonical ⟨"."⟩ = .ok p from hp] at hcanonical
  cases hcanonical
  rw [hplace] at hlocated
  cases hlocated
  decide

/-- A sketch in a folder whose path is a pattern for the path of another folder. -/
def wildcardTree : FileTree where
  entries :=
    [ (["[ab]"], .folder), (["[ab]", "s"], .folder), (["[ab]", "s", "s.ino"], .file "int x;".toUTF8 false),
      (["a"], .folder), (["a", "s"], .folder), (["a", "s", "notes.h"], .file "int y;".toUTF8 false),
      (["out"], .folder), (["out", "a"], .folder), (["out", "a", "s"], .folder),
      (["out", "a", "s", "notes.h"], .file "int kept;".toUTF8 false) ]
  here := []

def wildcardOrder : PreparationOrder where
  sketch := ⟨"[ab]/s"⟩
  buildFolder := ⟨"out/build"⟩
  configured := []
  includeDirs := []
  platforms := ⟨⟨"avr", ⟨"/avr"⟩⟩, ⟨"avr", ⟨"/avr"⟩⟩⟩

def wildcardSketch : Sketch where
  folder := ⟨"/[ab]/s"⟩
  main := ⟨⟨"/[ab]/s/s.ino"⟩, "int x;"⟩
  others := []
  additional := [⟨⟨"/a/s/notes.h"⟩, "int y;"⟩]

def wildcardSources : FileTree :=
  ((wildcardOrder.writeFiles contentTools wildcardSketch wildcardSketch.additional).run.run (wildcardTree, ())).2.1

theorem matching_wildcardTree (onlyFolders : Bool) (n : Nat) (components : List Pattern) :
    wildcardTree.matching onlyFolders (n + 1) ([.oneOf [⟨'a', 'a'⟩, ⟨'b', 'b'⟩]] :: components) ⟨"/"⟩ =
      wildcardTree.matching onlyFolders (n + 1) ("a".toList.map .char :: components) ⟨"/"⟩ := by
  have hnames : ((wildcardTree.list ⟨"/"⟩).toOption.getD []).map (·.1) = ["[ab]", "a", "out"] := by
    decide +kernel
  have hfits : ["[ab]", "a", "out"].filter (fun name =>
      Pattern.fits [.oneOf [⟨'a', 'a'⟩, ⟨'b', 'b'⟩]] name.toList) = ["a"] := by decide
  have hplain : Path.isPlain "a" = true := by decide
  have hentry : wildcardTree.hasEntry ⟨"/a"⟩ = true := by decide +kernel
  rw [matching_names rfl rfl rfl hnames (by decide), hfits, List.flatMap_singleton]
  exact ((matching_literal (List.forall_mem_nil _) hplain).trans (if_pos hentry)).symm

/-- What is looked for in the sketch's folder is found in the other one. -/
theorem foundBy_wildcardTree {text : String} (ht : text ∈ Sketch.patterns) :
    wildcardTree.foundBy ⟨"/[ab]/s"⟩ text = wildcardTree.foundBy ⟨"/a/s"⟩ text := by
  have hparse : ∀ text ∈ Sketch.patterns,
      ∀ base ∈ [(⟨"/[ab]/s"⟩, [.oneOf [⟨'a', 'a'⟩, ⟨'b', 'b'⟩]]), (⟨"/a/s"⟩, "a".toList.map .char)],
        (PathPattern.parse ((base.1 : Path) / text).text).toOption.map
          (fun p => (p.start, p.components, p.onlyFolders)) =
        some (⟨"/"⟩, base.2 :: "s".toList.map .char ::
          ((text.toList.splitOn '/').mapM Pattern.parse).toOption.getD [], false) := by
    decide +kernel
  obtain ⟨hsketch, hother⟩ := List.forall_mem_cons.1 (hparse text ht)
  obtain ⟨⟨_, _, _⟩, hfirst, ⟨⟩⟩ := Option.map_eq_some_iff.1 hsketch
  obtain ⟨⟨_, _, _⟩, hsecond, ⟨⟩⟩ := Option.map_eq_some_iff.1 (hother _ List.mem_cons_self)
  rw [foundBy, foundBy, hfirst, hsecond]
  simp only [Except.toOption, Option.map_some, Option.getD_some, search, searchBound, List.length_cons,
    ← Nat.add_assoc]
  exact matching_wildcardTree false _ _

theorem load_wildcardTree : Sketch.load wildcardTree wildcardOrder.sketch = .ok wildcardSketch := by
  obtain ⟨hcanonical, hlocate, hmain⟩ :
      (wildcardTree.canonical wildcardOrder.sketch).toOption = some ⟨"/[ab]/s"⟩ ∧
      (Sketch.locate wildcardTree ⟨"/[ab]/s"⟩).toOption = some (⟨"/[ab]/s"⟩, ⟨"/[ab]/s/s.ino"⟩) ∧
      (Sketch.loadFile wildcardTree ⟨"/[ab]/s/s.ino"⟩).toOption = some wildcardSketch.main := by
    decide +kernel
  have hparse : ∀ text ∈ Sketch.patterns,
      (PathPattern.parse ((⟨"/[ab]/s"⟩ : Path) / text).text).toOption.isSome = true := by decide +kernel
  have hother : Path.withoutRepeats (Path.sort
      ((Sketch.patterns.flatMap (wildcardTree.foundBy ⟨"/a/s"⟩)).filter wildcardTree.isFile)) =
        [⟨"/a/s/notes.h"⟩] := by decide +kernel
  have hfound : wildcardTree.findFiles ⟨"/[ab]/s"⟩ Sketch.patterns = .ok [⟨"/a/s/notes.h"⟩] := by
    rw [findFiles_eq hparse, List.flatMap_congr fun text ht => foundBy_wildcardTree ht, hother]
  have hroles : (([(⟨"/a/s/notes.h"⟩ : Path)].filterMap fun p =>
      (Sketch.role? ⟨"/[ab]/s"⟩ ⟨"/[ab]/s/s.ino"⟩ p).map fun role => (role, p)).mapM
        (fun ((role, p) : Sketch.Role × Path) => do
          return (role, ← Sketch.loadFile wildcardTree p))).toOption =
      some [(.additional, ⟨⟨"/a/s/notes.h"⟩, "int y;"⟩)] := by decide +kernel
  exact Sketch.load_eq (ok_of_toOption hcanonical) (ok_of_toOption hlocate) (by decide +kernel)
    (ok_of_toOption hmain) hfound (ok_of_toOption hroles)

/-- A file that is taken for one of the sketch is copied over a file outside the build folder. -/
theorem prepare_copies_outside : wildcardTree.WellNamed ∧ wildcardTree.NoLinks ⟨"out/build"⟩ ∧
    wildcardTree.find? ["out", "a", "s", "notes.h"] = some (.file "int kept;".toUTF8 false) ∧
    ((wildcardOrder.prepare contentTools).run.run (wildcardTree, ())).2.1.find? ["out", "a", "s", "notes.h"] =
      some (.file "int y;".toUTF8 false) ∧
    ¬ ChangedBelow ⟨"out/build"⟩ wildcardTree
      ((wildcardOrder.prepare contentTools).run.run (wildcardTree, ())).2.1 := by
  have hwritten : (wildcardOrder.writeFiles contentTools wildcardSketch wildcardSketch.additional).run.run
      (wildcardTree, ()) = (.ok [], wildcardSources, ()) := run_eq_of_toOption (by decide +kernel)
  obtain ⟨hcopied, hentries, hout⟩ :
      wildcardSources.find? ["out", "a", "s", "notes.h"] = some (.file "int y;".toUTF8 false) ∧
      (∀ e ∈ wildcardSources.entries, e.2 = .folder ∨ e.2.isFile = true) ∧
      ¬ wildcardSources.goal wildcardOrder.buildFolder <+: ["out", "a", "s", "notes.h"] := by decide +kernel
  have hlinks : wildcardSources.NoLinks wildcardOrder.buildFolder := by
    refine noLinks_of_entries (fun e he target hlink => ?_) _
    rcases hentries e he with hfolder | hfile
    · rw [hlink] at hfolder
      cases hfolder
    · rw [hlink] at hfile
      cases hfile
  -- the search for libraries and what follows it leave the copy as it is
  have hlater := prepare_changedBelow_of_written contentTools load_wildcardTree hwritten hlinks
  have hlast := hlater.find?_eq_some hout hcopied
  have hfirst : wildcardTree.find? ["out", "a", "s", "notes.h"] = some (.file "int kept;".toUTF8 false) := by
    decide +kernel
  refine ⟨?_, noLinks_of_entries (by simp [wildcardTree]) _, hfirst, hlast, fun hbelow => ?_⟩
  · unfold WellNamed
    decide +kernel
  · have hkept := hbelow.find?_eq_some (by decide +kernel) hfirst
    rw [hlast] at hkept
    exact absurd hkept (by decide +kernel)

end PreparationOrder

end SketchPrep
