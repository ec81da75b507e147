import Mathlib.Data.List.Perm.Subperm
import Mathlib.Data.Set.Basic
import SketchPrep.Proofs.Discovery.Account

namespace SketchPrep

def places (ps : List Path) : Set (List Component) := {c | ∃ p ∈ ps, p.components = c}

theorem mem_places {ps : List Path} {p : Path} : p.components ∈ places ps ↔ hasPath ps p = true :=
  hasPath_iff.symm

theorem mem_places_of_mem {ps : List Path} {p : Path} (h : p ∈ ps) : p.components ∈ places ps :=
  ⟨p, h, rfl⟩

abbrev Missing := List Component → Set (List Component) → Set String

/-- A wider include path only helps, and a header that can be found by its candidate is not missing. -/
structure Missing.Lawful (missing : Missing) (index : HeaderIndex) : Prop where
  clean : ∀ {f D D'}, missing f D = ∅ → D ⊆ D' → missing f D' = ∅
  stays : ∀ {f D D' header}, header ∈ missing f D → D ⊆ D' →
    (∀ l ∈ index.candidates header, l.sourceFolder.components ∉ D') → header ∈ missing f D'
  found : ∀ {f D header l}, l ∈ index.candidates header → l.sourceFolder.components ∈ D →
    header ∉ missing f D

/-- The compiler is content with a source that misses nothing, and otherwise reports some header that
the source misses, whichever it likes. -/
def Preprocessor.Reports {σ : Type} (pp : Preprocessor σ) (missing : Missing) : Prop :=
  ∀ source dirs state,
    ((pp.discover source dirs state).1 = .ok .clean ∧
        missing source.components (places dirs) = ∅) ∨
      ∃ header ∈ missing source.components (places dirs),
        (pp.discover source dirs state).1 = .ok (.missing header)

structure HeaderIndex.Unambiguous (index : HeaderIndex) : Prop where
  single : ∀ header, (index.candidates header).length ≤ 1
  apart : ∀ l ∈ index.libraries, ∀ m ∈ index.libraries, l ≠ m → l.name ≠ m.name ∧ l.same m = false

namespace Session

structure Settled (w : Surroundings) (missing : Missing) (dirs : List Path)
    (D files : Set (List Component)) (libraries : List Library) : Prop where
  clean : ∀ f ∈ files, missing f D = ∅
  folders : ∀ c ∈ D, c ∈ places dirs ∨ ∃ l ∈ libraries, l.sourceFolder.components = c
  has : ∀ l ∈ libraries, l.sourceFolder.components ∈ D
  offered : ∀ l ∈ libraries, l ∈ w.index.libraries
  stocked : ∀ l ∈ libraries, ∃ sources, sourcesOf w l = .ok sources ∧
    ∀ p ∈ sources, (w.tree.normalize p).components ∈ files

structure Within (D files : Set (List Component)) (libraries : List Library) (cur : Option Path)
    (s : Session) : Prop where
  path : places s.includeDirs ⊆ D
  imports : ∀ l ∈ s.imports.libraries, l ∈ libraries
  current : ∀ p ∈ cur, p.components ∈ files
  waiting : ∀ p ∈ s.queue.pending, p.components ∈ files
  seen : ∀ p ∈ s.queue.seen, p.components ∈ files

variable {σ : Type} {w : Surroundings} {missing : Missing} {dirs : List Path}
  {D files : Set (List Component)} {libraries : List Library} {cur : Option Path} {s s' : Session}
  {source : Path} {header : String} {calls : List Call} {result : Except Failure Unit}

theorem Consistent.initial_subset (hc : s.Consistent w dirs) : places dirs ⊆ places s.includeDirs := by
  rintro c ⟨p, hp, rfl⟩
  exact mem_places_of_mem (hc.path ▸ List.mem_append_left _ hp)

/-- A header that is missing inside what is settled has its only candidate there. -/
theorem Settled.candidate (hd : Settled w missing dirs D files libraries)
    (hm : missing.Lawful w.index) (hu : w.index.Unambiguous) (hc : s.Consistent w dirs)
    (hw : Within D files libraries (some source) s)
    (hh : header ∈ missing source.components (places s.includeDirs)) :
    ∃ l ∈ libraries, w.index.candidates header = [l] ∧ hasPath s.includeDirs l.sourceFolder = false := by
  have hsource : missing source.components D = ∅ := hd.clean _ (hw.current _ rfl)
  -- were no candidate's folder in `D`, the header would be missing there too
  obtain ⟨l, hl, hlD⟩ : ∃ l ∈ w.index.candidates header, l.sourceFolder.components ∈ D := by
    by_contra hno
    have hstays := hm.stays hh hw.path fun l hl hlD => hno ⟨l, hl, hlD⟩
    rw [hsource] at hstays
    exact hstays
  have hnot : l.sourceFolder.components ∉ places s.includeDirs := fun hin => hm.found hl hin hh
  have hone : w.index.candidates header = [l] := by
    obtain ⟨m, hcand⟩ := List.length_eq_one_iff.1
      (Nat.le_antisymm (hu.single header) (List.length_pos_of_mem hl))
    rw [hcand] at hl ⊢
    rw [List.mem_singleton.1 hl]
  refine ⟨l, ?_, hone, Bool.eq_false_iff.2 fun hin => hnot (mem_places.2 hin)⟩
  rcases hd.folders _ hlD with hin | ⟨m, hmem, he⟩
  · exact absurd (hc.initial_subset hin) hnot
  · by_cases hlm : m = l
    · exact hlm ▸ hmem
    · have happart := hu.apart m (hd.offered m hmem) l
        (HeaderIndex.mem_libraries_of_mem_candidates hl) hlm
      rw [Library.same, Path.same_iff.2 he] at happart
      exact absurd happart.2 Bool.noConfusion

theorem resolve_single (hu : w.index.Unambiguous) (hc : s.Consistent w dirs) {l : Library}
    (hl : w.index.candidates header = [l]) :
    ∃ r, Selection.resolve header (w.index.candidates header) s.imports w.platforms = some r ∧
      r.library = l := by
  have hcand : l ∈ w.index.candidates header := hl ▸ List.mem_singleton_self l
  have hmem : l ∈ w.index.libraries := HeaderIndex.mem_libraries_of_mem_candidates hcand
  refine ⟨_, by rw [hl]; rfl, ?_⟩
  -- a library in use with the name of the candidate can only be the candidate
  change (s.imports.findByName? l.name).getD l = l
  cases hn : s.imports.findByName? l.name with
  | none => rfl
  | some m =>
      rw [Option.getD_some]
      by_contra hne
      have hname : m.name = l.name := by simpa using List.find?_some hn
      exact (hu.apart m (hc.offered m (List.mem_of_find?_eq_some hn)) l hmem hne).1 hname

/-- Inside what is settled a missing header brings a library, and the session stays inside. -/
theorem Settled.step (hd : Settled w missing dirs D files libraries)
    (hm : missing.Lawful w.index) (hu : w.index.Unambiguous) (hc : s.Consistent w dirs)
    (hw : Within D files libraries (some source) s)
    (hh : header ∈ missing source.components (places s.includeDirs)) :
    ∃ r sources t, Brings w s header r sources t ∧ Within D files libraries (some source) t := by
  obtain ⟨l, hl, hcand, hout⟩ := hd.candidate hm hu hc hw hh
  obtain ⟨r, hr, rfl⟩ := resolve_single hu hc hcand
  obtain ⟨sources, hs, hfiles⟩ := hd.stocked _ hl
  have hfresh : s.imports.contains r.library = false := Bool.eq_false_iff.2 fun hin => by
    rw [hc.hasFolder_of_contains hin] at hout
    cases hout
  have hb : Brings w s header r sources (s.withLibrary w header r sources) := ⟨hr, hfresh, hs, rfl⟩
  have hnew (p : Path) (hp : p ∈ SourceQueue.accepted s.queue.seen (sources.map w.tree.normalize)) :
      p.components ∈ files := by
    obtain ⟨q, hq, rfl⟩ := List.mem_map.1 ((SourceQueue.accepted_sublist _ _).subset hp)
    exact hfiles q hq
  refine ⟨r, sources, _, hb, ?_, ?_, hw.current, ?_, ?_⟩
  · rintro c ⟨p, hp, rfl⟩
    rw [hb.includeDirs, addDir, hout] at hp
    rcases List.mem_append.1 hp with hp | hp
    · exact hw.path (mem_places_of_mem hp)
    · rw [List.mem_singleton.1 hp]
      exact hd.has _ hl
  · intro m hmem
    rw [hb.libraries, List.mem_append, List.mem_singleton] at hmem
    rcases hmem with hmem | rfl
    · exact hw.imports m hmem
    · exact hl
  · intro p hp
    rw [hb.queue, SourceQueue.pending_extend, List.mem_append] at hp
    exact hp.elim (hw.waiting p) (hnew p)
  · intro p hp
    rw [hb.queue, SourceQueue.seen_extend, List.mem_append] at hp
    exact hp.elim (hw.seen p) (hnew p)

theorem Gives.reports {pp : Preprocessor σ} (hpp : pp.Reports missing) {dirs : List Path}
    {answer : Except Failure Outcome} (hg : pp.Gives (.asked source dirs answer)) :
    (answer = .ok .clean ∧ missing source.components (places dirs) = ∅) ∨
      ∃ header ∈ missing source.components (places dirs), answer = .ok (.missing header) := by
  obtain ⟨state, ha⟩ := hg
  have he : answer = (pp.discover source dirs state).1 := Option.some.inj ha
  rw [he]
  exact hpp source dirs state

/-- A run that begins inside what is settled succeeds and stays inside. -/
theorem Settled.trace (hd : Settled w missing dirs D files libraries) {pp : Preprocessor σ}
    (hpp : pp.Reports missing) (hm : missing.Lawful w.index) (hu : w.index.Unambiguous)
    (h : Trace w cur s calls result s') (hg : ∀ c ∈ calls, pp.Gives c) (hc : s.Consistent w dirs)
    (hw : Within D files libraries cur s) :
    result = .ok () ∧ Within D files libraries none s' := by
  induction h with
  | done => exact ⟨rfl, hw⟩
  | next hq _ ih =>
      refine ih hg (hc.waiting _) ⟨hw.path, hw.imports, ?_, ?_, hw.seen⟩
      · rintro p ⟨⟩
        exact hw.waiting _ (hq ▸ List.mem_cons_self)
      · exact fun p hp => hw.waiting p (hq ▸ List.mem_cons_of_mem _ hp)
  | clean _ ih =>
      exact ih (List.forall_mem_cons.1 hg).2 hc ⟨hw.path, hw.imports, nofun, hw.waiting, hw.seen⟩
  | retry hp _ ih =>
      obtain ⟨hfirst, hrest⟩ := List.forall_mem_cons.1 hg
      rcases Gives.reports hpp hfirst with ⟨ha, _⟩ | ⟨header, hh, ha⟩
      · cases ha
      · cases ha
        obtain ⟨r, sources, t, hb, ht⟩ := hd.step hm hu hc hw hh
        have he := hb.provide
        rw [hp] at he
        cases he
        exact ih hrest (hb.consistent hc) ht
  | fails he =>
      rcases Gives.reports hpp (List.forall_mem_singleton.1 hg) with ⟨ha, _⟩ | ⟨header, hh, ha⟩
      · subst ha
        cases he
      · subst ha
        -- the header has a library to try again with, so nothing ends the run
        obtain ⟨r, sources, t, hb, _⟩ := hd.step hm hu hc hw hh
        have hp := hb.provide
        cases he with
        | stuck h | unresolved _ h | undiagnosed _ h => rw [h] at hp; cases hp

def Covered (missing : Missing) (cur : Option Path) (s : Session) : Prop :=
  ∀ p ∈ s.queue.seen, p ∈ cur ∨ p ∈ s.queue.pending ∨
    missing p.components (places s.includeDirs) = ∅

theorem Trace.covered {pp : Preprocessor σ} (hpp : pp.Reports missing) (hm : missing.Lawful w.index)
    (h : Trace w cur s calls result s') (hok : result = .ok ()) (hg : ∀ c ∈ calls, pp.Gives c)
    (hc : s.Consistent w dirs) (hv : Covered missing cur s) :
    ∀ p ∈ s'.queue.seen, missing p.components (places s'.includeDirs) = ∅ := by
  induction h with
  | done hq =>
      intro p hp
      have hcases := hv p hp
      rw [hq] at hcases
      simpa using hcases
  | @next s source rest calls result s' hq _ ih =>
      refine ih hok hg (hc.waiting _) fun p hp => ?_
      have hcases := hv p hp
      rw [hq, List.mem_cons] at hcases
      rcases hcases with hnone | (rfl | hrest) | hclean
      · cases hnone
      · exact .inl rfl
      · exact .inr (.inl hrest)
      · exact .inr (.inr hclean)
  | @clean source s calls result s' _ ih =>
      obtain ⟨hfirst, hrest⟩ := List.forall_mem_cons.1 hg
      refine ih hok hrest hc fun p hp => ?_
      rcases hv p hp with hcur | hwaits | hclean
      · cases hcur
        rcases Gives.reports hpp hfirst with ⟨_, hnone⟩ | ⟨_, _, ha⟩
        · exact .inr (.inr hnone)
        · cases ha
      · exact .inr (.inl hwaits)
      · exact .inr (.inr hclean)
  | @retry source s header t calls result s' hp _ ih =>
      obtain ⟨r, sources, hb⟩ := hc.provide_retry hp
      refine ih hok (List.forall_mem_cons.1 hg).2 (hb.consistent hc) fun p hp => ?_
      have hwider : places s.includeDirs ⊆ places t.includeDirs := by
        rintro c ⟨q, hq, rfl⟩
        rw [hb.includeDirs, addDir]
        split
        · exact mem_places_of_mem hq
        · exact mem_places_of_mem (List.mem_append_left _ hq)
      rw [hb.queue, SourceQueue.seen_extend, List.mem_append] at hp
      rw [hb.queue, SourceQueue.pending_extend, List.mem_append]
      rcases hp with hold | hnew
      · rcases hv p hold with hcur | hwaits | hclean
        · exact .inl hcur
        · exact .inr (.inl (.inl hwaits))
        · exact .inr (.inr (hm.clean hclean hwider))
      · exact .inr (.inl (.inr hnew))
  | fails => cases hok

theorem settled_of_trace {pp : Preprocessor σ} (hpp : pp.Reports missing) (hm : missing.Lawful w.index)
    {sources : List Path} (h : Trace w none (after w dirs (sources.map .enqueue)) calls (.ok ()) s')
    (hg : ∀ c ∈ calls, pp.Gives c) :
    Settled w missing dirs (places s'.includeDirs) (places s'.queue.seen) s'.imports.libraries := by
  have hc := consistent_after w dirs (sources.map .enqueue)
  have hc' := h.consistent hc
  have hv : Covered missing none (after w dirs (sources.map .enqueue)) := by
    intro p hp
    rw [after_enqueue] at hp ⊢
    simp only [SourceQueue.seen_extend, SourceQueue.pending_extend] at hp ⊢
    exact .inr (.inl hp)
  refine ⟨?_, ?_, fun l hl => mem_places.2 (hc'.hasFolder hl), hc'.offered, ?_⟩
  · rintro f ⟨p, hp, rfl⟩
    exact h.covered hpp hm rfl hg hc hv p hp
  · rintro c ⟨p, hp, rfl⟩
    rw [hc'.path, List.mem_append] at hp
    rcases hp with hp | hp
    · exact .inl (mem_places_of_mem hp)
    · obtain ⟨l, hl, rfl⟩ := List.mem_map.1 (List.mem_filter.1 hp).1
      exact .inr ⟨l, hl, rfl⟩
  · intro l hl
    obtain ⟨stock, hs, hseen⟩ := hc'.stocked l hl
    exact ⟨stock, hs, fun p hp => mem_places.2 (hseen p hp)⟩

theorem within_after {sources others : List Path} (hs : ∀ p ∈ others, p ∈ sources)
    (hD : places dirs ⊆ D)
    (hf : ∀ p ∈ sources, (w.tree.normalize p).components ∈ files) :
    Within D files libraries none (after w dirs (others.map .enqueue)) := by
  have hnew (p : Path) (hp : p ∈ SourceQueue.accepted [] (others.map w.tree.normalize)) :
      p.components ∈ files := by
    obtain ⟨q, hq, rfl⟩ := List.mem_map.1 ((SourceQueue.accepted_sublist _ _).subset hp)
    exact hf q (hs q hq)
  rw [after_enqueue]
  refine ⟨hD, nofun, nofun, ?_, ?_⟩
  · intro p hp
    rw [SourceQueue.pending_extend] at hp
    exact hnew p hp
  · intro p hp
    rw [SourceQueue.seen_extend] at hp
    exact hnew p hp

theorem Trace.normalize_mem {sources : List Path}
    (h : Trace w none (after w dirs (sources.map .enqueue)) calls result s') {p : Path}
    (hp : p ∈ sources) : (w.tree.normalize p).components ∈ places s'.queue.seen := by
  obtain ⟨added, accepted, a⟩ := h.account (consistent_after w dirs (sources.map .enqueue))
  have hoffered := hasPath_of_mem (List.mem_map_of_mem (f := w.tree.normalize) hp)
  rw [a.seen, after_enqueue, SourceQueue.seen_extend, mem_places, hasPath_append,
    SourceQueue.hasPath_append_accepted hoffered, Bool.true_or]

end Session

variable {σ τ : Type} {w : Surroundings} {missing : Missing} {pp : Preprocessor σ}
  {pp' : Preprocessor τ} {dirs sources sources' : List Path} {state : σ} {state' : τ}

/-- With discovery that succeeds, so does any other over these sources or fewer, and it needs no more. -/
theorem discover_of_subset (hm : missing.Lawful w.index) (hu : w.index.Unambiguous)
    (hpp : pp.Reports missing) (hpp' : pp'.Reports missing) (hs : ∀ p ∈ sources', p ∈ sources)
    {found : Discovery} (h : (discover w pp dirs sources state).1 = .ok found) (state' : τ) :
    ∃ found', (discover w pp' dirs sources' state').1 = .ok found' ∧
      (∀ l ∈ found'.imports.libraries, l ∈ found.imports.libraries) ∧
      places (finished (discoverCalls w pp' dirs sources' state')) ⊆
        places (finished (discoverCalls w pp dirs sources state)) := by
  obtain ⟨result, s, hfound, ht, hg⟩ := discover_trace w pp dirs sources state
  obtain ⟨result', s', hfound', ht', hg'⟩ := discover_trace w pp' dirs sources' state'
  rw [h] at hfound
  cases result with
  | error f => cases hfound
  | ok =>
      cases hfound
      have hc := ht.consistent (Session.consistent_after w dirs (sources.map .enqueue))
      have hd := Session.settled_of_trace hpp hm ht hg
      have hstart : Session.Within (places s.includeDirs) (places s.queue.seen) s.imports.libraries none
          (Session.after w dirs (sources'.map .enqueue)) :=
        Session.within_after hs hc.initial_subset fun p => ht.normalize_mem
      obtain ⟨rfl, hw⟩ := hd.trace hpp' hm hu ht' hg'
        (Session.consistent_after w dirs (sources'.map .enqueue)) hstart
      refine ⟨_, hfound', hw.imports, ?_⟩
      rw [ht.finished_eq, ht'.finished_eq]
      rintro c ⟨p, hp, rfl⟩
      exact hw.seen p hp

theorem discover_shape {found : Discovery} (h : (discover w pp dirs sources state).1 = .ok found) :
    found.imports.libraries.Nodup ∧ found.includeDirs =
      dirs ++ (found.imports.libraries.map (·.sourceFolder)).filter (!hasPath dirs ·) := by
  obtain ⟨result, s, hfound, ht, _⟩ := discover_trace w pp dirs sources state
  rw [h] at hfound
  cases result with
  | error f => cases hfound
  | ok =>
      cases hfound
      have hc := ht.consistent (Session.consistent_after w dirs (sources.map .enqueue))
      exact ⟨hc.nodup, hc.path⟩

/-- Neither the order of the sources nor the choice among missing headers matters: if one discovery
succeeds then so does the other, with the same libraries, the same include path but for its order, and
the same sources looked through. -/
theorem discover_confluent (hm : missing.Lawful w.index) (hu : w.index.Unambiguous)
    (hpp : pp.Reports missing) (hpp' : pp'.Reports missing) (hs : ∀ p, p ∈ sources ↔ p ∈ sources')
    (dirs : List Path) (state : σ) (state' : τ) :
    ((∃ found, (discover w pp dirs sources state).1 = .ok found) ↔
        ∃ found', (discover w pp' dirs sources' state').1 = .ok found') ∧
      ∀ found found', (discover w pp dirs sources state).1 = .ok found →
        (discover w pp' dirs sources' state').1 = .ok found' →
        found.imports.libraries.Perm found'.imports.libraries ∧
          found.includeDirs.Perm found'.includeDirs ∧
          places (finished (discoverCalls w pp dirs sources state)) =
            places (finished (discoverCalls w pp' dirs sources' state')) := by
  constructor
  · constructor
    · rintro ⟨found, h⟩
      obtain ⟨found', h', _⟩ :=
        discover_of_subset hm hu hpp hpp' (fun p => (hs p).2) h state'
      exact ⟨found', h'⟩
    · rintro ⟨found', h'⟩
      obtain ⟨found, h, _⟩ :=
        discover_of_subset hm hu hpp' hpp (fun p => (hs p).1) h' state
      exact ⟨found, h⟩
  · intro found found' h h'
    obtain ⟨second, h₂, hlibs', hfiles'⟩ :=
      discover_of_subset hm hu hpp hpp' (fun p => (hs p).2) h state'
    obtain ⟨first, h₁, hlibs, hfiles⟩ :=
      discover_of_subset hm hu hpp' hpp (fun p => (hs p).1) h' state
    rw [h] at h₁
    rw [h'] at h₂
    cases h₁
    cases h₂
    obtain ⟨hnodup, hpath⟩ := discover_shape h
    obtain ⟨hnodup', hpath'⟩ := discover_shape h'
    have hperm : found.imports.libraries.Perm found'.imports.libraries :=
      (List.perm_ext_iff_of_nodup hnodup hnodup').2 fun l => ⟨hlibs l, hlibs' l⟩
    refine ⟨hperm, ?_, Set.Subset.antisymm hfiles hfiles'⟩
    rw [hpath, hpath']
    exact ((hperm.map _).filter _).append_left dirs

def missesAll (index : HeaderIndex) : Missing := fun _ D =>
  {header | ∃ l ∈ index.candidates header, l.sourceFolder.components ∉ D}

theorem missesAll_lawful {index : HeaderIndex} (hu : index.Unambiguous) :
    (missesAll index).Lawful index where
  clean := by
    intro f D D' hclean hsub
    refine Set.eq_empty_iff_forall_notMem.2 ?_
    rintro header ⟨l, hl, hout⟩
    have hin : header ∈ missesAll index f D := ⟨l, hl, fun h => hout (hsub h)⟩
    rw [hclean] at hin
    exact hin
  stays := by
    rintro f D D' header ⟨l, hl, _⟩ _ hout
    exact ⟨l, hl, hout l hl⟩
  found := by
    rintro f D header l hl hin ⟨m, hm, hout⟩
    have hone := hu.single header
    obtain ⟨only, hcand⟩ := List.length_eq_one_iff.1
      (Nat.le_antisymm hone (List.length_pos_of_mem hl))
    rw [hcand, List.mem_singleton] at hl hm
    exact hout (hm ▸ hl ▸ hin)

def seeking (pairs : List (String × Library)) : Preprocessor Unit where
  discover _ dirs state :=
    match pairs.find? fun pair => !hasPath dirs pair.2.sourceFolder with
    | some pair => (.ok (.missing pair.1), state)
    | none => (.ok .clean, state)
  diagnose _ _ state := (.ok "", state)
  preprocess _ _ state := (.ok "", state)
  note _ state := state

theorem seeking_reports {index : HeaderIndex} {pairs : List (String × Library)}
    (hp : ∀ pair, pair ∈ pairs ↔ pair ∈ index.entries) :
    (seeking pairs).Reports (missesAll index) := by
  intro source dirs state
  have hcand (pair : String × Library) : pair.2 ∈ index.candidates pair.1 ↔ pair ∈ pairs := by
    rw [hp, HeaderIndex.candidates, List.mem_map]
    constructor
    · rintro ⟨other, ho, he⟩
      have hkey := (List.mem_filter.1 ho).2
      rw [← Prod.ext (by simpa using hkey) he]
      exact (List.mem_filter.1 ho).1
    · exact fun h => ⟨pair, List.mem_filter.2 ⟨h, beq_self_eq_true _⟩, rfl⟩
  cases hf : pairs.find? fun pair => !hasPath dirs pair.2.sourceFolder with
  | none =>
      refine .inl ⟨by simp [seeking, hf], Set.eq_empty_iff_forall_notMem.2 ?_⟩
      rintro header ⟨l, hl, hout⟩
      have hin := List.find?_eq_none.1 hf (header, l) ((hcand (header, l)).1 hl)
      exact hout (mem_places.2 (by simpa using hin))
  | some pair =>
      refine .inr ⟨pair.1, ⟨pair.2, (hcand pair).2 (List.mem_of_find?_eq_some hf), fun hin => ?_⟩,
        by simp [seeking, hf]⟩
      have hout := List.find?_some hf
      rw [mem_places.1 hin] at hout
      cases hout

def twoHeaders : Surroundings where
  tree := ⟨[(["wire"], .folder), (["spi"], .folder)], []⟩
  index := ⟨[("Wire.h", .legacyAt ⟨"/wire"⟩), ("SPI.h", .legacyAt ⟨"/spi"⟩)]⟩
  platforms := ⟨⟨"avr", ⟨"/hardware"⟩⟩, ⟨"avr", ⟨"/hardware"⟩⟩⟩

theorem twoHeaders_unambiguous : twoHeaders.index.Unambiguous where
  single := by
    intro header
    by_cases hw : header = "Wire.h"
    · subst hw; decide +kernel
    · simp only [HeaderIndex.candidates, twoHeaders, List.filter_cons, beq_iff_eq, Ne.symm hw, if_false]
      split <;> simp
  apart := by decide +kernel

def wireThenSpi : Discovery where
  imports := ⟨[.legacyAt ⟨"/wire"⟩, .legacyAt ⟨"/spi"⟩],
    ⟨[("SPI.h", ⟨.legacyAt ⟨"/spi"⟩, false, []⟩), ("Wire.h", ⟨.legacyAt ⟨"/wire"⟩, false, []⟩)]⟩⟩
  includeDirs := [⟨"/wire"⟩, ⟨"/spi"⟩]

theorem discover_twoHeaders :
    (discover twoHeaders (seeking twoHeaders.index.entries) [] [⟨"a.c"⟩, ⟨"b.c"⟩] ()).1 =
      .ok wireThenSpi := by
  have hs : Session.after twoHeaders [] [.enqueue ⟨"a.c"⟩, .enqueue ⟨"b.c"⟩] =
      ⟨.empty, [], ⟨[⟨"a.c"⟩, ⟨"b.c"⟩], [⟨"a.c"⟩, ⟨"b.c"⟩]⟩⟩ := by decide +kernel
  have hsources (l : Library) (hl : l ∈ twoHeaders.index.libraries) :
      Session.sourcesOf twoHeaders l = .ok [] := by
    have hall : ∀ l ∈ twoHeaders.index.libraries,
        (Session.sourcesOf twoHeaders l).toOption = some [] := by decide +kernel
    exact Session.sourcesOf_of_toOption (hall l hl)
  have hwire : Session.Brings twoHeaders ⟨.empty, [], ⟨[⟨"b.c"⟩], [⟨"a.c"⟩, ⟨"b.c"⟩]⟩⟩ "Wire.h"
      ⟨.legacyAt ⟨"/wire"⟩, false, []⟩ []
      ⟨⟨[.legacyAt ⟨"/wire"⟩], ⟨[("Wire.h", ⟨.legacyAt ⟨"/wire"⟩, false, []⟩)]⟩⟩, [⟨"/wire"⟩],
        ⟨[⟨"b.c"⟩], [⟨"a.c"⟩, ⟨"b.c"⟩]⟩⟩ :=
    ⟨by decide +kernel, by decide +kernel, hsources _ (by decide +kernel), by decide +kernel⟩
  have hspi : Session.Brings twoHeaders
      ⟨⟨[.legacyAt ⟨"/wire"⟩], ⟨[("Wire.h", ⟨.legacyAt ⟨"/wire"⟩, false, []⟩)]⟩⟩, [⟨"/wire"⟩],
        ⟨[⟨"b.c"⟩], [⟨"a.c"⟩, ⟨"b.c"⟩]⟩⟩ "SPI.h"
      ⟨.legacyAt ⟨"/spi"⟩, false, []⟩ []
      ⟨wireThenSpi.imports, wireThenSpi.includeDirs, ⟨[⟨"b.c"⟩], [⟨"a.c"⟩, ⟨"b.c"⟩]⟩⟩ :=
    ⟨by decide +kernel, by decide +kernel, hsources _ (by decide +kernel), by decide +kernel⟩
  have hrun : (Session.after twoHeaders [] [.enqueue ⟨"a.c"⟩, .enqueue ⟨"b.c"⟩]).run twoHeaders
      (seeking twoHeaders.index.entries) () =
        (.ok (), ⟨wireThenSpi.imports, wireThenSpi.includeDirs, ⟨[], [⟨"a.c"⟩, ⟨"b.c"⟩]⟩⟩, ()) := by
    rw [hs, Session.run, Session.runFrom_next rfl]
    refine (Session.runFrom_retry rfl hwire.provide).trans ?_
    refine (Session.runFrom_retry rfl hspi.provide).trans ?_
    refine (Session.runFrom_clean rfl).trans ?_
    rw [Session.runFrom_next rfl]
    exact (Session.runFrom_clean rfl).trans (Session.runFrom_done rfl)
  rw [discover_eq, List.map_cons, List.map_singleton, hrun]
  rfl

/-- With the other header first, and the sources the other way round. -/
theorem discover_confluent_twoHeaders :
    ∃ found, (discover twoHeaders (seeking twoHeaders.index.entries.reverse) []
        [⟨"b.c"⟩, ⟨"a.c"⟩, ⟨"b.c"⟩] ()).1 = .ok found ∧
      wireThenSpi.imports.libraries.Perm found.imports.libraries := by
  have hsources (p : Path) : p ∈ [⟨"a.c"⟩, ⟨"b.c"⟩] ↔ p ∈ [⟨"b.c"⟩, ⟨"a.c"⟩, ⟨"b.c"⟩] := by
    simp only [List.mem_cons, List.not_mem_nil, or_false]
    tauto
  have hconfluent := discover_confluent (missesAll_lawful twoHeaders_unambiguous) twoHeaders_unambiguous
    (seeking_reports fun _ => Iff.rfl) (seeking_reports fun _ => List.mem_reverse) hsources [] () ()
  obtain ⟨found, h⟩ := hconfluent.1.1 ⟨wireThenSpi, discover_twoHeaders⟩
  exact ⟨found, h, (hconfluent.2 _ found discover_twoHeaders h).1⟩

end SketchPrep
