import Mathlib.Data.List.Forall2
import SketchPrep.Proofs.Discovery.Account
import SketchPrep.Proofs.Discovery.Orderly

namespace SketchPrep

/-- The questions about one source from the first to the last: each time a header is missing, but for the
last time. -/
def IsBlock (source : Path) (block : List Call) : Prop :=
  ∃ tries dirs, block = tries ++ [.asked source dirs (.ok .clean)] ∧
    ∀ c ∈ tries, ∃ dirs header, c = .asked source dirs (.ok (.missing header))

theorem isBlock_clean (source : Path) (dirs : List Path) :
    IsBlock source [.asked source dirs (.ok .clean)] :=
  ⟨[], dirs, rfl, nofun⟩

theorem IsBlock.retry {source : Path} {block : List Call} (h : IsBlock source block)
    (dirs : List Path) (header : String) :
    IsBlock source (.asked source dirs (.ok (.missing header)) :: block) := by
  obtain ⟨tries, last, rfl, hm⟩ := h
  exact ⟨_ :: tries, last, rfl, List.forall_mem_cons.2 ⟨⟨dirs, header, rfl⟩, hm⟩⟩

namespace Session

variable {w : Surroundings} {dirs sources : List Path} {cur : Option Path} {s s' : Session}
  {calls : List Call} {result : Except Failure Unit}

theorem Trace.blocks (h : Trace w cur s calls result s') (hok : result = .ok ()) :
    ∃ blocks, calls = blocks.flatten ∧ List.Forall₂ IsBlock (finished calls) blocks ∧
      ∀ source ∈ cur, (finished calls).head? = some source := by
  -- a source at hand has the first block, so that its earlier tries can go in front of it
  induction h with
  | done => exact ⟨[], rfl, .nil, nofun⟩
  | next _ _ ih =>
      obtain ⟨blocks, hcalls, hblocks, _⟩ := ih hok
      exact ⟨blocks, hcalls, hblocks, nofun⟩
  | @clean source s calls result s' _ ih =>
      obtain ⟨blocks, hcalls, hblocks, _⟩ := ih hok
      rw [finished_cons_of_clean rfl]
      refine ⟨[.asked source s.includeDirs (.ok .clean)] :: blocks, by rw [hcalls]; rfl,
        .cons (isBlock_clean _ _) hblocks, ?_⟩
      rintro _ ⟨⟩
      rfl
  | @retry source s header t calls result s' _ _ ih =>
      obtain ⟨blocks, hcalls, hblocks, hhead⟩ := ih hok
      have hfirst := hhead source rfl
      rw [finished_cons_of_not_clean rfl]
      generalize finished calls = files at hblocks hfirst ⊢
      cases hblocks with
      | nil => cases hfirst
      | @cons first block files blocks hb hrest =>
          cases hfirst
          refine ⟨(.asked source s.includeDirs (.ok (.missing header)) :: block) :: blocks,
            by rw [hcalls]; rfl, .cons (hb.retry _ _) hrest, ?_⟩
          rintro _ ⟨⟩
          rfl
  | fails => cases hok

def Filled (w : Surroundings) (sources : List Path) (s : Session) : Prop :=
  ∃ stocks, List.Forall₂ (fun l stock => l.sourceFiles w.tree = .ok stock) s.imports.libraries stocks ∧
    s.queue.seen = SourceQueue.accepted [] ((sources ++ stocks.flatten).map w.tree.normalize)

theorem filled_start (w : Surroundings) (dirs sources : List Path) :
    (after w dirs (sources.map .enqueue)).Filled w sources := by
  rw [after_enqueue]
  refine ⟨[], .nil, ?_⟩
  rw [List.flatten_nil, List.append_nil]
  exact SourceQueue.seen_extend ..

theorem Brings.filled {header : String} {r : Resolution} {stock : List Path}
    (h : Brings w s header r stock s') (hf : s.Filled w sources) : s'.Filled w sources := by
  obtain ⟨stocks, hstocks, hseen⟩ := hf
  refine ⟨stocks ++ [stock], ?_, ?_⟩
  · rw [h.libraries]
    exact List.rel_append hstocks (.cons (sourceFiles_of_sourcesOf h.sources_eq) .nil)
  · have hmore : (sources ++ (stocks ++ [stock]).flatten).map w.tree.normalize =
        (sources ++ stocks.flatten).map w.tree.normalize ++ stock.map w.tree.normalize := by
      simp
    rw [h.queue, SourceQueue.seen_extend, hseen, hmore, SourceQueue.accepted_append, List.nil_append]

theorem Step.filled (h : Step w ∅ s s') (hf : s.Filled w sources) : s'.Filled w sources := by
  cases h with
  | queued hp => cases hp
  | taken | noted => exact hf
  | brought hb => exact hb.filled hf

end Session

/-- Where discovery succeeds, it has asked about one source after another until nothing was missing: the
initial ones and then those of the libraries as these were imported, none of them twice. -/
theorem discover_blocks {σ : Type} {w : Surroundings} {pp : Preprocessor σ}
    {dirs sources : List Path} {state : σ} {found : Discovery}
    (h : (discover w pp dirs sources state).1 = .ok found) :
    ∃ stocks blocks,
      List.Forall₂ (fun l stock => l.sourceFiles w.tree = .ok stock) found.imports.libraries stocks ∧
        let files := SourceQueue.accepted [] ((sources ++ stocks.flatten).map w.tree.normalize)
        discoverCalls w pp dirs sources state = blocks.flatten ∧
          List.Forall₂ IsBlock files blocks ∧
          files.Pairwise (fun p q => p.same q = false) ∧
          (∀ p ∈ sources ++ stocks.flatten, hasPath files (w.tree.normalize p) = true) ∧
          ∀ p ∈ files, ∃ q ∈ sources ++ stocks.flatten, w.tree.normalize q = p := by
  obtain ⟨result, s, hfound, ht, _⟩ := discover_trace w pp dirs sources state
  rw [h] at hfound
  cases result with
  | error f => cases hfound
  | ok =>
      cases hfound
      have hleads : Session.Leads w ∅ _ s :=
        ht.leads (Session.consistent_after w dirs (sources.map .enqueue))
      obtain ⟨stocks, hstocks, hseen⟩ := hleads.keeps Session.Step.filled (Session.filled_start w dirs sources)
      obtain ⟨blocks, hcalls, hblocks, _⟩ := ht.blocks rfl
      rw [ht.finished_eq, hseen] at hblocks
      refine ⟨stocks, blocks, hstocks, hcalls, hblocks, SourceQueue.accepted_pairwise .., ?_, ?_⟩
      · intro p hp
        have hoffered := hasPath_of_mem (List.mem_map_of_mem (f := w.tree.normalize) hp)
        exact @SourceQueue.hasPath_append_accepted [] _ _ hoffered
      · intro p hp
        exact List.mem_map.1 ((SourceQueue.accepted_sublist _ _).subset hp)

def oneSource : Surroundings where
  tree := ⟨[(["main.cpp"], .file ⟨#[]⟩ false), (["wire"], .folder), (["wire", "Wire.cpp"], .file ⟨#[]⟩ false)],
    []⟩
  index := ⟨[("Wire.h", .legacyAt ⟨"/wire"⟩)]⟩
  platforms := ⟨⟨"avr", ⟨"/hardware"⟩⟩, ⟨"avr", ⟨"/hardware"⟩⟩⟩

def missesWire : Preprocessor Unit :=
  .answering (fun _ dirs => if dirs.isEmpty then .missing "Wire.h" else .clean) ""

def withWire : Discovery where
  imports := ⟨[.legacyAt ⟨"/wire"⟩], ⟨[("Wire.h", ⟨.legacyAt ⟨"/wire"⟩, false, []⟩)]⟩⟩
  includeDirs := [⟨"/wire"⟩]

theorem sourcesOf_wire :
    Session.sourcesOf oneSource (.legacyAt ⟨"/wire"⟩) = .ok [⟨"/wire/Wire.cpp"⟩] :=
  Session.sourcesOf_of_toOption (by decide +kernel)

theorem discover_oneSource :
    (discover oneSource missesWire [] [⟨"main.cpp"⟩, ⟨"/./main.cpp"⟩] ()).1 = .ok withWire := by
  have hs : Session.after oneSource [] [.enqueue ⟨"main.cpp"⟩, .enqueue ⟨"/./main.cpp"⟩] =
      ⟨.empty, [], ⟨[⟨"/main.cpp"⟩], [⟨"/main.cpp"⟩]⟩⟩ := by decide +kernel
  have hb : Session.Brings oneSource ⟨.empty, [], ⟨[], [⟨"/main.cpp"⟩]⟩⟩ "Wire.h"
      ⟨.legacyAt ⟨"/wire"⟩, false, []⟩ [⟨"/wire/Wire.cpp"⟩]
      ⟨withWire.imports, withWire.includeDirs,
        ⟨[⟨"/wire/Wire.cpp"⟩], [⟨"/main.cpp"⟩, ⟨"/wire/Wire.cpp"⟩]⟩⟩ :=
    ⟨by decide +kernel, by decide +kernel, sourcesOf_wire, by decide +kernel⟩
  have hrun : (Session.after oneSource [] [.enqueue ⟨"main.cpp"⟩, .enqueue ⟨"/./main.cpp"⟩]).run
      oneSource missesWire () =
        (.ok (), ⟨withWire.imports, withWire.includeDirs,
          ⟨[], [⟨"/main.cpp"⟩, ⟨"/wire/Wire.cpp"⟩]⟩⟩, ()) := by
    rw [hs, Session.run, Session.runFrom_next rfl]
    refine (Session.runFrom_retry rfl hb.provide).trans ?_
    refine (Session.runFrom_clean rfl).trans ?_
    rw [Session.runFrom_next rfl]
    exact (Session.runFrom_clean rfl).trans (Session.runFrom_done rfl)
  rw [discover_eq, List.map_cons, List.map_singleton, hrun]
  rfl

/-- The sketch under two names is one block, and the library's source is the other. -/
theorem discover_blocks_oneSource :
    (discover oneSource missesWire [] [⟨"main.cpp"⟩, ⟨"/./main.cpp"⟩] ()).1 = .ok withWire ∧
      ∃ blocks, discoverCalls oneSource missesWire [] [⟨"main.cpp"⟩, ⟨"/./main.cpp"⟩] () =
          blocks.flatten ∧
        List.Forall₂ IsBlock [⟨"/main.cpp"⟩, ⟨"/wire/Wire.cpp"⟩] blocks := by
  obtain ⟨stocks, blocks, hstocks, hcalls, hblocks, _⟩ := discover_blocks discover_oneSource
  have hstock : stocks = [[⟨"/wire/Wire.cpp"⟩]] := by
    cases hstocks with
    | cons hl hrest =>
        cases hrest
        rw [Session.sourceFiles_of_sourcesOf sourcesOf_wire] at hl
        rw [Except.ok.inj hl]
  have hfiles : SourceQueue.accepted []
      (([⟨"main.cpp"⟩, ⟨"/./main.cpp"⟩] ++ stocks.flatten : List Path).map oneSource.tree.normalize) =
        [⟨"/main.cpp"⟩, ⟨"/wire/Wire.cpp"⟩] := by
    rw [hstock]
    decide +kernel
  exact ⟨discover_oneSource, blocks, hcalls, hfiles ▸ hblocks⟩

end SketchPrep
