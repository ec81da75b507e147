import SketchPrep.Proofs.Catalog
import SketchPrep.Proofs.Discovery.Steps

namespace SketchPrep

/-- The compiler finds what is there: it reports no header missing that is a file directly in a folder of
the include path. -/
def Preprocessor.FindsFiles {σ : Type} (pp : Preprocessor σ) (t : FileTree) : Prop :=
  ∀ source dirs state header, (pp.discover source dirs state).1 = .ok (.missing header) →
    ∀ d ∈ dirs, ¬ t.HasFile d header

namespace Session

variable {w : Surroundings} {dirs : List Path} {s s' : Session} {source : Path} {header : String}
  {output : String} {answer : Except Failure Outcome} {f : Failure}

/-- The library that is picked for a header makes way for one in use, which has the same name but lies
elsewhere and lacks the header. -/
structure Displaced (w : Surroundings) (s : Session) (header : String) (picked standIn : Library) :
    Prop where
  choice : ∃ choice, Selection.choose header (w.index.candidates header) s.imports w.platforms =
    some choice ∧ choice.library = picked
  resolution : ∃ r, Selection.resolve header (w.index.candidates header) s.imports w.platforms =
    some r ∧ r.library = standIn
  inUse : standIn ∈ s.imports.libraries
  sameName : standIn.name = picked.name
  elsewhere : standIn.same picked = false
  lacks : ¬ w.tree.HasFile standIn.sourceFolder header

/-- A library that cannot be imported does not make its header unresolved. -/
theorem stuck_ne_unresolved (h : s.provide w header = .stuck f) (other : String) :
    f ≠ .unresolved other source output := by
  obtain ⟨_, _, _, he⟩ := provide_stuck h
  obtain ⟨_, _, rfl⟩ | ⟨_, hs⟩ := sourcesOf_eq_error he
  · exact nofun
  · obtain ⟨_, _, rfl⟩ := Library.isWalkFailure_of_sourceFiles hs
    exact nofun

/-- A failure that calls a header unresolved is the compiler's own, or the header is missing and no
library helps. -/
theorem Ends.unresolved_cases {place : Path}
    (h : Ends w s place answer (.unresolved header source output) s') :
    answer = .error (.unresolved header source output) ∨
      place = source ∧ answer = .ok (.missing header) ∧ s.provide w header = .hopeless s' := by
  cases h with
  | broken => exact .inl rfl
  | stuck hp => exact absurd rfl (stuck_ne_unresolved hp header)
  | unresolved _ hp => exact .inr ⟨rfl, rfl, hp⟩

theorem Consistent.displaced (hc : s.Consistent w dirs) {catalog : Catalog}
    (hi : catalog.headerIndex w.tree = .ok w.index)
    (hmissing : ∀ d ∈ s.includeDirs, ¬ w.tree.HasFile d header)
    (hp : s.provide w header = .hopeless s') :
    w.index.candidates header = [] ∨ ∃ picked standIn, Displaced w s header picked standIn := by
  -- no folder on the include path can have the header
  have hlacks {l : Library} (hl : s.imports.contains l = true) : ¬ w.tree.HasFile l.sourceFolder header := by
    obtain ⟨d, hd, he⟩ := hasPath_iff.1 (hc.hasFolder_of_contains hl)
    exact fun hfile => hmissing d hd (hfile.congr (Path.same_iff.2 he.symm))
  obtain ⟨_, hnone⟩ | ⟨r, hr, hin, _⟩ := provide_hopeless hp
  · exact .inl hnone
  · obtain ⟨choice, hchoice, hlibrary, _, _⟩ := Selection.resolve_eq_some hr
    have hhas := Catalog.hasFile_of_candidate hi (Selection.mem_of_choose hchoice)
    cases hn : s.imports.findByName? choice.library.name with
    | none =>
        rw [hn, Option.getD_none] at hlibrary
        exact absurd (hlibrary ▸ hhas) (hlacks hin)
    | some l =>
        rw [hn, Option.getD_some] at hlibrary
        have hname : l.name = choice.library.name := by simpa using List.find?_some hn
        have helsewhere : l.same choice.library = false := by
          refine Bool.eq_false_iff.2 fun hsame => ?_
          have hback := Path.same_comm l.sourceFolder choice.library.sourceFolder
          exact hlacks (hlibrary ▸ hin) (hhas.congr (hback ▸ hsame))
        exact .inr ⟨choice.library, l, ⟨choice, hchoice, rfl⟩, ⟨r, hr, hlibrary⟩,
          List.mem_of_find?_eq_some hn, hname, helsewhere, hlacks (hlibrary ▸ hin)⟩

end Session

/-- With an index of the libraries' own headers and a compiler that finds files, discovery gives up on a
header only if no library offers it or the one that was picked had to make way for another of its name.
The one other way to this failure is that the compiler fails with it by itself. -/
theorem discover_unresolved {σ : Type} {w : Surroundings} {catalog : Catalog} {pp : Preprocessor σ}
    {dirs sources : List Path} {state : σ} {header output : String} {source : Path}
    (hi : catalog.headerIndex w.tree = .ok w.index) (hpp : pp.FindsFiles w.tree)
    (h : (discover w pp dirs sources state).1 = .error (.unresolved header source output)) :
    let calls := discoverCalls w pp dirs sources state
    (∃ c ∈ calls, c.answer = some (.error (.unresolved header source output))) ∨
      w.index.candidates header = [] ∨
      ∃ before s picked standIn,
        calls = before ++ [.asked source s.includeDirs (.ok (.missing header))] ∧
          Session.Reaches w none (Session.after w dirs (sources.map .enqueue)) before source s ∧
          Session.Displaced w s header picked standIn := by
  intro calls
  obtain ⟨result, s', hresult, ht, hgives⟩ := discover_trace w pp dirs sources state
  rw [h] at hresult
  cases result with
  | ok => cases hresult
  | error f =>
      cases hresult
      obtain ⟨before, place, s, answer, hcalls, hr, he⟩ := ht.fails_at rfl
      have hlast : .asked place s.includeDirs answer ∈ calls := by
        rw [show calls = _ from hcalls]
        exact List.mem_append_right _ (List.mem_singleton_self _)
      obtain rfl | ⟨rfl, rfl, hp⟩ := he.unresolved_cases
      · exact .inl ⟨_, hlast, rfl⟩
      · refine .inr ?_
        have hstart := Session.consistent_after w dirs (sources.map .enqueue)
        have hc : s.Consistent w dirs := hr.consistent hstart
        obtain ⟨reported, hreport⟩ := hgives _ hlast
        have hmissing := hpp _ _ reported header (Option.some.inj hreport).symm
        obtain hnone | ⟨picked, standIn, hd⟩ := hc.displaced hi hmissing hp
        · exact .inl hnone
        · exact .inr ⟨before, s, picked, standIn, hcalls, hr, hd⟩

def twoServos : Catalog where
  folders := [⟨"/local"⟩, ⟨"/shared"⟩]
  libraries := [.legacyAt ⟨"/local/Servo"⟩, .legacyAt ⟨"/shared/Servo"⟩]

def amongServos : Surroundings where
  tree := ⟨[(["local"], .folder), (["local", "Servo"], .folder),
    (["local", "Servo", "Servo.h"], .file ⟨#[]⟩ false), (["shared"], .folder),
    (["shared", "Servo"], .folder), (["shared", "Servo", "Sweep.h"], .file ⟨#[]⟩ false)], []⟩
  index := ⟨[("Servo.h", .legacyAt ⟨"/local/Servo"⟩), ("Sweep.h", .legacyAt ⟨"/shared/Servo"⟩)]⟩
  platforms := ⟨⟨"avr", ⟨"/hardware"⟩⟩, ⟨"avr", ⟨"/hardware"⟩⟩⟩

theorem headerIndex_twoServos : twoServos.headerIndex amongServos.tree = .ok amongServos.index := by
  have hentries : (twoServos.headerIndex amongServos.tree).toOption.map (·.entries) =
      some amongServos.index.entries := by decide +kernel
  cases hi : twoServos.headerIndex amongServos.tree with
  | error f => rw [hi] at hentries; cases hentries
  | ok index =>
      rw [hi] at hentries
      have he : index.entries = amongServos.index.entries := Option.some.inj hentries
      rw [show index = ⟨index.entries⟩ from rfl, he]

def missesServos : Preprocessor Unit :=
  .answering (fun _ dirs =>
    if dirs = [] then .missing "Servo.h"
    else if dirs = [⟨"/local/Servo"⟩] then .missing "Sweep.h" else .clean) "no Sweep.h"

theorem missesServos_findsFiles : missesServos.FindsFiles amongServos.tree := by
  intro source dirs state header hm d hd
  have hanswer := Except.ok.inj hm
  dsimp only at hanswer
  split at hanswer
  · rename_i hempty
    rw [hempty] at hd
    cases hd
  · split at hanswer
    · rename_i hone
      rw [hone, List.mem_singleton] at hd
      cases hanswer
      have hlist : amongServos.tree.list ⟨"/local/Servo"⟩ = .ok [("Servo.h", .file ⟨#[]⟩ false)] := by
        rfl
      rw [hd, FileTree.hasFile_iff hlist (by decide +kernel)]
      rintro ⟨content, runnable, hin⟩
      have hname : "Sweep.h" = "Servo.h" := congrArg Prod.fst (List.mem_singleton.1 hin)
      exact absurd hname (by decide)
    · cases hanswer

def servoImported : Session :=
  ⟨⟨[.legacyAt ⟨"/local/Servo"⟩], ⟨[("Servo.h", ⟨.legacyAt ⟨"/local/Servo"⟩, false, []⟩)]⟩⟩,
    [⟨"/local/Servo"⟩], ⟨[], [⟨"main.cpp"⟩]⟩⟩

theorem discover_amongServos :
    (discover amongServos missesServos [] [⟨"main.cpp"⟩] ()).1 =
      .error (.unresolved "Sweep.h" ⟨"main.cpp"⟩ "no Sweep.h") := by
  have hs : Session.after amongServos [] [.enqueue ⟨"main.cpp"⟩] =
      ⟨.empty, [], ⟨[⟨"main.cpp"⟩], [⟨"main.cpp"⟩]⟩⟩ := by decide +kernel
  have hsources : (Session.sourcesOf amongServos (.legacyAt ⟨"/local/Servo"⟩)).toOption = some [] := by
    decide +kernel
  have hb : Session.Brings amongServos ⟨.empty, [], ⟨[], [⟨"main.cpp"⟩]⟩⟩ "Servo.h"
      ⟨.legacyAt ⟨"/local/Servo"⟩, false, []⟩ [] servoImported :=
    ⟨by decide +kernel, by decide +kernel, Session.sourcesOf_of_toOption hsources, by decide +kernel⟩
  have hagain : Session.provide amongServos servoImported "Sweep.h" =
      .hopeless { servoImported with
        imports := servoImported.imports.record "Sweep.h"
          ⟨.legacyAt ⟨"/local/Servo"⟩, false, [.legacyAt ⟨"/shared/Servo"⟩]⟩ } := by rfl
  have hrun : ((Session.after amongServos [] [.enqueue ⟨"main.cpp"⟩]).run amongServos missesServos ()).1 =
      .error (.unresolved "Sweep.h" ⟨"main.cpp"⟩ "no Sweep.h") := by
    rw [hs, Session.run, Session.runFrom_next rfl]
    refine (congrArg Prod.fst (Session.runFrom_retry rfl hb.provide)).trans ?_
    exact congrArg Prod.fst (Session.runFrom_hopeless rfl hagain rfl)
  rw [discover_eq, List.map_singleton]
  exact congrArg (Except.map _) hrun

theorem discover_unresolved_amongServos :
    (discover amongServos missesServos [] [⟨"main.cpp"⟩] ()).1 =
        .error (.unresolved "Sweep.h" ⟨"main.cpp"⟩ "no Sweep.h") ∧
      ∃ s picked standIn, Session.Displaced amongServos s "Sweep.h" picked standIn := by
  refine ⟨discover_amongServos, ?_⟩
  obtain ⟨c, hc, hown⟩ | hnone | ⟨_, s, picked, standIn, _, _, hd⟩ :=
    discover_unresolved headerIndex_twoServos missesServos_findsFiles discover_amongServos
  · obtain ⟨_, _, _, _, hgives⟩ := discover_trace amongServos missesServos [] [⟨"main.cpp"⟩] ()
    obtain ⟨_, hgiven⟩ := hgives c hc
    cases hown.symm.trans hgiven
  · exact absurd hnone (by decide +kernel)
  · exact ⟨s, picked, standIn, hd⟩

end SketchPrep
