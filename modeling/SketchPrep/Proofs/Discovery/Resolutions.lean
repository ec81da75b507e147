import Mathlib.Data.List.Pairwise
import SketchPrep.Proofs.Dictionary
import SketchPrep.Proofs.Discovery.Invariant

namespace SketchPrep

namespace Session

structure Recorded (w : Surroundings) (headers : List String) (s : Session) : Prop where
  nodup : headers.Nodup
  keys : s.imports.resolutions.keys.Perm headers
  libraries : headers.map (fun header => (s.imports.resolutions.find? header).map (·.library)) =
    s.imports.libraries.map some
  resolved : ∀ header r, s.imports.resolutions.find? header = some r →
    r.library ∈ w.index.candidates header ∧
      r.notUsed = (w.index.candidates header).filter (!·.same r.library) ∧
      r.fromPlatform = w.platforms.contains r.library.folder

variable {w : Surroundings} {dirs : List Path} {headers : List String} {header : String}
  {s s' : Session} {r : Resolution} {sources : List Path}

theorem recorded_start : Recorded w [] (start dirs) where
  nodup := .nil
  keys := .refl _
  libraries := rfl
  resolved := nofun

theorem Recorded.congr (hr : Recorded w headers s) (h : s'.imports = s.imports) :
    Recorded w headers s' where
  nodup := hr.nodup
  keys := h ▸ hr.keys
  libraries := h ▸ hr.libraries
  resolved := h ▸ hr.resolved

theorem Recorded.mem_iff (hr : Recorded w headers s) :
    header ∈ headers ↔ ∃ r, s.imports.resolutions.find? header = some r := by
  rw [← hr.keys.mem_iff, Dictionary.mem_keys_iff]

theorem Recorded.library_mem (hr : Recorded w headers s)
    (h : s.imports.resolutions.find? header = some r) : r.library ∈ s.imports.libraries := by
  have hm : (s.imports.resolutions.find? header).map (·.library) ∈
      headers.map fun header => (s.imports.resolutions.find? header).map (·.library) :=
    List.mem_map.2 ⟨header, hr.mem_iff.2 ⟨r, h⟩, rfl⟩
  rw [hr.libraries, h] at hm
  obtain ⟨l, hl, he⟩ := List.mem_map.1 hm
  cases he
  exact hl

/-- A header brings a library once only: with that library among its candidates in use, no other would
be chosen. -/
theorem Recorded.not_mem_of_brings (hr : Recorded w headers s) (hb : Brings w s header r sources s') :
    header ∉ headers := by
  intro hm
  obtain ⟨r₀, h₀⟩ := hr.mem_iff.1 hm
  have hin := Selection.contains_of_resolve hb.resolved (hr.resolved _ _ h₀).1
    (Imports.contains_of_mem (hr.library_mem h₀))
  rw [hb.fresh] at hin
  cases hin

theorem Recorded.brings (hr : Recorded w headers s) (hb : Brings w s header r sources s') :
    Recorded w (headers ++ [header]) s' := by
  have hnew : header ∉ headers := hr.not_mem_of_brings hb
  have hnokey : header ∉ s.imports.resolutions.keys := fun h => hnew (hr.keys.mem_iff.1 h)
  have hfind (other : String) : s'.imports.resolutions.find? other =
      if other = header then some r else s.imports.resolutions.find? other := by
    rw [hb.resolutions, Dictionary.find?_insert]
  refine ⟨?_, ?_, ?_, ?_⟩
  · rw [List.nodup_append]
    refine ⟨hr.nodup, List.pairwise_singleton .., fun other ho header' hh he => ?_⟩
    rw [List.mem_singleton.1 hh] at he
    exact hnew (he ▸ ho)
  · rw [hb.resolutions]
    exact (Dictionary.keys_insert_perm r hnokey).trans
      ((hr.keys.cons header).trans (List.perm_append_singleton header headers).symm)
  · have hold : headers.map (fun other => (s'.imports.resolutions.find? other).map (·.library)) =
        headers.map (fun other => (s.imports.resolutions.find? other).map (·.library)) := by
      refine List.map_congr_left fun other ho => ?_
      have hne : other ≠ header := fun he => hnew (he ▸ ho)
      rw [hfind, if_neg hne]
    rw [List.map_append, hold, hr.libraries, hb.libraries, List.map_append]
    simp [hfind]
  · intro other r' h'
    rw [hfind] at h'
    split at h'
    · rename_i he
      subst he
      obtain ⟨hm, _, hp⟩ := Selection.resolve_fresh hb.resolved hb.fresh
      obtain ⟨_, _, _, _, hu⟩ := Selection.resolve_eq_some hb.resolved
      cases h'
      exact ⟨hm, hu, hp⟩
    · exact hr.resolved _ _ h'

theorem Trace.recorded {cur : Option Path} {calls : List Call} {result : Except Failure Unit}
    (h : Trace w cur s calls result s') (hok : result = .ok ()) (hc : s.Consistent w dirs)
    (hr : Recorded w headers s) : Recorded w (headers ++ calls.filterMap (·.missing?)) s' := by
  induction h generalizing headers with
  | done => simpa using hr
  | next _ _ ih => exact ih hok (hc.waiting _) (hr.congr rfl)
  | clean _ ih => exact ih hok hc hr
  | @retry source s header t calls result s' hp _ ih =>
      obtain ⟨r, sources, hb⟩ := hc.provide_retry hp
      have hrest := ih hok (hb.consistent hc) (hr.brings hb)
      rwa [List.append_assoc, List.singleton_append] at hrest
  | fails => cases hok

theorem Recorded.distinct (hr : Recorded w headers s) (hc : s.Consistent w dirs) {other : String}
    {r' : Resolution} (h : s.imports.resolutions.find? header = some r)
    (h' : s.imports.resolutions.find? other = some r') (hne : header ≠ other) :
    r.library.same r'.library = false := by
  have hpair : (s.imports.libraries.map some).Pairwise
      fun a b => ∀ l m, a = some l → b = some m → l.same m = false := by
    rw [List.pairwise_map]
    refine hc.distinct.imp fun hlm l m hl hm => ?_
    cases hl
    cases hm
    exact hlm
  rw [← hr.libraries, List.pairwise_map] at hpair
  have hsymm : Std.Symm fun header other => ∀ l m,
      (s.imports.resolutions.find? header).map (·.library) = some l →
      (s.imports.resolutions.find? other).map (·.library) = some m → l.same m = false :=
    ⟨fun header other hlm l m hl hm => by rw [Library.same, Path.same_comm]; exact hlm m l hm hl⟩
  exact hpair.forall (hr.mem_iff.2 ⟨r, h⟩) (hr.mem_iff.2 ⟨r', h'⟩) hne _ _ (by rw [h]; rfl)
    (by rw [h']; rfl)

end Session

/-- Where discovery succeeds, each header that was missing was so once and has its own library, chosen
among the candidates for it; in the order in which they were missing, these are the libraries in use. -/
theorem discover_resolutions {σ : Type} {w : Surroundings} {pp : Preprocessor σ}
    {dirs sources : List Path} {state : σ} {found : Discovery} (h : (discover w pp dirs sources state).1 = .ok found) :
    let reported := (discoverCalls w pp dirs sources state).filterMap (·.missing?)
    let resolution? := found.imports.resolutions.find?
    reported.Nodup ∧
      found.imports.resolutions.keys.Perm reported ∧
      reported.map (fun header => (resolution? header).map (·.library)) =
        found.imports.libraries.map some ∧
      (∀ header other r r', resolution? header = some r → resolution? other = some r' →
        header ≠ other → r.library.same r'.library = false) ∧
      ∀ header r, resolution? header = some r →
        r.library ∈ w.index.candidates header ∧
          r.notUsed = (w.index.candidates header).filter (!·.same r.library) ∧
          r.fromPlatform = w.platforms.contains r.library.folder := by
  intro reported resolution?
  obtain ⟨result, s', hd, ht, _⟩ := discover_trace w pp dirs sources state
  rw [h] at hd
  cases result with
  | error f => cases hd
  | ok =>
      have hfound : found = s'.discovery := Except.ok.inj hd
      have hc := Session.consistent_after w dirs (sources.map .enqueue)
      have hstart : Session.Recorded w [] (Session.start dirs) := Session.recorded_start
      have hr := ht.recorded rfl hc (hstart.congr (by rw [Session.after_enqueue]))
      rw [List.nil_append] at hr
      subst hfound
      exact ⟨hr.nodup, hr.keys, hr.libraries,
        fun _ _ _ _ h₁ h₂ hne => hr.distinct (ht.consistent hc) h₁ h₂ hne, hr.resolved⟩

def twoOffers : Surroundings where
  tree := ⟨[(["fork"], .folder), (["servo"], .folder)], []⟩
  index := ⟨[("Motor.h", .legacyAt ⟨"/servo"⟩), ("Motor.h", .legacyAt ⟨"/fork"⟩)]⟩
  platforms := ⟨⟨"avr", ⟨"/hardware"⟩⟩, ⟨"avr", ⟨"/hardware"⟩⟩⟩

def missesMotor : Preprocessor Unit where
  discover _ dirs state := (.ok (if dirs.isEmpty then .missing "Motor.h" else .clean), state)
  diagnose _ _ state := (.ok "", state)
  preprocess _ _ state := (.ok "", state)
  note _ state := state

def lastOffer : Discovery where
  imports := ⟨[.legacyAt ⟨"/fork"⟩],
    ⟨[("Motor.h", ⟨.legacyAt ⟨"/fork"⟩, false, [.legacyAt ⟨"/servo"⟩]⟩)]⟩⟩
  includeDirs := [⟨"/fork"⟩]

theorem discover_twoOffers :
    (discover twoOffers missesMotor [] [⟨"main.cpp"⟩] ()).1 = .ok lastOffer := by
  have hs : Session.after twoOffers [] [.enqueue ⟨"main.cpp"⟩] =
      ⟨.empty, [], ⟨[⟨"main.cpp"⟩], [⟨"main.cpp"⟩]⟩⟩ := by decide +kernel
  have hsources : (Session.sourcesOf twoOffers (.legacyAt ⟨"/fork"⟩)).toOption = some [] := by
    decide +kernel
  have hb : Session.Brings twoOffers ⟨.empty, [], ⟨[], [⟨"main.cpp"⟩]⟩⟩ "Motor.h"
      ⟨.legacyAt ⟨"/fork"⟩, false, [.legacyAt ⟨"/servo"⟩]⟩ []
      ⟨lastOffer.imports, lastOffer.includeDirs, ⟨[], [⟨"main.cpp"⟩]⟩⟩ :=
    ⟨by decide +kernel, by decide +kernel, Session.sourcesOf_of_toOption hsources, by decide +kernel⟩
  have hrun : (Session.after twoOffers [] [.enqueue ⟨"main.cpp"⟩]).run twoOffers missesMotor () =
      (.ok (), ⟨lastOffer.imports, lastOffer.includeDirs, ⟨[], [⟨"main.cpp"⟩]⟩⟩, ()) := by
    rw [hs, Session.run, Session.runFrom_next rfl]
    exact (Session.runFrom_retry rfl hb.provide).trans
      ((Session.runFrom_clean rfl).trans (Session.runFrom_done rfl))
  rw [discover_eq, List.map_singleton, hrun]
  rfl

theorem discover_resolutions_twoOffers :
    (discover twoOffers missesMotor [] [⟨"main.cpp"⟩] ()).1 = .ok lastOffer ∧
      lastOffer.imports.resolutions.keys.Perm
        ((discoverCalls twoOffers missesMotor [] [⟨"main.cpp"⟩] ()).filterMap (·.missing?)) :=
  ⟨discover_twoOffers, (discover_resolutions discover_twoOffers).2.1⟩

end SketchPrep
